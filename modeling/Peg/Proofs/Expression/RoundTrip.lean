import Peg.Expression.Reader
import Peg.Proofs.Expression.Nesting
import Peg.Proofs.Json.Records

/-!
# Expressions read back from their documents

The reader goes over an expression's object twice: once for the kind, taking every other entry for a
document of any sort, and once for the fields of that kind. Either time the whole document is gone
through, so either time it must fit the room there is; and what goes wrong when it does not is the
same. **`readDraft_node`** puts the two together for an object of any kind. What is left for each of
the fifteen kinds is to name the assignment its fields fill in.

**`readDraft_toJson`**: an expression reads back from its document, if that does not nest too deep,
and otherwise the text is malformed.
-/

namespace Peg

open Json

/-! ## Class parts -/

@[simp] theorem ClassPart.inRange_toJson (part : ClassPart) : part.toJson.inRange = true := by
  cases part <;> rfl

@[simp] theorem charOf?_charDocument (c : Char) : charOf? (charDocument c) = some c := by
  unfold charOf? charDocument
  simp only [String.toList_singleton]

/-- A character is read back from its string, a range from its array. -/
theorem ClassPart.ofJson?_toJson (part : ClassPart) : ofJson? part.toJson = some part := by
  cases part with
  | char c =>
    show (charOf? (charDocument c)).map char = some (char c)
    simp
  | range first last =>
    show (do return range (← charOf? (charDocument first)) (← charOf? (charDocument last))) = _
    simp

/-- A class part is read back where there is room for what it nests. -/
theorem ClassPart.readDraft_toJson (part : ClassPart) (room : Nat) :
    readDraft room part.toJson.draft = Read.nested part.toJson.depth room part := by
  unfold readDraft
  rw [ofDraft_draft part.toJson room part.inRange_toJson]
  apply Read.nested_then
  rw [part.ofJson?_toJson]
  rfl

namespace Expression

/-! ## The kind -/

@[simp] theorem Kind.ofTag_tag (kind : Kind) : Kind.ofTag kind.tag = .ok kind := by
  cases kind <;> rfl

/-- With the kind known, the other entries only have to be documents with room for them. -/
theorem findKind_some (place : Place) (room : Nat) (kind : Kind) {entries : List (String × Json)}
    (hkeys : ∀ entry ∈ entries, entry.1 ≠ "type") (hrange : inRangeEntries entries = true) :
    findKind place room (some kind) (draftEntries entries)
      = Read.nested (depthEntries entries) room (some kind) := by
  induction entries with
  | nil => rfl
  | cons entry entries ih =>
    obtain ⟨key, value⟩ := entry
    have hkey : key ≠ "type" := hkeys (key, value) (List.mem_cons_self ..)
    obtain ⟨hvalue, hentries⟩ := Bool.and_eq_true_iff.mp hrange
    rw [draftEntries, findKind, if_neg hkey, ofDraft_draft value room hvalue]
    exact Read.nested_bind (ih (fun e he => hkeys e (List.mem_cons_of_mem _ he)) hentries)

/-- The first of the two readings: the kind is found, if all the fields fit. -/
theorem findKind_node (place : Place) (room : Nat) (kind : Kind) {fields : List (String × Json)}
    (hkeys : ∀ field ∈ fields, field.1 ≠ "type") (hrange : inRangeEntries fields = true) :
    findKind place room none (draftEntries (("type", string kind.tag) :: fields))
      = Read.nested (depthEntries fields) room (some kind) := by
  have htag : readKind place (string kind.tag).draft = .ok kind := by
    rw [← kind.ofTag_tag]
    cases place <;> rfl
  rw [draftEntries, findKind, if_pos rfl, htag]
  exact findKind_some place room kind hkeys hrange

/-- No kind asks for another kind. -/
theorem field?_type (kind : Kind) : Shape.field? (S := shape) kind.fields "type" = none := by
  cases kind <;> rfl

/-! ## One object -/

/-- The reader for the fields of an expression that is read with the given room inside it. -/
abbrev fieldReader (room : Nat) : (f : Field) → Draft → Read f.Value :=
  readField (readDraft .inner room) (readDrafts room) room

/-- **An object reads back if its fields do**, and if it fits. -/
theorem readDraft_node (place : Place) (room : Nat) {kind : Kind} {fields : List (String × Json)}
    {p : shape.Partial} {e : Expression}
    (hkeys : ∀ field ∈ fields, field.1 ≠ "type") (hrange : inRangeEntries fields = true)
    (hfills : Shape.Fills (S := shape) kind.fields (fieldReader (room - 1)) (room - 1)
      (Shape.Partial.empty shape) fields p)
    (hbuild : ofFields kind p = .ok e) :
    readDraft place room (node kind fields).draft
      = Read.nested (node kind fields).depth room e := by
  have hdepth : (node kind fields).depth = 1 + depthEntries fields := by
    rw [node, depth, depthEntries, depth, Nat.zero_max]
  rw [hdepth]
  cases room with
  | zero => simp [node, draft, readDraft]
  | succ room =>
    rw [Nat.add_sub_cancel] at hfills
    rw [node, draft, readDraft, readObject, findKind_node place room kind hkeys hrange,
      Read.nested_succ]
    have hentries : Shape.readEntries (S := shape) kind.fields (fieldReader room)
        (Shape.Partial.empty shape) (draftEntries (("type", string kind.tag) :: fields))
          = Read.nested (max 0 (depthEntries fields)) room p :=
      (Shape.Fills.pass (field?_type kind) rfl hfills).readEntries
    rw [Nat.zero_max] at hentries
    by_cases hfit : depthEntries fields ≤ room
    · rw [Read.nested_of_le hfit] at hentries ⊢
      rw [Read.nested_of_le hfit]
      show (Shape.readEntries kind.fields (fieldReader room) (Shape.Partial.empty shape)
        (draftEntries (("type", string kind.tag) :: fields)) >>= ofFields kind) = _
      rw [hentries]
      exact hbuild
    · -- The first reading already fails.
      have hlt : room < depthEntries fields := by omega
      rw [Read.nested_of_lt hlt, Read.nested_of_lt hlt]
      rfl

/-! ## Fields -/

theorem readParts_draft (parts : List ClassPart) (room : Nat) :
    Draft.readList (ClassPart.readDraft (room - 1)) room
        (array (parts.map ClassPart.toJson)).draft
      = Read.nested (array (parts.map ClassPart.toJson)).depth room parts :=
  readList_draft fun part _ => part.readDraft_toJson (room - 1)

/-- Operands are read as a list of expressions, with one place less for each. -/
theorem readDrafts_eq_readList (room : Nat) (d : Draft) :
    readDrafts room d = Draft.readList (readDraft .inner (room - 1)) room d := by
  cases room <;> cases d <;> rfl

/-- Operands are read back if each of them is. -/
theorem readDrafts_documents {es : List Expression} {room : Nat}
    (h : ∀ e ∈ es, readDraft .inner (room - 1) e.toJson.draft
      = Read.nested e.toJson.depth (room - 1) e) :
    readDrafts room (array (documents es)).draft
      = Read.nested (array (documents es)).depth room es := by
  rw [readDrafts_eq_readList, documents_eq_map]
  exact readList_draft h

/-! ## Whole expressions -/

/-- There is no number in the document of an expression. -/
theorem inRange_toJson (e : Expression) : e.toJson.inRange = true := by
  induction e using childInduction with
  | step e ih =>
    cases e with
    | choice es | sequence es =>
      have hes : ∀ e ∈ es, e.toJson.inRange = true := ih
      simpa [toJson, node, inRange, documents_eq_map] using hes
    | labeled _ e | action e _ | simpleAnd e | simpleNot e | optional e | zeroOrMore e
    | oneOrMore e =>
      have he : e.toJson.inRange = true := ih e (List.mem_singleton_self e)
      simp [toJson, node, inRange, he]
    | charClass inverted ignoreCase parts rawText =>
      simp [toJson, node, inRange]
    | semanticAnd _ | semanticNot _ | ruleRef _ | literal _ _ | any => rfl

/-- **An expression reads back from its document**, in any place and with any room that holds it. -/
theorem readDraft_toJson (e : Expression) (place : Place) (room : Nat) :
    readDraft place room e.toJson.draft = Read.nested e.toJson.depth room e := by
  induction e using childInduction generalizing place room with
  | step e ih =>
    -- The entries behind the kind are the fields; every document of an operand is in range.
    have hfields : ∀ kind fields, e.toJson = node kind fields → inRangeEntries fields = true := by
      intro kind fields he
      have h : (node kind fields).inRange = true := he ▸ e.inRange_toJson
      simpa [node, inRange] using h
    -- The chain of entries is the assignment they fill in, from which the expression is built.
    cases e with
    | choice es | sequence es =>
      have hes := readDrafts_documents fun e he => ih e he .inner (room - 1 - 1)
      exact readDraft_node place room (by simp) (hfields _ _ rfl)
        (.set rfl rfl hes (.nil _)) rfl
    | simpleAnd e | simpleNot e | optional e | zeroOrMore e | oneOrMore e =>
      have he := ih e (List.mem_singleton_self e) .inner (room - 1)
      exact readDraft_node place room (by simp) (hfields _ _ rfl)
        (.set rfl rfl he (.nil _)) rfl
    | labeled label e =>
      have he := ih e (List.mem_singleton_self e) .inner (room - 1)
      exact readDraft_node place room (by simp) (hfields _ _ rfl)
        (.set rfl rfl (readString_draft label _) (.set rfl rfl he (.nil _))) rfl
    | action e code =>
      have he := ih e (List.mem_singleton_self e) .inner (room - 1)
      exact readDraft_node place room (by simp) (hfields _ _ rfl)
        (.set rfl rfl he (.set rfl rfl (readString_draft code _) (.nil _))) rfl
    | semanticAnd text | semanticNot text | ruleRef text =>
      exact readDraft_node place room (by simp) (hfields _ _ rfl)
        (.set rfl rfl (readString_draft text _) (.nil _)) rfl
    | literal value ignoreCase =>
      exact readDraft_node place room (by simp) (hfields _ _ rfl)
        (.set rfl rfl (readString_draft value _)
          (.set rfl rfl (readBool_draft ignoreCase _) (.nil _))) rfl
    | charClass inverted ignoreCase parts rawText =>
      exact readDraft_node place room (by simp) (hfields _ _ rfl)
        (.set rfl rfl (readBool_draft inverted _)
          (.set rfl rfl (readBool_draft ignoreCase _)
            (.set rfl rfl (readParts_draft parts _)
              (.set rfl rfl (readString_draft rawText _) (.nil _))))) rfl
    | any => exact readDraft_node place room (by simp) (hfields _ _ rfl) (.nil _) rfl

end Expression

end Peg
