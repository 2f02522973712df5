import Peg.Proofs.Expression.RoundTrip
import Peg.Proofs.Json.Origins

/-!
# Expressions that were read fit the room there was

An expression may stand in a text as an object or as an array, with its kind by name or by number,
its fields in any order and others between them. However it stands there, each field is read with
the room that is left inside (**`exists_readBy_of_readDraft`**), and the expression, written again,
has no entries but those fields (**`toJson_of_ofFields`**). So the document of what was read nests
no deeper than the text was allowed to: **`depth_le_of_readDraft`**.
-/

namespace Peg

open Json

/-! ## Class parts -/

/-- Where no container may be nested, what is read is none. -/
theorem Json.depth_of_ofDraft_zero {d : Draft} {j : Json} (h : ofDraft 0 d = .ok j) :
    j.depth = 0 := by
  cases d with
  | null | bool _ =>
    cases h
    rfl
  | string s =>
    cases s with
    | none => cases h
    | some s =>
      cases h
      rfl
  | number n =>
    unfold ofDraft at h
    split at h
    · cases h
      rfl
    · cases h
  | array _ _ | object _ _ | broken _ => cases h

/-- A range is read from an array only. -/
theorem ClassPart.depth_of_ofJson?_range {document : Json} {first last : Char}
    (h : ofJson? document = some (range first last)) : 0 < document.depth := by
  unfold ofJson? at h
  split at h
  · rw [depth]
    omega
  · obtain ⟨c, -, hc⟩ := Option.map_eq_some_iff.mp h
    cases hc

/-- A range stands in an array, which takes a place. -/
theorem ClassPart.depth_le_of_readDraft {room : Nat} {d : Draft} {part : ClassPart}
    (h : readDraft room d = .ok part) : part.toJson.depth ≤ room := by
  unfold readDraft at h
  obtain ⟨document, hdocument, hpart⟩ := Read.bind_eq_ok.mp h
  split at hpart
  · next found hfound =>
    cases hpart
    cases part with
    | char c => exact Nat.zero_le room
    | range first last =>
      -- without room nothing but a flat document is read, and a range is an array
      have hdepth : 0 < document.depth := depth_of_ofJson?_range hfound
      have hroom : room ≠ 0 := by
        rintro rfl
        rw [depth_of_ofDraft_zero hdocument] at hdepth
        exact absurd hdepth (Nat.lt_irrefl 0)
      exact Nat.pos_of_ne_zero hroom
  · cases hpart

namespace Expression

/-! ## Object and array -/

/-- **An expression is made of fields read inside it**, and takes a place for itself. -/
theorem exists_readBy_of_readDraft {place : Place} {room : Nat} {d : Draft} {e : Expression}
    (h : readDraft place room d = .ok e) :
    ∃ inside kind p, room = inside + 1 ∧
      Shape.Partial.ReadBy (S := shape) (fieldReader inside) p ∧ ofFields kind p = .ok e := by
  unfold readDraft at h
  split at h
  · cases h
  · cases h
  · next inside entries stop =>
    -- the kind is looked for first, and then the entries are read for its fields
    unfold readObject at h
    obtain ⟨kind, -, h⟩ := Read.bind_eq_ok.mp h
    obtain ⟨_, -, h⟩ := Read.bind_eq_ok.mp h
    cases kind with
    | none => cases h
    | some kind =>
      obtain ⟨p, hp, h⟩ := Read.bind_eq_ok.mp h
      exact ⟨inside, kind, p, rfl, Shape.Partial.readBy_empty.readEntries hp, h⟩
  · next inside items stop =>
    -- the kind is the first item, and the fields follow in their order
    unfold readArray at h
    cases items with
    | nil =>
      obtain ⟨_, -, h⟩ := Read.bind_eq_ok.mp h
      cases h
    | cons tag items =>
      obtain ⟨kind, -, h⟩ := Read.bind_eq_ok.mp h
      obtain ⟨_, -, h⟩ := Read.bind_eq_ok.mp h
      obtain ⟨_, -, h⟩ := Read.bind_eq_ok.mp h
      obtain ⟨⟨p, left, rest⟩, hp, h⟩ := Read.bind_eq_ok.mp h
      have hread := Shape.Partial.readBy_empty.readItems hp
      dsimp only at h
      split at h
      · cases h
      · split at h
        · cases h
        · exact ⟨inside, kind, p, rfl, hread, h⟩
  · exact absurd h (Draft.refuse_ne_ok _ _ _)

/-! ## Fields -/

/-- The document of a field. -/
def Field.document : (f : Field) → f.Value → Json
  | alternatives, es | elements, es => array (documents es)
  | expression, e => e.toJson
  | label, s | code, s | name, s | value, s | rawText, s => string s
  | ignoreCase, b | inverted, b => bool b
  | parts, ps => array (ps.map ClassPart.toJson)

/-- **An expression is written as it was built**: its entries are fields it was built from, each
under its key. -/
theorem toJson_of_ofFields {kind : Kind} {p : shape.Partial} {e : Expression}
    (h : ofFields kind p = .ok e) :
    ∃ fields, e.toJson = node kind fields ∧
      ∀ entry ∈ fields, ∃ f value, p f = some value ∧ entry = (f.key, f.document value) := by
  have written : ∀ {f : Field} {value : f.Value},
      Shape.Partial.require (S := shape) p f = .ok value →
        ∃ g v, p g = some v ∧ (f.key, f.document value) = (g.key, g.document v) :=
    fun {f value} hvalue => ⟨f, value, Shape.Partial.require_eq_ok.mp hvalue, rfl⟩
  -- each kind asks for its fields in turn, and writes them
  cases kind with
  | choice | sequence | simpleAnd | simpleNot | optional | zeroOrMore | oneOrMore | semanticAnd
  | semanticNot | ruleRef =>
    obtain ⟨value, hvalue, h⟩ := Read.bind_eq_ok.mp h
    cases h
    exact ⟨_, rfl, List.forall_mem_singleton.mpr (written hvalue)⟩
  | labeled | action | literal =>
    obtain ⟨first, hfirst, h⟩ := Read.bind_eq_ok.mp h
    obtain ⟨second, hsecond, h⟩ := Read.bind_eq_ok.mp h
    cases h
    exact ⟨_, rfl, List.forall_mem_cons.mpr
      ⟨written hfirst, List.forall_mem_singleton.mpr (written hsecond)⟩⟩
  | charClass =>
    obtain ⟨inverted, hinverted, h⟩ := Read.bind_eq_ok.mp h
    obtain ⟨ignoreCase, hcase, h⟩ := Read.bind_eq_ok.mp h
    obtain ⟨parts, hparts, h⟩ := Read.bind_eq_ok.mp h
    obtain ⟨rawText, hraw, h⟩ := Read.bind_eq_ok.mp h
    cases h
    refine ⟨_, rfl, List.forall_mem_cons.mpr ⟨written hinverted, ?_⟩⟩
    refine List.forall_mem_cons.mpr ⟨written hcase, ?_⟩
    exact List.forall_mem_cons.mpr ⟨written hparts, List.forall_mem_singleton.mpr (written hraw)⟩
  | any =>
    cases h
    exact ⟨_, rfl, List.forall_mem_nil _⟩

/-- A field fits the room inside, when operands fit the room they are read in. -/
theorem Field.depth_document_le {inside : Nat}
    (hoperand : ∀ room ≤ inside, ∀ d e, readDraft .inner room d = .ok e → e.toJson.depth ≤ room)
    {f : Field} {d : Draft} {value : f.Value} (h : fieldReader inside f d = .ok value) :
    (f.document value).depth ≤ inside := by
  cases f with
  | alternatives | elements =>
    have hread : Draft.readList (readDraft .inner (inside - 1)) inside d = .ok value :=
      (readDrafts_eq_readList inside d).symm.trans h
    show (array (documents value)).depth ≤ inside
    rw [documents_eq_map]
    exact Draft.depth_le_of_readList (hoperand (inside - 1) (Nat.sub_le inside 1)) hread
  | expression => exact hoperand inside (Nat.le_refl inside) d value h
  | parts => exact Draft.depth_le_of_readList (fun _ _ => ClassPart.depth_le_of_readDraft) h
  | label | code | name | value | rawText | ignoreCase | inverted => exact Nat.zero_le inside

/-! ## Whole expressions -/

/-- **What was read fits the room it was read in.** The induction is on the room: operands are read
with less of it than the expression. -/
theorem depth_le_of_readDraft {place : Place} {room : Nat} {d : Draft} {e : Expression}
    (h : readDraft place room d = .ok e) : e.toJson.depth ≤ room := by
  induction room using Nat.strongRecOn generalizing place d e with
  | ind room ih =>
    obtain ⟨inside, kind, p, rfl, hp, hbuild⟩ := exists_readBy_of_readDraft h
    obtain ⟨fields, hwritten, hfields⟩ := toJson_of_ofFields hbuild
    have hoperand : ∀ room ≤ inside, ∀ d e, readDraft .inner room d = .ok e →
        e.toJson.depth ≤ room :=
      fun room hroom _ _ => ih room (Nat.lt_succ_of_le hroom)
    have hdepth : depthEntries fields ≤ inside := by
      apply depthEntries_le_iff.mpr
      intro entry hentry
      obtain ⟨f, value, hvalue, rfl⟩ := hfields entry hentry
      obtain ⟨d, hd⟩ := hp f value hvalue
      exact Field.depth_document_le hoperand hd
    -- the object takes a place, and the kind in it is flat
    rw [hwritten, node, depth, depthEntries, depth]
    omega

end Expression

end Peg
