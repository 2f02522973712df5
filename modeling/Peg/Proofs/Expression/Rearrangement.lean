import Peg.Proofs.Expression.RoundTrip
import Peg.Proofs.Json.Fitting
import Peg.Proofs.Json.Rearrangement

/-!
# Expressions in another order

The kind of an expression may stand anywhere among the entries of its object, and it decides which
of the others are fields. So an object is gone through twice, and either time the order must not
count: the first time for the kind (**`findKind_rearranged`**), the second time for the fields of
that kind. The first time all the other entries are read as documents of any kind, so what is added
must fit the room there is.

**`Rearranged`** relates two documents of one expression. It follows the reader: a place is taken by
each object and by each list of operands, and inside them the operands are rearranged in what is
left. **`respects_readDraft`** says that the reader sees no difference.
-/

namespace Peg

open Json

namespace Expression

variable {place : Place} {room : Nat}

/-! ## The kind -/

/-- What names a kind in a text names it inside an expression too. -/
theorem readKind_inner {d : Draft} {kind : Kind} (h : readKind place d = .ok kind) :
    readKind .inner d = .ok kind := by
  cases place with
  | inner => exact h
  | outermost =>
    unfold readKind at h
    split at h
    · exact h
    · contradiction
    · exact absurd h (Draft.refuse_ne_ok _ _ _)

/-- Goes through one entry of a document for the kind. -/
def takeKind (place : Place) (room : Nat) (kind : Option Kind) (entry : String × Json) :
    Read (Option Kind) :=
  if entry.1 = "type" then
    match kind with
    | some _ => Read.mismatch (.duplicateField entry.1)
    | none => do return some (← readKind place entry.2.draft)
  else do
    let _ ← Json.ofDraft room entry.2.draft
    return kind

/-- The kind is looked for entry by entry. -/
theorem findKind_draftEntries (kind : Option Kind) (entries : List (String × Json)) :
    findKind place room kind (draftEntries entries)
      = entries.foldlM (takeKind place room) kind := by
  induction entries generalizing kind with
  | nil => rfl
  | cons entry entries ih =>
    obtain ⟨key, value⟩ := entry
    rw [draftEntries, findKind.eq_def, List.foldlM_cons, takeKind.eq_def]
    by_cases hkey : key = "type"
    · simp only [if_pos hkey]
      cases kind with
      | some _ => rfl
      | none => simp only [ih, bind_assoc, pure_bind]
    · simp only [if_neg hkey, ih, bind_assoc, pure_bind]

/-- An entry is passed if it gives the kind, which may be once only, or if it is another and can be
read as a document. -/
theorem takeKind_eq_ok {kind kind' : Option Kind} {entry : String × Json} :
    takeKind place room kind entry = .ok kind' ↔
      (entry.1 = "type" ∧ kind = none ∧
          ∃ found, readKind place entry.2.draft = .ok found ∧ kind' = some found) ∨
        (entry.1 ≠ "type" ∧ Fits room entry.2 ∧ kind' = kind) := by
  unfold takeKind
  by_cases hkey : entry.1 = "type"
  · rw [if_pos hkey]
    cases kind with
    | some found => simp [hkey, Read.mismatch]
    | none =>
      simp only [Read.bind_eq_ok, hkey, true_and, ne_eq, not_true_eq_false, false_and, or_false]
      constructor
      · rintro ⟨found, hfound, ⟨⟩⟩
        exact ⟨found, hfound, rfl⟩
      · rintro ⟨found, hfound, rfl⟩
        exact ⟨found, hfound, rfl⟩
  · rw [if_neg hkey]
    simp only [Read.bind_eq_ok, ofDraft_eq_ok_iff, hkey, false_and, false_or, ne_eq,
      not_false_eq_true, true_and]
    constructor
    · rintro ⟨_, ⟨-, hfits⟩, ⟨⟩⟩
      exact ⟨hfits, rfl⟩
    · rintro ⟨hfits, rfl⟩
      exact ⟨_, ⟨rfl, hfits⟩, rfl⟩

/-- Two entries that are passed are passed in the other order, and leave the same kind. -/
theorem takeKind_swap (kind : Option Kind) (e e' : String × Json) (kind₁ kind₂ : Option Kind)
    (h : takeKind place room kind e = .ok kind₁) (h' : takeKind place room kind₁ e' = .ok kind₂) :
    ∃ kind₁', takeKind place room kind e' = .ok kind₁' ∧
      takeKind place room kind₁' e = .ok kind₂ := by
  rcases takeKind_eq_ok.mp h with ⟨hkey, rfl, found, hfound, rfl⟩ | ⟨hkey, hfits, rfl⟩
  · -- with the kind found, what follows is any other entry
    rcases takeKind_eq_ok.mp h' with ⟨-, hnone, -⟩ | ⟨hkey', hfits', rfl⟩
    · cases hnone
    · exact ⟨none, takeKind_eq_ok.mpr (.inr ⟨hkey', hfits', rfl⟩), h⟩
  · exact ⟨kind₂, h', takeKind_eq_ok.mpr (.inr ⟨hkey, hfits, rfl⟩)⟩

theorem foldlM_takeKind_some {kind : Kind} {kind' : Option Kind} {entries : List (String × Json)}
    (h : entries.foldlM (takeKind place room) (some kind) = .ok kind') : kind' = some kind := by
  induction entries with
  | nil =>
    cases h
    rfl
  | cons entry entries ih =>
    obtain ⟨next, hnext, h⟩ := Read.foldlM_cons_eq_ok.mp h
    rcases takeKind_eq_ok.mp hnext with ⟨-, hnone, -⟩ | ⟨-, -, rfl⟩
    · cases hnone
    · exact ih h

/-- **The kind that is found is the one the entry says.** In another order that entry comes
first. -/
theorem readKind_of_findKind {kind : Kind} {tag : Json} {entries : List (String × Json)}
    (h : findKind place room none (draftEntries entries) = .ok (some kind))
    (htag : ("type", tag) ∈ entries) : readKind place tag.draft = .ok kind := by
  obtain ⟨before, after, rfl⟩ := List.append_of_mem htag
  rw [findKind_draftEntries] at h
  have hfirst := Read.foldlM_perm takeKind_swap List.perm_middle h
  obtain ⟨next, hnext, hrest⟩ := Read.foldlM_cons_eq_ok.mp hfirst
  rcases takeKind_eq_ok.mp hnext with ⟨-, -, found, hfound, rfl⟩ | ⟨hkey, -, -⟩
  · cases foldlM_takeKind_some hrest
    exact hfound
  · exact absurd rfl hkey

/-! ## Rearranged documents -/

/-- How the value of a field may be changed, given it for an operand and for a list of operands. -/
def fieldRel (one many : Json → Json → Prop) : Field → Json → Json → Prop
  | .alternatives | .elements => many
  | .expression => one
  | .label | .code | .name | .value | .rawText | .ignoreCase | .inverted | .parts => Eq

/-- An entry that is no field of an expression of the given kind, with a document that fits. It is
read before the kind is known, so its numbers need values and its containers need room. -/
structure IsExtra (kind : Kind) (room : Nat) (key : String) (value : Json) : Prop where
  ne_type : key ≠ "type"
  not_field : Shape.field? (S := shape) kind.fields key = none
  fits : Fits room value

/-- An expression in two documents, with room for `room` containers inside it. As an object it may
have its entries in another order and entries that are no field of its kind; as an array it has its
fields in their places. -/
inductive RearrangedNode (room : Nat) (rel : Field → Json → Json → Prop) : Json → Json → Prop
  | same (v : Json) : RearrangedNode room rel v v
  | object (kind : Kind) (tag : Json) {entries entries' : List (String × Json)}
      (htag : ("type", tag) ∈ entries) (hkind : readKind .inner tag.draft = .ok kind)
      (h : RearrangedEntries (Shape.keyed (S := shape) kind.fields rel) (IsExtra kind room)
        entries entries') :
      RearrangedNode room rel (object entries) (object entries')
  | array (kind : Kind) {tag : Json} {items items' : List Json}
      (hkind : readKind .inner tag.draft = .ok kind)
      (h : Shape.RearrangedItems (S := shape) rel kind.fields items items') :
      RearrangedNode room rel (array (tag :: items)) (array (tag :: items'))

mutual

/-- Two documents of one expression, where `room` containers may be nested, itself included. -/
def Rearranged : Nat → Json → Json → Prop
  | 0 => Eq
  | room + 1 => RearrangedNode room (fieldRel (Rearranged room) (RearrangedAll room))

/-- Two arrays of the same expressions, where `room` containers may be nested, itself included. -/
def RearrangedAll : Nat → Json → Json → Prop
  | 0 => Eq
  | room + 1 => RearrangedList (Rearranged room)

end

/-! ### Room -/

variable {rel : Field → Json → Json → Prop}

/-- An object or an array fits after a change inside it if it did before. -/
theorem keepsFit_node (h : ∀ f, KeepsFit room (rel f)) :
    KeepsFit (room + 1) (RearrangedNode room rel) := by
  intro v v' hrel hfits
  cases hrel with
  | same => exact hfits
  | object _ _ _ _ hentries =>
    rw [fits_object] at hfits ⊢
    exact hentries.fits (fun _ _ hextra => hextra.fits) (Shape.keepsFit_keyed h) hfits
  | array _ _ hitems =>
    rw [fits_array] at hfits ⊢
    obtain ⟨htag, hrest⟩ := List.forall_mem_cons.mp hfits
    exact List.forall_mem_cons.mpr ⟨htag, hitems.fits h hrest⟩

theorem keepsFit_field {one many : Json → Json → Prop} (hone : KeepsFit room one)
    (hmany : KeepsFit room many) (f : Field) : KeepsFit room (fieldRel one many f) := by
  cases f with
  | alternatives | elements => exact hmany
  | expression => exact hone
  | label | code | name | value | rawText | ignoreCase | inverted | parts => exact keepsFit_eq room

/-- **Rearranging an expression keeps it in the room it has.** -/
theorem keepsFit (room : Nat) :
    KeepsFit room (Rearranged room) ∧ KeepsFit room (RearrangedAll room) := by
  induction room with
  | zero => exact ⟨keepsFit_eq 0, keepsFit_eq 0⟩
  | succ room ih => exact ⟨keepsFit_node (keepsFit_field ih.1 ih.2), ih.1.list⟩

/-! ## Reading -/

/-- The kind is found in rearranged entries, if the fields fit as they did. -/
theorem findKind_rearranged {kind : Kind} (hfit : ∀ f, KeepsFit room (rel f))
    {entries entries' : List (String × Json)}
    (h : RearrangedEntries (Shape.keyed (S := shape) kind.fields rel) (IsExtra kind room)
      entries entries') {found : Option Kind}
    (hfind : findKind place room none (draftEntries entries) = .ok found) :
    findKind place room none (draftEntries entries') = .ok found := by
  rw [findKind_draftEntries] at hfind ⊢
  refine h.foldlM takeKind_swap ?_ ?_ hfind
  · intro found key value hextra
    exact takeKind_eq_ok.mpr (.inr ⟨hextra.ne_type, hextra.fits, rfl⟩)
  · intro found found' key value value' halike hstep
    rcases takeKind_eq_ok.mp hstep with ⟨hkey, hnone, hread⟩ | ⟨hkey, hfits, rfl⟩
    · -- the kind itself is no field, and stays
      obtain rfl : key = "type" := hkey
      unfold Shape.keyed at halike
      rw [field?_type kind] at halike
      obtain rfl : value = value' := halike
      exact hstep
    · have hfits' : Fits room value' := Shape.keepsFit_keyed hfit key value value' halike hfits
      exact takeKind_eq_ok.mpr (.inr ⟨hkey, hfits', rfl⟩)

variable {field : (f : Field) → Draft → Read f.Value}

/-- An object is read if its kind is found, then the fields of that kind, and if these are all
there. -/
theorem readObject_eq_ok {entries : List (Option String × Draft)} {e : Expression} :
    readObject place room field entries none = .ok e ↔
      ∃ kind p, findKind place room none entries = .ok (some kind) ∧
        Shape.readEntries (S := shape) kind.fields field (Shape.Partial.empty shape) entries
          = .ok p ∧
        ofFields kind p = .ok e := by
  unfold readObject
  constructor
  · intro h
    obtain ⟨found, hfound, h⟩ := Read.bind_eq_ok.mp h
    obtain ⟨_, -, h⟩ := Read.bind_eq_ok.mp h
    cases found with
    | none => cases h
    | some kind =>
      obtain ⟨p, hp, h⟩ := Read.bind_eq_ok.mp h
      exact ⟨kind, p, hfound, hp, h⟩
  · rintro ⟨kind, p, hfound, hp, h⟩
    refine Read.bind_eq_ok.mpr ⟨some kind, hfound, ?_⟩
    refine Read.bind_eq_ok.mpr ⟨(), rfl, ?_⟩
    exact Read.bind_eq_ok.mpr ⟨p, hp, h⟩

/-- An array is read if its first item is a kind, the others can be read as documents and as the
fields in turn, and there are as many. -/
theorem readArray_cons_eq_ok {tag : Draft} {items : List Draft} {e : Expression} :
    readArray place room field (tag :: items) none = .ok e ↔
      ∃ kind p, readKind place tag = .ok kind ∧ (∃ js, Json.ofItems room items = .ok js) ∧
        Shape.readItems (S := shape) field (Shape.Partial.empty shape) kind.fields items
          = .ok (p, [], []) ∧
        ofFields kind p = .ok e := by
  unfold readArray
  constructor
  · intro h
    obtain ⟨kind, hkind, h⟩ := Read.bind_eq_ok.mp h
    obtain ⟨js, hjs, h⟩ := Read.bind_eq_ok.mp h
    obtain ⟨_, -, h⟩ := Read.bind_eq_ok.mp h
    obtain ⟨⟨p, left, rest⟩, hp, h⟩ := Read.bind_eq_ok.mp h
    dsimp only at h
    cases left with
    | cons _ _ => cases h
    | nil =>
      cases rest with
      | cons _ _ => cases h
      | nil => exact ⟨kind, p, hkind, ⟨js, hjs⟩, hp, h⟩
  · rintro ⟨kind, p, hkind, ⟨js, hjs⟩, hp, h⟩
    refine Read.bind_eq_ok.mpr ⟨kind, hkind, ?_⟩
    refine Read.bind_eq_ok.mpr ⟨js, hjs, ?_⟩
    refine Read.bind_eq_ok.mpr ⟨(), rfl, ?_⟩
    exact Read.bind_eq_ok.mpr ⟨(p, [], []), hp, h⟩

/-- The reader of an expression sees no difference if the readers of its fields see none. -/
theorem respects_readNode
    (hread : ∀ f, Respects (fieldReader room f) (rel f)) (hfit : ∀ f, KeepsFit room (rel f)) :
    Respects (readDraft place (room + 1)) (RearrangedNode room rel) := by
  intro v v' e hrel h
  cases hrel with
  | same => exact h
  | object kind tag htag hkind hentries =>
    obtain ⟨found, p, hfound, hp, hbuild⟩ := readObject_eq_ok.mp h
    -- the fields are those of the kind that the entry says
    have htagged := readKind_inner (readKind_of_findKind hfound htag)
    rw [hkind] at htagged
    cases htagged
    have hfound' := findKind_rearranged hfit hentries hfound
    have hp' := Shape.readEntries_rearranged hread (fun _ _ hextra => hextra.not_field) hentries hp
    exact readObject_eq_ok.mpr ⟨_, p, hfound', hp', hbuild⟩
  | array kind hkind hitems =>
    obtain ⟨found, p, hfound, ⟨js, hjs⟩, hp, hbuild⟩ := readArray_cons_eq_ok.mp h
    have htagged := readKind_inner hfound
    rw [hkind] at htagged
    cases htagged
    have hfits' := hitems.fits hfit (ofItems_eq_ok_iff.mp hjs).2
    have hp' := Shape.readItems_rearranged hread hitems hp
    exact readArray_cons_eq_ok.mpr
      ⟨_, p, hfound, ⟨_, ofItems_eq_ok_iff.mpr ⟨rfl, hfits'⟩⟩, hp', hbuild⟩

theorem respects_fieldReader {one many : Json → Json → Prop}
    (hone : Respects (readDraft .inner room) one) (hmany : Respects (readDrafts room) many)
    (f : Field) : Respects (fieldReader room f) (fieldRel one many f) := by
  cases f with
  | alternatives | elements => exact hmany
  | expression => exact hone
  | label | code | name | value | rawText | ignoreCase | inverted | parts => exact respects_eq _

/-- **An expression is read alike from rearranged documents.** The induction is on the room, which
bounds the reader and the relation alike; a list of operands takes part of it. -/
theorem respects_readDraft (room : Nat) :
    (∀ place, Respects (readDraft place room) (Rearranged room)) ∧
      Respects (readDrafts room) (RearrangedAll room) := by
  induction room with
  | zero => exact ⟨fun place => respects_eq _, respects_eq _⟩
  | succ room ih =>
    have hfields := respects_fieldReader (ih.1 .inner) ih.2
    have hfit := keepsFit_field (keepsFit room).1 (keepsFit room).2
    refine ⟨fun place => respects_readNode hfields hfit, ?_⟩
    have hlist := respects_readList (ih.1 .inner) (room + 1)
    intro v v' es hrel h
    rw [readDrafts_eq_readList] at h ⊢
    exact hlist v v' es hrel h

end Expression

end Peg
