import Mathlib.Tactic.MkIffOfInductiveProp
import Peg.Proofs.Json.Documents
import Peg.Proofs.Json.Origins

/-!
# Documents that fit

A reader that does not know yet what it will need takes in whole documents first. It can do so if
every number in the document has a value and if there is room for its containers: **`Fits`**. A
container fits if what is in it fits one place less (**`fits_array`**, **`fits_object`**), and
**`ofDraft_eq_ok_iff`** says that these are the documents that can be read as such.
-/

namespace Peg.Json

/-- The document can be read where `room` containers may be nested. -/
@[mk_iff]
structure Fits (room : Nat) (v : Json) : Prop where
  inRange : v.inRange = true
  depth_le : v.depth ≤ room

/-! ## Containers -/

/-- In an array there is one place less for each item. -/
theorem fits_array {room : Nat} {items : List Json} :
    Fits (room + 1) (array items) ↔ ∀ item ∈ items, Fits room item := by
  simp [fits_iff, inRange, depth, Nat.add_comm 1, forall_and]

/-- In an object there is one place less for each value. -/
theorem fits_object {room : Nat} {entries : List (String × Json)} :
    Fits (room + 1) (object entries) ↔ ∀ entry ∈ entries, Fits room entry.2 := by
  simp [fits_iff, inRange, depth, Nat.add_comm 1, forall_and]

/-! ## Reading -/

/-- Where items were read as documents, each of them was. -/
theorem exists_ofDraft_of_ofItems {room : Nat} {items js : List Json}
    (h : ofItems room (draftItems items) = .ok js) :
    ∀ item ∈ items, ∃ j, ofDraft room item.draft = .ok j := by
  induction items generalizing js with
  | nil => exact List.forall_mem_nil _
  | cons item items ih =>
    rw [draftItems, ofItems] at h
    obtain ⟨j, hj, h⟩ := Read.bind_eq_ok.mp h
    obtain ⟨rest, hrest, -⟩ := Read.bind_eq_ok.mp h
    exact List.forall_mem_cons.mpr ⟨⟨j, hj⟩, ih hrest⟩

theorem exists_ofDraft_of_ofEntries {room : Nat} {entries js : List (String × Json)}
    (h : ofEntries room (draftEntries entries) = .ok js) :
    ∀ entry ∈ entries, ∃ j, ofDraft room entry.2.draft = .ok j := by
  induction entries generalizing js with
  | nil => exact List.forall_mem_nil _
  | cons entry entries ih =>
    obtain ⟨key, value⟩ := entry
    rw [draftEntries, ofEntries] at h
    obtain ⟨j, hj, h⟩ := Read.bind_eq_ok.mp h
    obtain ⟨rest, hrest, -⟩ := Read.bind_eq_ok.mp h
    exact List.forall_mem_cons.mpr ⟨⟨j, hj⟩, ih hrest⟩

/-- Whatever was read as a document has values for its numbers, and had room for its containers. -/
theorem fits_of_ofDraft {room : Nat} {v j : Json} (h : ofDraft room v.draft = .ok j) :
    Fits room v := by
  induction v using memberInduction generalizing room j with
  | null | bool _ | string _ => exact ⟨rfl, Nat.zero_le room⟩
  | number n =>
    rw [draft, ofDraft] at h
    split at h
    · next hn => exact ⟨hn, Nat.zero_le room⟩
    · cases h
  | array items ih =>
    cases room with
    | zero => cases h
    | succ room =>
      obtain ⟨js, hjs, -⟩ := Read.bind_eq_ok.mp h
      apply fits_array.mpr
      intro item hitem
      obtain ⟨j, hj⟩ := exists_ofDraft_of_ofItems hjs item hitem
      exact ih item hitem hj
  | object entries ih =>
    cases room with
    | zero => cases h
    | succ room =>
      obtain ⟨js, hjs, -⟩ := Read.bind_eq_ok.mp h
      apply fits_object.mpr
      intro entry hentry
      obtain ⟨j, hj⟩ := exists_ofDraft_of_ofEntries hjs entry hentry
      exact ih entry hentry hj

/-- **The documents that can be read as documents are those that fit**, and each is read as
itself. -/
theorem ofDraft_eq_ok_iff {room : Nat} {v j : Json} :
    ofDraft room v.draft = .ok j ↔ j = v ∧ Fits room v := by
  have hself : Fits room v → ofDraft room v.draft = .ok v := fun h => by
    rw [ofDraft_draft v room h.inRange, Read.nested_of_le h.depth_le]
  constructor
  · intro h
    have hfits : Fits room v := fits_of_ofDraft h
    rw [hself hfits] at h
    cases h
    exact ⟨rfl, hfits⟩
  · rintro ⟨rfl, hfits⟩
    exact hself hfits

/-- The same for items in a row. -/
theorem ofItems_eq_ok_iff {room : Nat} {items js : List Json} :
    ofItems room (draftItems items) = .ok js ↔ js = items ∧ ∀ item ∈ items, Fits room item := by
  induction items generalizing js with
  | nil => simp [draftItems, ofItems, eq_comm]
  | cons item items ih =>
    rw [draftItems, ofItems, List.forall_mem_cons]
    constructor
    · intro h
      obtain ⟨j, hj, htail⟩ := Read.bind_eq_ok.mp h
      obtain ⟨rest, hrest, hjs⟩ := Read.bind_eq_ok.mp htail
      obtain ⟨hj, hitem⟩ := ofDraft_eq_ok_iff.mp hj
      obtain ⟨hrest, hitems⟩ := ih.mp hrest
      rw [hj, hrest] at hjs
      exact ⟨(Except.ok.inj hjs).symm, hitem, hitems⟩
    · rintro ⟨rfl, hitem, hitems⟩
      rw [ofDraft_eq_ok_iff.mpr ⟨rfl, hitem⟩, ih.mpr ⟨rfl, hitems⟩]
      rfl

end Peg.Json
