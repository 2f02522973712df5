import Peg.Json.Document
import Peg.Json.Record
import Peg.Proofs.Json.Scanning

/-!
# Reading the draft of a document

The draft of a whole document has nothing broken in it, so only two things can stop a reader: a
number without a value, and too many containers inside each other. **`nested`** is the outcome when
it is only the second that counts: the value, if the document's depth fits the room that is left,
and a malformed text otherwise.

Readers take a text apart from the outside in and lists from left to right. The outcome does not
show it: whatever part is too deep, the fault is the same. That is **`nested_bind`**, by which the
depth of a container is computed from its parts.

* **`pass_draft`**: a whole document can be passed over.
* **`ofDraft_draft`**: read as a document of any kind, a document in which every number has a value
  gives itself.
* **`mapM_draftItems`**, **`readList_draft`**: a list reads back when its items do.
* **`eq_of_render_eq`**: two values that read back are equal if their texts are.
-/

namespace Peg.Json

/-- The outcome of reading a value whose document nests `depth` containers, with room for `room`. -/
def Read.nested {α : Type} (depth room : Nat) (value : α) : Read α :=
  if depth ≤ room then .ok value else Read.fault .malformed

theorem Read.nested_of_le {α : Type} {depth room : Nat} (h : depth ≤ room) (value : α) :
    Read.nested depth room value = .ok value :=
  if_pos h

theorem Read.nested_of_lt {α : Type} {depth room : Nat} (h : room < depth) (value : α) :
    Read.nested depth room value = Read.fault .malformed :=
  if_neg (Nat.not_le_of_lt h)

/-- Only whether the value fits counts. -/
theorem Read.nested_congr {α : Type} {depth depth' room room' : Nat}
    (h : depth ≤ room ↔ depth' ≤ room') (value : α) :
    Read.nested depth room value = Read.nested depth' room' value := by
  unfold Read.nested
  simp only [h]

/-- **Two parts, one after the other, nest as deep as the deeper one.** -/
theorem Read.nested_bind {α β : Type} {depth depth' room : Nat} {a : α} {b : β} {f : α → Read β}
    (h : f a = Read.nested depth' room b) :
    (Read.nested depth room a >>= f) = Read.nested (max depth depth') room b := by
  by_cases hfit : depth ≤ room
  · -- The first part is there, and what remains decides.
    have hmax : depth' ≤ room ↔ max depth depth' ≤ room := by omega
    rw [Read.nested_of_le hfit, ← Read.nested_congr hmax]
    exact h
  · have hlt : room < depth := by omega
    have hmax : room < max depth depth' := by omega
    rw [Read.nested_of_lt hlt, Read.nested_of_lt hmax]
    rfl

/-- What cannot fail any more leaves the condition on room as it is. -/
theorem Read.nested_then {α β : Type} {depth room : Nat} {a : α} {b : β} {f : α → Read β}
    (h : f a = .ok b) : (Read.nested depth room a >>= f) = Read.nested depth room b := by
  have hflat : f a = Read.nested 0 room b := by rw [h, Read.nested_of_le (Nat.zero_le room)]
  rw [Read.nested_bind hflat, Nat.max_zero]

/-- A container takes one place more than its parts. -/
@[simp] theorem Read.nested_succ {α : Type} (depth room : Nat) (value : α) :
    Read.nested (1 + depth) (room + 1) value = Read.nested depth room value :=
  Read.nested_congr (by omega) value

@[simp] theorem Read.nested_zero {α : Type} (depth : Nat) (value : α) :
    Read.nested (1 + depth) 0 value = Read.fault .malformed :=
  Read.nested_of_lt (by omega) value

/-! ## Passing over -/

/-- Items can be passed over if each of them can. -/
theorem passItems_draftItems (items : List Json)
    (h : ∀ item ∈ items, item.draft.pass = .ok ()) :
    Draft.passItems (draftItems items) = .ok () := by
  induction items with
  | nil => rfl
  | cons item items ih =>
    rw [draftItems, Draft.passItems, h item (List.mem_cons_self ..)]
    exact ih fun j hj => h j (List.mem_cons_of_mem _ hj)

theorem passEntries_draftEntries (entries : List (String × Json))
    (h : ∀ entry ∈ entries, entry.2.draft.pass = .ok ()) :
    Draft.passEntries (draftEntries entries) = .ok () := by
  induction entries with
  | nil => rfl
  | cons entry entries ih =>
    obtain ⟨key, value⟩ := entry
    have hvalue : value.draft.pass = .ok () := h (key, value) (List.mem_cons_self ..)
    rw [draftEntries, Draft.passEntries, hvalue]
    exact ih fun e he => h e (List.mem_cons_of_mem _ he)

/-- **A whole document can be passed over.** -/
theorem pass_draft (j : Json) : j.draft.pass = .ok () := by
  induction j using memberInduction with
  | null => rfl
  | bool b => rfl
  | number n => rfl
  | string s => rfl
  | array items ih =>
    rw [draft, Draft.pass, passItems_draftItems items ih]
    rfl
  | object entries ih =>
    rw [draft, Draft.pass, passEntries_draftEntries entries ih]
    rfl

/-! ## Reading documents of any kind -/

mutual

/-- Every number in the document has a value. -/
def inRange : Json → Bool
  | .number n => n.inRange
  | .array items => inRangeItems items
  | .object entries => inRangeEntries entries
  | _ => true

/-- Every number in the items has a value. -/
def inRangeItems : List Json → Bool
  | [] => true
  | item :: items => item.inRange && inRangeItems items

/-- Every number in the values of the entries has a value. -/
def inRangeEntries : List (String × Json) → Bool
  | [] => true
  | (_, value) :: entries => value.inRange && inRangeEntries entries

end

/-- Numbers in a row of items have values if they have in each item. -/
@[simp] theorem inRangeItems_iff {items : List Json} :
    inRangeItems items = true ↔ ∀ item ∈ items, item.inRange = true := by
  induction items with
  | nil => simp [inRangeItems]
  | cons item items ih => simp [inRangeItems, ih]

/-- Numbers in a row of entries have values if they have in the value of each entry. -/
@[simp] theorem inRangeEntries_iff {entries : List (String × Json)} :
    inRangeEntries entries = true ↔ ∀ entry ∈ entries, entry.2.inRange = true := by
  induction entries with
  | nil => simp [inRangeEntries]
  | cons entry entries ih => simp [inRangeEntries, ih]

/-- Items are read as documents in the room that the deepest of them takes. -/
theorem ofItems_draftItems (items : List Json) (room : Nat)
    (h : ∀ item ∈ items, item.inRange = true →
      ofDraft room item.draft = Read.nested item.depth room item)
    (hrange : inRangeItems items = true) :
    ofItems room (draftItems items) = Read.nested (depthItems items) room items := by
  induction items with
  | nil => cases room <;> rfl
  | cons item items ih =>
    obtain ⟨hitem, hitems⟩ := Bool.and_eq_true_iff.mp hrange
    rw [draftItems, ofItems, h item (List.mem_cons_self ..) hitem,
      ih (fun j hj => h j (List.mem_cons_of_mem _ hj)) hitems]
    exact Read.nested_bind (Read.nested_then rfl)

/-- Entries are read as documents in the room that the deepest value takes. -/
theorem ofEntries_draftEntries (entries : List (String × Json)) (room : Nat)
    (h : ∀ entry ∈ entries, entry.2.inRange = true →
      ofDraft room entry.2.draft = Read.nested entry.2.depth room entry.2)
    (hrange : inRangeEntries entries = true) :
    ofEntries room (draftEntries entries) = Read.nested (depthEntries entries) room entries := by
  induction entries with
  | nil => cases room <;> rfl
  | cons entry entries ih =>
    obtain ⟨key, value⟩ := entry
    obtain ⟨hvalue, hentries⟩ := Bool.and_eq_true_iff.mp hrange
    have hread : ofDraft room value.draft = Read.nested value.depth room value :=
      h (key, value) (List.mem_cons_self ..) hvalue
    rw [draftEntries, ofEntries, hread, ih (fun e he => h e (List.mem_cons_of_mem _ he)) hentries]
    exact Read.nested_bind (Read.nested_then rfl)

/-- **A document reads back as itself**, if it does not nest too deep. -/
theorem ofDraft_draft (j : Json) (room : Nat) (hrange : j.inRange = true) :
    ofDraft room j.draft = Read.nested j.depth room j := by
  induction j using memberInduction generalizing room with
  | null => cases room <;> rfl
  | bool b => cases room <;> rfl
  | number n =>
    have hn : n.inRange = true := hrange
    cases room <;> simp [draft, ofDraft, hn, Read.nested, depth]
  | string s => cases room <;> rfl
  | array items ih =>
    cases room with
    | zero => simp [draft, ofDraft, depth]
    | succ room =>
      rw [draft, ofDraft, ofItems_draftItems items room (fun j hj => ih j hj room) hrange, depth,
        Read.nested_succ]
      exact Read.nested_then rfl
  | object entries ih =>
    cases room with
    | zero => simp [draft, ofDraft, depth]
    | succ room =>
      rw [draft, ofDraft, ofEntries_draftEntries entries room (fun e he => ih e he room) hrange,
        depth, Read.nested_succ]
      exact Read.nested_then rfl

/-! ## Reading scalars, options and lists -/

variable {α : Type} {toJson : α → Json} {read : Draft → Read α}

/-- A string takes no room. -/
theorem readString_draft (s : String) (room : Nat) :
    Draft.readString (string s).draft = Read.nested (string s).depth room s :=
  (Read.nested_of_le (Nat.zero_le room) s).symm

theorem readBool_draft (b : Bool) (room : Nat) :
    Draft.readBool (bool b).draft = Read.nested (bool b).depth room b :=
  (Read.nested_of_le (Nat.zero_le room) b).symm

theorem ofOption_eq_elim (o : Option String) : ofOption o = o.elim Json.null string := by
  cases o with
  | none => rfl
  | some s => rfl

/-- An optional value reads back when the value does, as long as it is not written as nothing. -/
theorem readOption_draft {room : Nat}
    (o : Option α) (hnull : ∀ a, (toJson a).draft ≠ .null)
    (h : ∀ a, read (toJson a).draft = Read.nested (toJson a).depth room a) :
    Draft.readOption read (o.elim Json.null toJson).draft
      = Read.nested (o.elim Json.null toJson).depth room o := by
  cases o with
  | none => exact (Read.nested_of_le (Nat.zero_le room) none).symm
  | some a =>
    have hsome : Draft.readOption read (toJson a).draft = some <$> read (toJson a).draft := by
      unfold Draft.readOption
      split
      · next hd => exact absurd hd (hnull a)
      · rfl
    rw [Option.elim, hsome, h a]
    exact Read.nested_then rfl

/-- Read one by one, items take the room of the deepest of them. -/
theorem mapM_draftItems {room : Nat} {as : List α}
    (h : ∀ a ∈ as, read (toJson a).draft = Read.nested (toJson a).depth room a) :
    (draftItems (as.map toJson)).mapM read
      = Read.nested (depthItems (as.map toJson)) room as := by
  induction as with
  | nil => rfl
  | cons a as ih =>
    rw [List.map_cons, draftItems, List.mapM_cons, h a (List.mem_cons_self ..),
      ih fun b hb => h b (List.mem_cons_of_mem _ hb)]
    exact Read.nested_bind (Read.nested_then rfl)

/-- **A list reads back when its items do**, with one place less for each of them. -/
theorem readList_draft {room : Nat} {as : List α}
    (h : ∀ a ∈ as, read (toJson a).draft = Read.nested (toJson a).depth (room - 1) a) :
    Draft.readList read room (Json.array (as.map toJson)).draft
      = Read.nested (Json.array (as.map toJson)).depth room as := by
  cases room with
  | zero => simp [draft, Draft.readList, depth]
  | succ room =>
    rw [draft, Draft.readList, mapM_draftItems h, depth, Read.nested_succ]
    exact Read.nested_then rfl

/-! ## Telling values apart -/

variable {reader : Nat → Draft → Read α} {a b : α}

/-- What reads back can be told by its draft. The room a whole text gets does not count here: as
much as the deeper of two documents takes is enough for both. -/
theorem eq_of_draft_eq
    (hreader : ∀ a room, reader room (toJson a).draft = Read.nested (toJson a).depth room a)
    (h : (toJson a).draft = (toJson b).draft) : a = b := by
  let room := max (toJson a).depth (toJson b).depth
  have ha : reader room (toJson a).draft = .ok a := by
    rw [hreader, Read.nested_of_le (Nat.le_max_left ..)]
  have hb : reader room (toJson b).draft = .ok b := by
    rw [hreader, Read.nested_of_le (Nat.le_max_right ..)]
  rw [h, hb] at ha
  exact (Except.ok.inj ha).symm

/-- **What reads back can be told by its text**, in whatever layout. -/
theorem eq_of_render_eq {layout layout' : Layout}
    (hreader : ∀ a room, reader room (toJson a).draft = Read.nested (toJson a).depth room a)
    (h : (toJson a).render layout = (toJson b).render layout') : a = b := by
  have hscan := scan_render layout (toJson a)
  rw [h, scan_render] at hscan
  exact eq_of_draft_eq hreader (Prod.mk.inj hscan).1.symm

end Peg.Json
