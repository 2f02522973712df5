import Mathlib.Data.List.Basic
import Peg.Proofs.Json.Rearrangement

/-!
# What a document holds

The values of a document stand in its text one after the other, a container before what is in it,
and those in an object each under a key. **`spots`** lists them so. Anything that is looked for by
key (`valuesUnder`) or by kind (`tagged`), wherever in the document, is looked for there.

Which document this is, its text leaves no doubt: **`holds_render_iff`**.
-/

namespace Peg.Json

/-! ## One document to a text -/

/-- Items are told by their drafts if each of them is. -/
theorem draftItems_injective {items items' : List Json}
    (h : ∀ item ∈ items, ∀ w : Json, item.draft = w.draft → item = w)
    (hdraft : draftItems items = draftItems items') : items = items' := by
  induction items generalizing items' with
  | nil =>
    cases items' with
    | nil => rfl
    | cons item' items' => cases hdraft
  | cons item items ih =>
    cases items' with
    | nil => cases hdraft
    | cons item' items' =>
      obtain ⟨hitem, hitems⟩ := List.cons.inj hdraft
      rw [h item (List.mem_cons_self ..) item' hitem,
        ih (fun j hj => h j (List.mem_cons_of_mem _ hj)) hitems]

/-- So are entries, whose keys stay in the draft. -/
theorem draftEntries_injective {entries entries' : List (String × Json)}
    (h : ∀ entry ∈ entries, ∀ w : Json, entry.2.draft = w.draft → entry.2 = w)
    (hdraft : draftEntries entries = draftEntries entries') : entries = entries' := by
  induction entries generalizing entries' with
  | nil =>
    cases entries' with
    | nil => rfl
    | cons entry' entries' => cases hdraft
  | cons entry entries ih =>
    obtain ⟨key, value⟩ := entry
    cases entries' with
    | nil => cases hdraft
    | cons entry' entries' =>
      obtain ⟨key', value'⟩ := entry'
      obtain ⟨hentry, hentries⟩ := List.cons.inj hdraft
      obtain ⟨hkey, hvalue⟩ := Prod.mk.inj hentry
      have hvalue : value = value' := h (key, value) (List.mem_cons_self ..) value' hvalue
      rw [Option.some.inj hkey, hvalue, ih (fun e he => h e (List.mem_cons_of_mem _ he)) hentries]

/-- **Different documents have different drafts.** -/
theorem draft_injective {v w : Json} (h : v.draft = w.draft) : v = w := by
  induction v using memberInduction generalizing w with
  | null =>
    cases w with
    | null => rfl
    | _ => cases h
  | bool b =>
    cases w with
    | bool b' => rw [Draft.bool.inj h]
    | _ => cases h
  | number n =>
    cases w with
    | number n' => rw [Draft.number.inj h]
    | _ => cases h
  | string s =>
    cases w with
    | string s' => rw [Option.some.inj (Draft.string.inj h)]
    | _ => cases h
  | array items ih =>
    cases w with
    | array items' =>
      rw [draftItems_injective (fun item hitem w => ih item hitem) (Draft.array.inj h).1]
    | _ => cases h
  | object entries ih =>
    cases w with
    | object entries' =>
      rw [draftEntries_injective (fun entry hentry w => ih entry hentry) (Draft.object.inj h).1]
    | _ => cases h

/-- **The text of a document says this document** and no other. -/
theorem holds_render_iff {layout : Layout} {v w : Json} : Holds (v.render layout) w ↔ w = v := by
  constructor
  · rintro ⟨rest, hscan, -⟩
    rw [scan_render] at hscan
    exact draft_injective (Prod.mk.inj hscan).1.symm
  · rintro rfl
    exact holds_render w layout

/-! ## Values in the order of the text -/

mutual

/-- The document itself and every value in it, in the order of the text, each with the key it stands
under; the document stands under `key?`. -/
def spots (key? : Option String) : Json → List (Option String × Json)
  | .array items => (key?, .array items) :: spotsOfItems items
  | .object entries => (key?, .object entries) :: spotsOfEntries entries
  | v => [(key?, v)]

/-- The items and every value in them. An item has no key. -/
def spotsOfItems : List Json → List (Option String × Json)
  | [] => []
  | item :: items => item.spots none ++ spotsOfItems items

/-- The values of some entries and every value in them. -/
def spotsOfEntries : List (String × Json) → List (Option String × Json)
  | [] => []
  | (key, value) :: entries => value.spots (some key) ++ spotsOfEntries entries

end

/-- The spots in some items are gone through item by item, and none of them is under a key. -/
theorem spotsOfItems_eq_flatMap (items : List Json) :
    spotsOfItems items = items.flatMap (spots none) := by
  induction items with
  | nil => rfl
  | cons item items ih => rw [spotsOfItems, ih, List.flatMap_cons]

/-! ## Asking a document -/

variable {β : Type}

/-- All answers to a question that is asked of every value of a document. -/
def answers (ask : Option String × Json → Option β) (key? : Option String) (v : Json) : List β :=
  (v.spots key?).filterMap ask

/-- All answers to a question that is asked of every value in some entries. -/
def answersOfEntries (ask : Option String × Json → Option β) (entries : List (String × Json)) :
    List β :=
  (spotsOfEntries entries).filterMap ask

/-- The value, if it stands under `key`. -/
def under? (key : String) (spot : Option String × Json) : Option Json :=
  if spot.1 = some key then some spot.2 else none

/-- All values under `key` in a document, in the order of the text. -/
def valuesUnder (key : String) (document : Json) : List Json :=
  document.answers (under? key) none

/-- The string under `key`, if the document is an object that has one. -/
def text? (key : String) (document : Json) : Option String :=
  match document.value? key with
  | some (.string s) => some s
  | _ => none

/-- The value, if it is an object whose `type` is `tag`. -/
def tagged? (tag : String) (spot : Option String × Json) : Option Json :=
  if spot.2.text? "type" = some tag then some spot.2 else none

/-- All objects in a document whose `type` is `tag`, in the order of the text. -/
def tagged (tag : String) (document : Json) : List Json :=
  document.answers (tagged? tag) none

/-- Only objects have an answer, and what stands under `type`. -/
def AsksObjects (ask : Option String × Json → Option β) : Prop :=
  ∀ key? v, key? ≠ some "type" → (∀ entries, v ≠ object entries) → ask (key?, v) = none

variable {ask : Option String × Json → Option β}

theorem asksObjects_under : AsksObjects (under? "type") :=
  fun _ _ hkey _ => if_neg hkey

@[simp] theorem text?_string (key s : String) : (string s).text? key = none :=
  rfl

theorem text?_of_ne_object {v : Json} (h : ∀ entries, v ≠ object entries) (key : String) :
    v.text? key = none := by
  cases v with
  | object entries => exact absurd rfl (h entries)
  | _ => rfl

/-- What is asked for a tag says nothing of values that are no objects. -/
theorem asksObjects_tagged (tag : String) : AsksObjects (tagged? tag) := by
  intro key? v _ hobject
  rw [tagged?, text?_of_ne_object hobject]
  exact if_neg (Option.some_ne_none tag).symm

@[simp] theorem answersOfEntries_nil : answersOfEntries ask [] = [] :=
  rfl

/-- Entries answer in their order, each under its key. -/
@[simp] theorem answersOfEntries_cons (key : String) (value : Json)
    (entries : List (String × Json)) :
    answersOfEntries ask ((key, value) :: entries)
      = answers ask (some key) value ++ answersOfEntries ask entries := by
  unfold answersOfEntries answers
  rw [spotsOfEntries, List.filterMap_append]

/-- **An object answers for itself, then its entries do.** -/
theorem answers_object (key? : Option String) (entries : List (String × Json)) :
    answers ask key? (object entries)
      = (ask (key?, object entries)).toList ++ answersOfEntries ask entries := by
  unfold answers answersOfEntries
  rw [spots, List.filterMap_eq_flatMap_toList, List.flatMap_cons,
    ← List.filterMap_eq_flatMap_toList]

@[simp] theorem answers_string (key? : Option String) (s : String) :
    answers ask key? (string s) = (ask (key?, string s)).toList := by
  unfold answers
  rw [spots, List.filterMap_eq_flatMap_toList, List.flatMap_singleton]
  all_goals nofun

/-- Items answer one after the other. -/
theorem answers_array (hask : AsksObjects ask) {key? : Option String} (hkey : key? ≠ some "type")
    (items : List Json) : answers ask key? (array items) = items.flatMap (answers ask none) := by
  have hself : ask (key?, array items) = none := hask key? (array items) hkey nofun
  unfold answers
  rw [spots, List.filterMap_cons_none hself, spotsOfItems_eq_flatMap, List.filterMap_flatMap]

/-- Nothing is heard of a value that is no container. -/
theorem answers_scalar (hask : AsksObjects ask) {key? : Option String} (hkey : key? ≠ some "type")
    {v : Json} (hscalar : v.depth = 0) : answers ask key? v = [] := by
  have hself : (∀ entries, v ≠ object entries) → [(key?, v)].filterMap ask = [] := fun hobject =>
    List.filterMap_cons_none (hask key? v hkey hobject)
  cases v with
  | null | bool _ | number _ | string _ => exact hself nofun
  | array items =>
    rw [depth] at hscalar
    omega
  | object entries =>
    rw [depth] at hscalar
    omega

end Peg.Json
