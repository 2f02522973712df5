import Mathlib.Data.List.Basic
import Peg.Proofs.Diff.Numbering

/-!
# What is reported of the rules of one name

The comparison of rules goes over the old rules and then over the new ones, and mixes the names as
the grammars do. What it says of one name depends only on the rules of that name. **`paired`** is
that part: go along both lists at once, report the pairs that differ, then what is left of the
longer list. **`kindsAt_between`** says that these are the changes reported under the path of a
name, in the order they are reported.

That the path of a rule gives away its name, whatever characters the name has, and that no other
part of a grammar has such a path, is `ruleName?_eq_some`.
-/

namespace Peg

namespace Change

/-! ## Paths of rules -/

/-- The path of a rule says its name, and no other path does. -/
theorem ruleName?_eq_some {path name : String} :
    ruleName? path = some name ↔ path = rulePath name := by
  unfold ruleName? rulePath
  rw [Option.map_eq_some_iff]
  constructor
  · rintro ⟨rest, hrest, rfl⟩
    have happend : ruleRoot.toList ++ rest = path.toList :=
      List.isPrefixOf?_eq_some_iff_append_eq.mp hrest
    rw [← String.toList_inj, String.toList_append, String.toList_ofList, happend]
  · rintro rfl
    refine ⟨name.toList, ?_, String.ofList_toList⟩
    rw [List.isPrefixOf?_eq_some_iff_append_eq, String.toList_append]

/-- Two rules have one path just if they have one name. -/
@[simp] theorem rulePath_inj {name name' : String} :
    rulePath name = rulePath name' ↔ name = name' := by
  constructor
  · intro h
    have hname : ruleName? (rulePath name) = some name' := ruleName?_eq_some.mpr h
    rw [ruleName?_eq_some.mpr rfl] at hname
    exact Option.some.inj hname
  · rintro rfl
    rfl

@[simp] theorem ruleName?_initializer : ruleName? "initializer" = none := by
  decide

@[simp] theorem ruleName?_startRule : ruleName? "start_rule" = none := by
  decide

end Change

namespace Diff

open Change

/-! ## Pairs of one name -/

/-- The changes between the old and the new rules of one name, paired by position. -/
def paired : List Rule → List Rule → List Change.Kind
  | [], new => List.replicate new.length .added
  | old, [] => List.replicate old.length .removed
  | a :: old, b :: new => if b = a then paired old new else .modified :: paired old new

/-- The change of a rule that is compared with the `i`-th of some rules. -/
def against (new : List Rule) (r : Rule) (i : Nat) : Option Change.Kind :=
  match new[i]? with
  | none => some .removed
  | some partner => if partner = r then none else some .modified

/-- What happens to a rule depends only on the rules of its name. -/
theorem changeOf_eq (new : List Rule) (r : Rule) (i : Nat) :
    changeOf new r i = against (named new r.name) r i := by
  unfold changeOf against
  rfl

/-- To number from one is to number from nothing and count one more. -/
theorem filterMap_zipIdx_succ {α β : Type} (l : List α) (f : α × Nat → Option β) :
    (l.zipIdx 1).filterMap f = l.zipIdx.filterMap fun x => f (x.1, x.2 + 1) := by
  rw [List.zipIdx_succ, List.filterMap_map]
  rfl

/-- What is put for every place alike is repeated as often as there are places. -/
theorem filterMap_zipIdx_const {α β : Type} (l : List α) (b : β) :
    (l.zipIdx.filterMap fun _ => some b) = List.replicate l.length b := by
  show l.zipIdx.filterMap (some ∘ fun _ => b) = _
  rw [List.filterMap_eq_map, List.map_const', List.length_zipIdx]

/-- The changes of the old rules, each against the new rule of its number. -/
def ofOld (old new : List Rule) : List Change.Kind :=
  old.zipIdx.filterMap fun x => against new x.1 x.2

/-- The new rules whose number no old rule has. -/
def ofNew (old new : List Rule) : List Change.Kind :=
  new.zipIdx.filterMap fun x => if old[x.2]?.isNone then some .added else none

/-- The first rules face each other, and the rest is paired as before. -/
theorem ofOld_cons_cons (a b : Rule) (old new : List Rule) :
    ofOld (a :: old) (b :: new) = if b = a then ofOld old new else .modified :: ofOld old new := by
  unfold ofOld
  rw [List.zipIdx_cons, List.filterMap_cons, filterMap_zipIdx_succ]
  have hfirst : against (b :: new) a 0 = if b = a then none else some .modified := rfl
  rw [hfirst]
  by_cases h : b = a
  · rw [if_pos h, if_pos h]
    rfl
  · rw [if_neg h, if_neg h]
    rfl

/-- A new rule that faces an old one is not reported a second time. -/
theorem ofNew_cons_cons (a b : Rule) (old new : List Rule) :
    ofNew (a :: old) (b :: new) = ofNew old new := by
  unfold ofNew
  rw [List.zipIdx_cons, List.filterMap_cons, filterMap_zipIdx_succ]
  rfl

/-- **First one list, then the other, comes to the same as both at once.** -/
theorem ofOld_append_ofNew (old new : List Rule) :
    ofOld old new ++ ofNew old new = paired old new := by
  induction old generalizing new with
  | nil => exact filterMap_zipIdx_const new Change.Kind.added
  | cons a old ih =>
    cases new with
    | nil =>
      have hold : ofOld (a :: old) [] = List.replicate (a :: old).length .removed :=
        filterMap_zipIdx_const (a :: old) Change.Kind.removed
      rw [hold]
      exact List.append_nil _
    | cons b new =>
      rw [ofOld_cons_cons, ofNew_cons_cons, paired]
      by_cases h : b = a
      · rw [if_pos h, if_pos h, ih]
      · rw [if_neg h, if_neg h, List.cons_append, ih]

/-! ## The changes under one path -/

/-- The kinds of the changes reported for the rules called `name`, in order. -/
def kindsAt (name : String) (changes : List Change) : List Change.Kind :=
  changes.filterMap fun c => if c.path = rulePath name then some c.kind else none

@[simp] theorem mem_kindsAt {name : String} {changes : List Change} {kind : Change.Kind} :
    kind ∈ kindsAt name changes ↔ ⟨rulePath name, kind⟩ ∈ changes := by
  unfold kindsAt
  rw [List.mem_filterMap]
  constructor
  · rintro ⟨⟨path, kind'⟩, hmem, hkind⟩
    by_cases hpath : path = rulePath name
    · rw [if_pos hpath] at hkind
      rw [← hpath, ← Option.some.inj hkind]
      exact hmem
    · rw [if_neg hpath] at hkind
      exact absurd hkind (by nofun)
  · intro hmem
    exact ⟨⟨rulePath name, kind⟩, hmem, if_pos rfl⟩

@[simp] theorem kindsAt_append (name : String) (a b : List Change) :
    kindsAt name (a ++ b) = kindsAt name a ++ kindsAt name b :=
  List.filterMap_append

/-- Of changes reported rule by rule, those of one name come from the rules of that name. -/
theorem kindsAt_filterMap (name : String) (l : List (Rule × Nat))
    (f : Rule × Nat → Option Change.Kind) :
    kindsAt name (l.filterMap fun x => (f x).map fun kind => ⟨rulePath x.1.name, kind⟩)
      = (l.filter fun x => x.1.name == name).filterMap f := by
  unfold kindsAt
  rw [List.filterMap_filterMap, List.filterMap_filter]
  refine List.filterMap_congr fun x _ => ?_
  cases f x with
  | none => split <;> rfl
  | some kind =>
    show (if rulePath x.1.name = rulePath name then some kind else none) = _
    by_cases h : x.1.name = name <;> simp [h]

/-- Both halves of the comparison report rule by rule. -/
theorem ofRules_eq (old new : List Rule) :
    ofRules old new
      = ((numbered [] old).filterMap fun x =>
          (changeOf new x.1 x.2).map fun kind => ⟨rulePath x.1.name, kind⟩) ++
        (numbered [] new).filterMap fun x =>
          (if (named old x.1.name)[x.2]?.isNone then some Change.Kind.added else none).map
            fun kind => ⟨rulePath x.1.name, kind⟩ := by
  unfold ofRules
  congr 1
  refine List.filterMap_congr fun x _ => ?_
  show (if (named old x.1.name)[x.2]?.isNone then some (⟨rulePath x.1.name, .added⟩ : Change)
    else none) = _
  split <;> rfl

/-- A change of rules is at the path of a rule. -/
theorem exists_rulePath_of_mem {old new : List Rule} {c : Change} (h : c ∈ ofRules old new) :
    ∃ name, c.path = rulePath name := by
  rw [ofRules_eq, List.mem_append, List.mem_filterMap, List.mem_filterMap] at h
  obtain ⟨x, -, hx⟩ | ⟨x, -, hx⟩ := h
  all_goals
    obtain ⟨kind, -, rfl⟩ := Option.map_eq_some_iff.mp hx
    exact ⟨x.1.name, rfl⟩

theorem name_of_mem_zipIdx_named {rules : List Rule} {name : String} {x : Rule × Nat}
    (h : x ∈ (named rules name).zipIdx) : x.1.name = name :=
  (mem_named.mp (List.fst_mem_of_mem_zipIdx h)).2

/-- At each name the rules of that name are paired, whatever stands between them. -/
theorem kindsAt_ofRules (old new : List Rule) (name : String) :
    kindsAt name (ofRules old new) = paired (named old name) (named new name) := by
  -- Among the rules of one name, every rule is compared with the rules of that name.
  have hold : ((named old name).zipIdx.filterMap fun x => changeOf new x.1 x.2)
      = ofOld (named old name) (named new name) := by
    refine List.filterMap_congr fun x hx => ?_
    rw [changeOf_eq, name_of_mem_zipIdx_named hx]
  have hnew : ((named new name).zipIdx.filterMap fun x =>
        if (named old x.1.name)[x.2]?.isNone then some Change.Kind.added else none)
      = ofNew (named old name) (named new name) := by
    refine List.filterMap_congr fun x hx => ?_
    rw [name_of_mem_zipIdx_named hx]
  rw [ofRules_eq, kindsAt_append, kindsAt_filterMap, kindsAt_filterMap, numbered_filter,
    numbered_filter, List.count_nil, hold, hnew, ofOld_append_ofNew]

/-! ## Whole grammars -/

/-- A change of the initializer is at no rule. -/
theorem ruleName?_of_mem_ofInitializers {old new : Option Initializer} {c : Change}
    (h : c ∈ ofInitializers old new) : ruleName? c.path = none := by
  unfold ofInitializers at h
  split at h
  · simp [List.mem_singleton.mp h]
  · simp [List.mem_singleton.mp h]
  · split at h
    · cases h
    · simp [List.mem_singleton.mp h]
  · cases h

theorem ruleName?_of_mem_ofStartRules {old new : String} {c : Change}
    (h : c ∈ ofStartRules old new) : ruleName? c.path = none := by
  unfold ofStartRules at h
  split at h
  · cases h
  · simp [List.mem_singleton.mp h]

/-- No rule has the path of a part that leads to none. -/
theorem kindsAt_eq_nil {changes : List Change} (h : ∀ c ∈ changes, ruleName? c.path = none)
    (name : String) : kindsAt name changes = [] := by
  refine List.filterMap_eq_nil_iff.mpr fun c hc => if_neg fun hpath => ?_
  have hname : ruleName? c.path = some name := ruleName?_eq_some.mpr hpath
  rw [h c hc] at hname
  exact absurd hname (by nofun)

/-- **What is reported of a name depends on the rules of that name only**, and is what going along
them in pairs reports. -/
theorem kindsAt_between (old new : Grammar) (name : String) :
    kindsAt name (between old new).changes
      = paired (named old.rules name) (named new.rules name) := by
  unfold between
  rw [kindsAt_append, kindsAt_append, kindsAt_ofRules,
    kindsAt_eq_nil fun c hc => ruleName?_of_mem_ofInitializers hc,
    kindsAt_eq_nil fun c hc => ruleName?_of_mem_ofStartRules hc]
  rfl

/-! ## Pairs without changes -/

/-- Nothing is reported for the rules of a name if and only if they are equal, one by one. -/
theorem paired_eq_nil_iff {old new : List Rule} : paired old new = [] ↔ old = new := by
  induction old generalizing new with
  | nil => cases new <;> simp [paired]
  | cons a old ih =>
    cases new with
    | nil => simp [paired]
    | cons b new =>
      rw [paired]
      by_cases h : b = a
      · rw [if_pos h, ih, h, List.cons_inj_right]
      · rw [if_neg h]
        have hne : a :: old ≠ b :: new := fun heq => h (List.cons.inj heq).1.symm
        exact iff_of_false (by nofun) hne

end Diff

end Peg
