import Peg.Proofs.Diff.Composition

/-!
# A diff the other way round

The comparison treats its two sides differently: it goes over the old rules for what is removed or
modified, and over the new ones for what is added. Still nothing depends on which grammar is called
the old one. **`between_reverse`**: going back, what was added is removed, what was removed is
added, and what was modified is modified, each path as often as before.

Name by name even the order is the same, since the rules of one name are gone through in pairs
(`paired_reverse`). Over all names it is not, and `between_perm` is up to order.
-/

namespace Peg

/-- What a change amounts to, going back from the new grammar to the old one. -/
def Change.Kind.reverse : Change.Kind → Change.Kind
  | added => removed
  | removed => added
  | modified => modified

/-- The same change, seen from the other grammar. -/
def Change.reverse (c : Change) : Change :=
  ⟨c.path, c.kind.reverse⟩

namespace Change

@[simp] theorem Kind.reverse_reverse (kind : Kind) : kind.reverse.reverse = kind := by
  cases kind <;> rfl

theorem reverse_involutive : Function.Involutive reverse := by
  rintro ⟨path, kind⟩
  show (⟨path, kind.reverse.reverse⟩ : Change) = ⟨path, kind⟩
  rw [kind.reverse_reverse]

end Change

namespace Diff

open Change

/-! ## Parts of a grammar -/

/-- Read the other way, an initializer that was added was removed. -/
theorem ofInitializers_reverse (old new : Option Initializer) :
    ofInitializers new old = (ofInitializers old new).map reverse := by
  cases old with
  | none => cases new <;> rfl
  | some old =>
    cases new with
    | none => rfl
    | some new =>
      rw [ofInitializers, ofInitializers]
      by_cases h : old = new
      · rw [if_pos h, if_pos h.symm]
        rfl
      · rw [if_neg h, if_neg (Ne.symm h)]
        rfl

/-- The start rule is modified either way or not at all. -/
theorem ofStartRules_reverse (old new : String) :
    ofStartRules new old = (ofStartRules old new).map reverse := by
  rw [ofStartRules, ofStartRules]
  by_cases h : old = new
  · rw [if_pos h, if_pos h.symm]
    rfl
  · rw [if_neg h, if_neg (Ne.symm h)]
    rfl

/-! ## Rules -/

/-- **Of one name, the same pairs differ**, and what is left is left of the other list. -/
theorem paired_reverse (old new : List Rule) :
    paired new old = (paired old new).map Kind.reverse := by
  induction old generalizing new with
  | nil =>
    cases new with
    | nil => rfl
    | cons b new =>
      rw [paired, paired, List.map_replicate]
      · rfl
      · exact List.cons_ne_nil _ _
  | cons a old ih =>
    cases new with
    | nil =>
      rw [paired, paired, List.map_replicate]
      · rfl
      · exact List.cons_ne_nil _ _
    | cons b new =>
      rw [paired, paired]
      by_cases h : b = a
      · rw [if_pos h, if_pos h.symm, ih]
      · rw [if_neg h, if_neg (Ne.symm h), ih, List.map_cons]
        rfl

theorem kindsAt_map_reverse (name : String) (changes : List Change) :
    kindsAt name (changes.map reverse) = (kindsAt name changes).map Kind.reverse := by
  unfold kindsAt
  rw [List.filterMap_map, List.map_filterMap]
  refine List.filterMap_congr fun c _ => ?_
  show (if c.path = rulePath name then some c.kind.reverse else none) = _
  split <;> rfl

/-- Read the other way, the changes of rules are those of before reversed, in another order: they
follow the new rules and not the old. -/
theorem ofRules_perm (old new : List Rule) :
    (ofRules new old).Perm ((ofRules old new).map reverse) := by
  refine perm_of_kindsAt (fun c hc => exists_rulePath_of_mem hc) (fun c hc => ?_) fun name => ?_
  · obtain ⟨d, hd, rfl⟩ := List.mem_map.mp hc
    obtain ⟨name, hname⟩ := exists_rulePath_of_mem hd
    exact ⟨name, hname⟩
  · rw [kindsAt_map_reverse, kindsAt_ofRules, kindsAt_ofRules, paired_reverse]

/-! ## Whole grammars -/

/-- **Going back, every change is reversed**, though they may be reported in another order. -/
theorem between_perm (a b : Grammar) :
    (between b a).changes.Perm ((between a b).changes.map reverse) := by
  unfold between
  rw [List.map_append, List.map_append, ofInitializers_reverse, ofStartRules_reverse]
  exact (ofRules_perm a.rules b.rules).append_left _

/-- Each change is reported as often as its reverse is the other way. -/
theorem count_between_reverse (a b : Grammar) (path : String) (kind : Change.Kind) :
    (between b a).changes.count ⟨path, kind.reverse⟩
      = (between a b).changes.count ⟨path, kind⟩ := by
  have hreverse : (⟨path, kind.reverse⟩ : Change) = reverse ⟨path, kind⟩ := rfl
  rw [(between_perm a b).count_eq, hreverse,
    List.count_map_of_injective _ _ reverse_involutive.injective]

/-- There are as many changes either way. -/
theorem length_between_reverse (a b : Grammar) : (between b a).length = (between a b).length := by
  rw [length, (between_perm a b).length_eq, List.length_map]
  rfl

/-- **At every path, as much is added one way as is removed the other way**, and as much modified.
So either way there are as many changes, and none exactly if there are none back. -/
theorem between_reverse (a b : Grammar) :
    (∀ path,
      (between a b).changes.count ⟨path, .added⟩ = (between b a).changes.count ⟨path, .removed⟩ ∧
        (between a b).changes.count ⟨path, .removed⟩ = (between b a).changes.count ⟨path, .added⟩ ∧
        (between a b).changes.count ⟨path, .modified⟩
          = (between b a).changes.count ⟨path, .modified⟩) ∧
      (between a b).length = (between b a).length ∧
      ((between a b).isEmpty = true ↔ (between b a).isEmpty = true) := by
  refine ⟨fun path => ?_, (length_between_reverse a b).symm, ?_⟩
  · exact ⟨(count_between_reverse a b path .added).symm,
      (count_between_reverse a b path .removed).symm,
      (count_between_reverse a b path .modified).symm⟩
  · rw [isEmpty_iff_length, isEmpty_iff_length, length_between_reverse]

end Diff

end Peg
