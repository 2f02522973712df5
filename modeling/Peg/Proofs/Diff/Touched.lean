import Peg.Proofs.Diff.Pairing

/-!
# Which rules a diff touches

The rules added or modified are the ones to look at again after a change. **`mem_touched_iff`** says
which these are: a name is touched exactly if the new rules of that name are not the first of the
old ones. Taking rules away from the end of that list is no reason to look at those that stay;
taking one from the middle is, because the ones behind it move up.

So nothing is missed: a rule whose name is not touched is the old rule of its name and number.
-/

namespace Peg.Diff

open Change

/-- A name is touched by any change of its rules but a removal. -/
theorem mem_touched_iff_exists {d : Diff} {name : String} :
    name ∈ d.touched ↔ ∃ kind ∈ kindsAt name d.changes, kind ≠ .removed := by
  unfold touched
  rw [List.mem_filterMap]
  constructor
  · rintro ⟨⟨path, kind⟩, hmem, hname⟩
    obtain ⟨hmem, hkind⟩ := List.mem_filter.mp hmem
    have hpath : path = rulePath name := ruleName?_eq_some.mp hname
    rw [hpath] at hmem
    exact ⟨kind, mem_kindsAt.mpr hmem, bne_iff_ne.mp hkind⟩
  · rintro ⟨kind, hmem, hkind⟩
    refine ⟨⟨rulePath name, kind⟩, ?_, ruleName?_eq_some.mpr rfl⟩
    exact List.mem_filter.mpr ⟨mem_kindsAt.mp hmem, bne_iff_ne.mpr hkind⟩

/-- **Only removals are reported exactly if the new rules are the first of the old ones.** -/
theorem forall_removed_iff {old new : List Rule} :
    (∀ kind ∈ paired old new, kind = .removed) ↔ new <+: old := by
  induction old generalizing new with
  | nil =>
    cases new with
    | nil => simp [paired]
    | cons b new => simp [paired]
  | cons a old ih =>
    cases new with
    | nil => simp [paired]
    | cons b new =>
      rw [paired, List.cons_prefix_cons]
      by_cases h : b = a
      · rw [if_pos h, ih]
        exact (and_iff_right h).symm
      · rw [if_neg h]
        have hmodified : ¬ ∀ kind ∈ .modified :: paired old new, kind = Change.Kind.removed := by
          intro hall
          have hhead := hall .modified (List.mem_cons_self ..)
          cases hhead
        exact iff_of_false hmodified fun hpre => h hpre.1

/-- A name is touched unless the new rules of it are the first of the old ones. -/
theorem touched_iff_named (old new : Grammar) (name : String) :
    name ∈ (between old new).touched ↔ ¬ named new.rules name <+: named old.rules name := by
  rw [mem_touched_iff_exists, kindsAt_between, ← forall_removed_iff]
  constructor
  · rintro ⟨kind, hmem, hkind⟩ hall
    exact hkind (hall kind hmem)
  · intro hnot
    obtain ⟨kind, hkind⟩ := Classical.not_forall.mp hnot
    obtain ⟨hmem, hkind⟩ := Classical.not_imp.mp hkind
    exact ⟨kind, hmem, hkind⟩

/-- A prefix has the same rules at its places. -/
theorem getElem?_of_begins {old new : List Rule} {i : Nat} {r : Rule} (hpre : new <+: old)
    (hnew : new[i]? = some r) : old[i]? = some r := by
  obtain ⟨hlt, hget⟩ := List.getElem?_eq_some_iff.mp hnew
  rw [List.prefix_iff_getElem?.mp hpre i hlt, hget]

/-- **A name is touched exactly if its new rules are not the first of its old ones**; and a rule
whose name is not touched is the old rule of the same name and number. -/
theorem mem_touched_iff (old new : Grammar) :
    (∀ name, name ∈ (between old new).touched ↔
        ¬ named new.rules name <+: named old.rules name) ∧
      ∀ r i, (r, i) ∈ numbered [] new.rules →
        r.name ∈ (between old new).touched ∨ (named old.rules r.name)[i]? = some r := by
  refine ⟨touched_iff_named old new, fun r i hmem => ?_⟩
  by_cases hpre : named new.rules r.name <+: named old.rules r.name
  · exact .inr (getElem?_of_begins hpre (mem_numbered.mp hmem))
  · exact .inl ((touched_iff_named old new r.name).mpr hpre)

end Peg.Diff
