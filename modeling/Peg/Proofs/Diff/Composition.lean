import Mathlib.Algebra.Order.BigOperators.Group.Finset
import Peg.Proofs.Diff.Counting

/-!
# Changes one after the other

Going from one grammar to another by way of a third takes at least as many changes as going there at
once: **`length_between_le`**. All that is counted are parts that differ, and two parts cannot
differ while a third one is the same as both (`differs_le`). For the initializers and the start
rules there is no more to it. The rules of one name are compared place by place, where a place may
be empty: **`length_paired_eq_sum`**.

So nothing changes over a run of passes none of which changes anything.
-/

namespace Peg.Diff

/-! ## Parts that differ -/

/-- One if two things differ. -/
def differs {α : Type} [DecidableEq α] (old new : α) : Nat :=
  if old = new then 0 else 1

/-- What differs at the ends differs at one of the steps. -/
theorem differs_le {α : Type} [DecidableEq α] (a b c : α) :
    differs a c ≤ differs a b + differs b c := by
  unfold differs
  by_cases hab : a = b
  · rw [hab, if_pos rfl, Nat.zero_add]
  · rw [if_neg hab]
    split <;> omega

theorem length_ofInitializers (old new : Option Initializer) :
    (ofInitializers old new).length = differs old new := by
  cases old with
  | none => cases new <;> rfl
  | some old =>
    cases new with
    | none => rfl
    | some new =>
      rw [ofInitializers, differs]
      by_cases h : old = new <;> simp [h]

theorem length_ofStartRules (old new : String) :
    (ofStartRules old new).length = differs old new := by
  rw [ofStartRules, differs]
  split <;> rfl

/-! ## Rules of one name -/

/-- The first rules are compared, then the others. -/
theorem length_paired_step (old new : List Rule) :
    (paired old new).length = differs old[0]? new[0]? + (paired old.tail new.tail).length := by
  cases old with
  | nil =>
    cases new with
    | nil => rfl
    | cons b new => simp [paired, differs, Nat.add_comm]
  | cons a old =>
    cases new with
    | nil =>
      -- what `paired` does next depends on whether anything is left
      cases old <;> simp [paired, differs, Nat.add_comm]
    | cons b new =>
      rw [paired]
      split
      · next h => simp [differs, h]
      · next h => simp [differs, Ne.symm h, Nat.add_comm]

/-- **The changes of a name are the places where its rules differ**, as far as either list goes. -/
theorem length_paired_eq_sum {old new : List Rule} {n : Nat} (hold : old.length ≤ n)
    (hnew : new.length ≤ n) :
    (paired old new).length = ∑ i ∈ Finset.range n, differs old[i]? new[i]? := by
  induction n generalizing old new with
  | zero =>
    rw [List.eq_nil_of_length_eq_zero (Nat.le_zero.mp hold),
      List.eq_nil_of_length_eq_zero (Nat.le_zero.mp hnew)]
    rfl
  | succ n ih =>
    have htail : old.tail.length ≤ n := by
      rw [List.length_tail]
      omega
    have htail' : new.tail.length ≤ n := by
      rw [List.length_tail]
      omega
    rw [length_paired_step, ih htail htail', Finset.sum_range_succ', Nat.add_comm]
    simp only [List.getElem?_tail]

/-- The triangle for the rules of one name, place by place. -/
theorem length_paired_le (a b c : List Rule) :
    (paired a c).length ≤ (paired a b).length + (paired b c).length := by
  -- far enough for all three lists, so that the sums go over the same places
  let n := a.length + b.length + c.length
  have ha : a.length ≤ n := by omega
  have hb : b.length ≤ n := by omega
  have hc : c.length ≤ n := by omega
  rw [length_paired_eq_sum ha hc, length_paired_eq_sum ha hb, length_paired_eq_sum hb hc,
    ← Finset.sum_add_distrib]
  exact Finset.sum_le_sum fun i _ => differs_le _ _ _

/-! ## Whole grammars -/

/-- The triangle for all rules: name by name over the names of the three grammars. -/
theorem length_ofRules_le (a b c : List Rule) :
    (ofRules a c).length ≤ (ofRules a b).length + (ofRules b c).length := by
  -- a name that only `b` has counts for nothing on the left
  let names := ((a ++ b ++ c).map Rule.name).toFinset
  have hnames : ∀ r ∈ a ++ b ++ c, r.name ∈ names :=
    fun r hr => List.mem_toFinset.mpr (List.mem_map_of_mem hr)
  have hac : ∀ r ∈ a ++ c, r.name ∈ names := fun r hr => hnames r (by grind)
  have hab : ∀ r ∈ a ++ b, r.name ∈ names := fun r hr => hnames r (by grind)
  have hbc : ∀ r ∈ b ++ c, r.name ∈ names := fun r hr => hnames r (by grind)
  rw [length_ofRules hac, length_ofRules hab, length_ofRules hbc, ← Finset.sum_add_distrib]
  exact Finset.sum_le_sum fun name _ => length_paired_le _ _ _

/-- The length of a diff is the sum of its three parts. -/
theorem length_between (old new : Grammar) :
    (between old new).length = differs old.initializer new.initializer +
      differs old.startRule new.startRule + (ofRules old.rules new.rules).length := by
  rw [length, between, List.length_append, List.length_append, length_ofInitializers,
    length_ofStartRules]

/-- The triangle for whole grammars. -/
theorem length_between_triangle (a b c : Grammar) :
    (between a c).length ≤ (between a b).length + (between b c).length := by
  rw [length_between, length_between, length_between]
  -- summand by summand
  have hinitializer := differs_le a.initializer b.initializer c.initializer
  have hstart := differs_le a.startRule b.startRule c.startRule
  have hrules := length_ofRules_le a.rules b.rules c.rules
  omega

theorem isEmpty_iff_length (d : Diff) : d.isEmpty = true ↔ d.length = 0 := by
  rw [isEmpty, List.isEmpty_iff, length, List.length_eq_zero_iff]

/-- If nothing changes in either of two steps, nothing changes in both. -/
theorem isEmpty_trans {a b c : Grammar} (hab : (between a b).isEmpty = true)
    (hbc : (between b c).isEmpty = true) : (between a c).isEmpty = true := by
  rw [isEmpty_iff_length] at hab hbc ⊢
  have hle := length_between_triangle a b c
  omega

/-- Passes that change nothing, one after the other, change nothing in all. -/
theorem isEmpty_of_isChain {a : Grammar} {passes : List Grammar}
    (h : (a :: passes).IsChain fun g h => (between g h).isEmpty = true) :
    ∀ g ∈ passes, (between a g).isEmpty = true := by
  induction passes generalizing a with
  | nil => exact List.forall_mem_nil _
  | cons b passes ih =>
    obtain ⟨hab, hchain⟩ := List.isChain_cons_cons.mp h
    refine List.forall_mem_cons.mpr ⟨hab, fun g hg => ?_⟩
    exact isEmpty_trans hab (ih hchain g hg)

/-- **A detour takes no fewer changes.** In particular, what passes leave unchanged one after the
other is unchanged over any number of them. -/
theorem length_between_le (a b c : Grammar) :
    (between a c).length ≤ (between a b).length + (between b c).length ∧
      ((between a b).isEmpty = true → (between b c).isEmpty = true →
        (between a c).isEmpty = true) ∧
      ∀ passes : List Grammar,
        ((a :: passes).IsChain fun g h => (between g h).isEmpty = true) →
          ∀ g ∈ passes, (between a g).isEmpty = true :=
  ⟨length_between_triangle a b c, isEmpty_trans, fun _ hchain => isEmpty_of_isChain hchain⟩

/-- Two passes that move rules, among them a rule whose name is taken twice. -/
theorem length_between_le_repeated_name :
    let a : Grammar :=
      ⟨none, [⟨"x", none, .any⟩, ⟨"x", none, .ruleRef "y"⟩, ⟨"y", none, .any⟩], "x"⟩
    let b : Grammar :=
      ⟨none, [⟨"x", none, .any⟩, ⟨"y", none, .any⟩, ⟨"x", none, .ruleRef "y"⟩], "x"⟩
    let c : Grammar :=
      ⟨none, [⟨"y", none, .any⟩, ⟨"x", none, .any⟩, ⟨"x", none, .ruleRef "y"⟩], "x"⟩
    (between a b).isEmpty = true ∧ (between b c).isEmpty = true ∧ (between a c).isEmpty = true ∧
      ∀ g ∈ [b, c], (between a g).isEmpty = true := by
  intro a b c
  have hab : (between a b).isEmpty = true := by decide
  have hbc : (between b c).isEmpty = true := by decide
  have hchain : [a, b, c].IsChain fun g h => (between g h).isEmpty = true :=
    List.isChain_cons_cons.mpr ⟨hab, List.isChain_pair.mpr hbc⟩
  obtain ⟨-, htrans, hpasses⟩ := length_between_le a b c
  exact ⟨hab, hbc, htrans hab hbc, hpasses [b, c] hchain⟩

end Peg.Diff
