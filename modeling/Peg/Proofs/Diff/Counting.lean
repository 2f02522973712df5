import Mathlib.Algebra.BigOperators.Group.Finset.Piecewise
import Peg.Proofs.Diff.Pairing

/-!
# Counting changes name by name

What a diff reports of one name is known: it comes from going along the old and the new rules of
that name in pairs. Counts over a whole diff are sums of that, over any names that all the rules go
by: **`length_ofRules`** for all changes of rules, `ruleChanges_between` for those of one kind, and
`length_eq_sum_named` for the rules themselves.

**`paired_eq`** says how often each kind is reported of one name: what differs where both lists have
a rule is modified, and what one list has more than the other is removed or added.
**`count_rule_changes`** says so of a whole diff, and that added and removed rules make up for how
many more or fewer there are.
-/

namespace Peg.Diff

open Change

/-! ## Sums over names -/

variable {names : Finset String}

/-- What goes by one of the names each is counted name by name. -/
theorem length_eq_sum {α : Type} {l : List α} (name? : α → Option String)
    (h : ∀ a ∈ l, ∃ name ∈ names, name? a = some name) :
    l.length = ∑ name ∈ names, l.countP fun a => name? a == some name := by
  induction l with
  | nil => simp
  | cons a l ih =>
    obtain ⟨⟨name, hmem, hname⟩, hl⟩ := List.forall_mem_cons.mp h
    -- `a` goes by one name, so it is counted in one summand
    have hfirst : 1 = ∑ name' ∈ names, if (name? a == some name') = true then 1 else 0 := by
      simp [hname, hmem]
    simp only [List.countP_cons, Finset.sum_add_distrib]
    rw [List.length_cons, ih hl, ← hfirst]

/-- **Rules are counted name by name.** -/
theorem length_eq_sum_named {rules : List Rule} (h : ∀ r ∈ rules, r.name ∈ names) :
    rules.length = ∑ name ∈ names, (named rules name).length := by
  rw [length_eq_sum (fun r : Rule => some r.name) fun r hr => ⟨r.name, h r hr, rfl⟩]
  exact Finset.sum_congr rfl fun _ _ => List.countP_eq_length_filter

/-! ## Changes of rules -/

/-- A change of rules names a rule of one of the grammars. -/
theorem exists_rule_of_mem_ofRules {old new : List Rule} {c : Change} (h : c ∈ ofRules old new) :
    ∃ r ∈ old ++ new, c.path = rulePath r.name := by
  obtain ⟨name, hpath⟩ := exists_rulePath_of_mem h
  have hkind : c.kind ∈ paired (named old name) (named new name) := by
    rw [← kindsAt_ofRules, mem_kindsAt, ← hpath]
    exact h
  have hne : named (old ++ new) name ≠ [] := by
    intro hnil
    rw [named, List.filter_append, List.append_eq_nil_iff] at hnil
    rw [named, named, hnil.1, hnil.2] at hkind
    cases hkind
  obtain ⟨r, hr⟩ := List.exists_mem_of_ne_nil _ hne
  obtain ⟨hmem, rfl⟩ := mem_named.mp hr
  exact ⟨r, hmem, hpath⟩

/-- The names of the rules are enough to go through all changes of rules. -/
theorem exists_name_of_mem_ofRules {old new : List Rule} (h : ∀ r ∈ old ++ new, r.name ∈ names)
    {c : Change} (hc : c ∈ ofRules old new) : ∃ name ∈ names, ruleName? c.path = some name := by
  obtain ⟨r, hr, hpath⟩ := exists_rule_of_mem_ofRules hc
  exact ⟨r.name, h r hr, ruleName?_eq_some.mpr hpath⟩

/-- A change at the path of a rule is one of a rule. -/
theorem mem_ofRules_of_mem_between {old new : Grammar} {c : Change}
    (h : c ∈ (between old new).changes) {name : String} (hname : ruleName? c.path = some name) :
    c ∈ ofRules old.rules new.rules := by
  rw [between, List.mem_append, List.mem_append] at h
  rcases h with (h | h) | h
  · rw [ruleName?_of_mem_ofInitializers h] at hname
    cases hname
  · rw [ruleName?_of_mem_ofStartRules h] at hname
    cases hname
  · exact h

theorem length_kindsAt (changes : List Change) (name : String) :
    (kindsAt name changes).length = changes.countP fun c => ruleName? c.path == some name := by
  rw [kindsAt, List.length_filterMap_eq_countP]
  refine List.countP_congr fun c _ => ?_
  rw [beq_iff_eq, ruleName?_eq_some]
  by_cases h : c.path = rulePath name <;> simp [h]

/-- Each kind stands among the kinds at a name as often as the change of that kind stands in the
diff. -/
theorem count_kindsAt (changes : List Change) (name : String) (kind : Change.Kind) :
    (kindsAt name changes).count kind = changes.count ⟨rulePath name, kind⟩ := by
  rw [kindsAt, List.count_filterMap, List.count_eq_countP]
  refine List.countP_congr fun c _ => ?_
  obtain ⟨path, kind'⟩ := c
  by_cases h : path = rulePath name <;> simp [h]

/-- **Changes of rules are the same up to order if the same is reported of every name.** -/
theorem perm_of_kindsAt {changes changes' : List Change}
    (h : ∀ c ∈ changes, ∃ name, c.path = rulePath name)
    (h' : ∀ c ∈ changes', ∃ name, c.path = rulePath name)
    (hkinds : ∀ name, kindsAt name changes = kindsAt name changes') : changes.Perm changes' := by
  rw [List.perm_iff_count]
  intro c
  by_cases hpath : ∃ name, c.path = rulePath name
  · obtain ⟨name, hname⟩ := hpath
    have hc : c = ⟨rulePath name, c.kind⟩ := by rw [← hname]
    rw [hc, ← count_kindsAt, ← count_kindsAt, hkinds]
  · -- at any other path there is nothing on either side
    rw [List.count_eq_zero_of_not_mem fun hc => hpath (h c hc),
      List.count_eq_zero_of_not_mem fun hc => hpath (h' c hc)]

/-- **Changes of rules are counted name by name.** -/
theorem length_ofRules {old new : List Rule} (h : ∀ r ∈ old ++ new, r.name ∈ names) :
    (ofRules old new).length
      = ∑ name ∈ names, (paired (named old name) (named new name)).length := by
  rw [length_eq_sum (fun c : Change => ruleName? c.path) fun c => exists_name_of_mem_ofRules h]
  refine Finset.sum_congr rfl fun name _ => ?_
  rw [← length_kindsAt, kindsAt_ofRules]

/-- The number of rules reported with a kind of change. -/
def ruleChanges (d : Diff) (kind : Change.Kind) : Nat :=
  d.changes.countP fun c => c.kind == kind && (ruleName? c.path).isSome

/-- At the path of a rule the diff has what pairing the rules of that name gives. -/
theorem count_between (old new : Grammar) (name : String) (kind : Change.Kind) :
    (between old new).changes.count ⟨rulePath name, kind⟩
      = (paired (named old.rules name) (named new.rules name)).count kind := by
  rw [← count_kindsAt, kindsAt_between]

/-- The changes of one kind at any rule, counted name by name. -/
theorem ruleChanges_between {old new : Grammar}
    (h : ∀ r ∈ old.rules ++ new.rules, r.name ∈ names) (kind : Change.Kind) :
    (between old new).ruleChanges kind
      = ∑ name ∈ names, (paired (named old.rules name) (named new.rules name)).count kind := by
  have hnames : ∀ c ∈ (between old new).changes.filter
        (fun c => c.kind == kind && (ruleName? c.path).isSome),
      ∃ name ∈ names, ruleName? c.path = some name := by
    intro c hc
    obtain ⟨hc, hkind⟩ := List.mem_filter.mp hc
    obtain ⟨name, hname⟩ := Option.isSome_iff_exists.mp (Bool.and_eq_true_iff.mp hkind).2
    exact exists_name_of_mem_ofRules h (mem_ofRules_of_mem_between hc hname)
  rw [ruleChanges, List.countP_eq_length_filter,
    length_eq_sum (fun c : Change => ruleName? c.path) hnames]
  -- of one name, the changes of the kind at the path of some rule are those at its own path
  refine Finset.sum_congr rfl fun name _ => ?_
  rw [← count_between, List.count_eq_countP, List.countP_filter]
  refine List.countP_congr fun c _ => ?_
  obtain ⟨path, kind'⟩ := c
  rw [Bool.and_eq_true, Bool.and_eq_true, beq_iff_eq, beq_iff_eq, beq_iff_eq, Change.mk.injEq,
    ruleName?_eq_some]
  constructor
  · rintro ⟨hpath, hkind, -⟩
    exact ⟨hpath, hkind⟩
  · rintro ⟨hpath, hkind⟩
    refine ⟨hpath, hkind, ?_⟩
    rw [ruleName?_eq_some.mpr hpath]
    rfl

/-! ## Kinds of one name -/

/-- The number of places where both lists have a rule, and not the same one. -/
def differing (old new : List Rule) : Nat :=
  (List.range (min old.length new.length)).countP fun i => old[i]? ≠ new[i]?

@[simp] theorem differing_cons_cons (a b : Rule) (old new : List Rule) :
    differing (a :: old) (b :: new) = differing old new + if b = a then 0 else 1 := by
  unfold differing
  rw [List.length_cons, List.length_cons, Nat.succ_min_succ, List.range_succ_eq_map,
    List.countP_cons, List.countP_map]
  have hfirst : (decide ((a :: old)[0]? ≠ (b :: new)[0]?) = true) ↔ ¬ b = a := by
    rw [decide_eq_true_iff]
    exact not_congr (Option.some_inj.trans eq_comm)
  rw [if_congr hfirst rfl rfl, ite_not]
  rfl

/-- **What is reported of a name**: the pairs that differ, then what is left of either list. -/
theorem paired_eq (old new : List Rule) :
    paired old new = List.replicate (differing old new) .modified ++
      (List.replicate (old.length - new.length) .removed ++
        List.replicate (new.length - old.length) .added) := by
  -- along the recursion of `paired`; a pair that differs is in front of all the others
  induction old generalizing new with
  | nil => simp [paired, differing]
  | cons a old ih =>
    cases new with
    | nil => simp [paired, differing]
    | cons b new =>
      rw [paired, differing_cons_cons, List.length_cons, List.length_cons, Nat.succ_sub_succ,
        Nat.succ_sub_succ]
      split
      · exact ih new
      · rw [ih, List.replicate_succ, List.cons_append]

/-- The old rules beyond the number of new ones are removed. -/
theorem count_removed_paired (old new : List Rule) :
    (paired old new).count .removed = old.length - new.length := by
  rw [paired_eq]
  simp [List.count_replicate]

/-- The new rules beyond the number of old ones are added. -/
theorem count_added_paired (old new : List Rule) :
    (paired old new).count .added = new.length - old.length := by
  rw [paired_eq]
  simp [List.count_replicate]

/-- Of the pairs, those that differ are modified. -/
theorem count_modified_paired (old new : List Rule) :
    (paired old new).count .modified = differing old new := by
  rw [paired_eq]
  simp [List.count_replicate]

/-! ## All changes of rules -/

/-- Name by name, what the lists have more than each other evens their lengths out. -/
theorem length_add_removed (old new : Grammar) :
    new.rules.length + (between old new).ruleChanges .removed
      = old.rules.length + (between old new).ruleChanges .added := by
  let names := ((old.rules ++ new.rules).map Rule.name).toFinset
  have hnames : ∀ r ∈ old.rules ++ new.rules, r.name ∈ names :=
    fun r hr => List.mem_toFinset.mpr (List.mem_map_of_mem hr)
  have hold : ∀ r ∈ old.rules, r.name ∈ names := fun r hr => hnames r (List.mem_append_left _ hr)
  have hnew : ∀ r ∈ new.rules, r.name ∈ names := fun r hr => hnames r (List.mem_append_right _ hr)
  rw [length_eq_sum_named hold, length_eq_sum_named hnew, ruleChanges_between hnames,
    ruleChanges_between hnames, ← Finset.sum_add_distrib, ← Finset.sum_add_distrib]
  refine Finset.sum_congr rfl fun name _ => ?_
  rw [count_removed_paired, count_added_paired]
  omega

/-- **Every change of a rule is accounted for.** Of each name, as many rules are removed as the old
grammar has more of them, as many are added as the new one has more, and one is modified for each
place where both have one and they differ. No change is at the path of any other name. So the number
of rules changes by those that are added and those that are removed. -/
theorem count_rule_changes (old new : Grammar) :
    (∀ name,
      (between old new).changes.count ⟨rulePath name, .removed⟩
          = (named old.rules name).length - (named new.rules name).length ∧
        (between old new).changes.count ⟨rulePath name, .added⟩
          = (named new.rules name).length - (named old.rules name).length ∧
        (between old new).changes.count ⟨rulePath name, .modified⟩
          = differing (named old.rules name) (named new.rules name)) ∧
      (∀ c ∈ (between old new).changes, ∀ name, ruleName? c.path = some name →
        ∃ r ∈ old.rules ++ new.rules, r.name = name) ∧
      new.rules.length + (between old new).ruleChanges .removed
        = old.rules.length + (between old new).ruleChanges .added := by
  refine ⟨fun name => ?_, fun c hc name hname => ?_, length_add_removed old new⟩
  · rw [count_between, count_between, count_between]
    exact ⟨count_removed_paired _ _, count_added_paired _ _, count_modified_paired _ _⟩
  · obtain ⟨r, hr, hpath⟩ := exists_rule_of_mem_ofRules (mem_ofRules_of_mem_between hc hname)
    exact ⟨r, hr, rulePath_inj.mp (hpath.symm.trans (ruleName?_eq_some.mp hname))⟩

/-- A name used twice before and three times after, and one that is gone. -/
theorem count_rule_changes_repeated_name :
    let old : Grammar :=
      ⟨none, [⟨"a", none, .any⟩, ⟨"b", none, .any⟩, ⟨"a", none, .ruleRef "b"⟩], "a"⟩
    let new : Grammar :=
      ⟨none, [⟨"a", none, .ruleRef "b"⟩, ⟨"a", none, .ruleRef "b"⟩, ⟨"a", none, .any⟩], "a"⟩
    (between old new).changes
        = [⟨"rules.a", .modified⟩, ⟨"rules.b", .removed⟩, ⟨"rules.a", .added⟩] ∧
      ruleName? "rules.a" = some "a" ∧ ∃ r ∈ old.rules ++ new.rules, r.name = "a" := by
  intro old new
  have hchanges : (between old new).changes
      = [⟨"rules.a", .modified⟩, ⟨"rules.b", .removed⟩, ⟨"rules.a", .added⟩] := by decide
  have hname : ruleName? "rules.a" = some "a" := by decide
  have hmem : ⟨"rules.a", .modified⟩ ∈ (between old new).changes := by
    rw [hchanges]
    exact List.mem_cons_self ..
  exact ⟨hchanges, hname, (count_rule_changes old new).2.1 _ hmem "a" hname⟩

end Peg.Diff
