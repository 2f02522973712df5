import Peg.Proofs.Diff.Counting
import Peg.Proofs.Diff.Rearrangement

/-!
# What an empty diff leaves as it was

Grammars without a difference may still have their rules in different places. Nothing that looks a
rule up can tell: the first rule of a name is the first of the rules of that name
(`rule?_eq_head?`), and these are the same in both, in order. What is gathered rule by rule comes in
another order, but it is the same (**`perm_of_named_eq`**).

**`unchanged_of_isEmpty`** puts this together for lookup, the start rule, the references and those
to which no rule answers.

Nor can anything that compares grammars tell. What is reported of a name depends on the rules of
that name only, so a diff is the same up to order whichever of the grammars it is taken from or to:
**`between_of_isEmpty`**.
-/

namespace Peg

open Diff

namespace Grammar

/-! ## Lookup -/

/-- A lookup finds the first rule of a name. -/
theorem rule?_eq_head? (g : Grammar) (name : String) :
    g.rule? name = (named g.rules name).head? :=
  List.head?_filter.symm

theorem rule?_eq_of_named_eq {a b : Grammar} (h : ∀ name, named a.rules name = named b.rules name)
    (name : String) : a.rule? name = b.rule? name := by
  rw [rule?_eq_head?, rule?_eq_head?, h]

/-- The start rule is looked up, and only its name is said when it is missing. -/
theorem start_eq {a b : Grammar} (hstart : a.startRule = b.startRule)
    (hrule : ∀ name, a.rule? name = b.rule? name) : a.start = b.start := by
  unfold start
  rw [hstart, hrule]

end Grammar

namespace Diff

/-! ## What is gathered rule by rule -/

/-- **Rules that are the same name by name are the same up to order.** -/
theorem perm_of_named_eq {old new : List Rule} (h : ∀ name, named old name = named new name) :
    old.Perm new := by
  rw [List.perm_iff_count]
  intro r
  have hcount : ∀ rules, (named rules r.name).count r = rules.count r := fun rules =>
    List.count_filter (p := fun s : Rule => s.name == r.name) (beq_self_eq_true r.name)
  rw [← hcount old, ← hcount new, h]

/-- In another order of the rules, their references come in another order. -/
theorem references_perm {a b : Grammar} (h : a.rules.Perm b.rules) :
    a.references.Perm b.references :=
  h.flatMap_right _

/-- What is unresolved depends on the references and on what a lookup finds. -/
theorem unresolved_perm {a b : Grammar} (hrefs : a.references.Perm b.references)
    (hrule : ∀ name, a.rule? name = b.rule? name) : a.unresolved.Perm b.unresolved := by
  unfold Grammar.unresolved
  simp only [hrule]
  exact hrefs.filter _

/-! ## Empty diffs -/

/-- **Grammars without a difference look the same to whoever looks a rule up**, the start rule
included, also if it is missing. They have the same references, of which the same lead nowhere. -/
theorem unchanged_of_isEmpty {a b : Grammar} (h : (between a b).isEmpty = true) :
    (∀ name, a.rule? name = b.rule? name) ∧ a.start = b.start ∧
      b.references.Perm a.references ∧ b.unresolved.Perm a.unresolved := by
  obtain ⟨-, hstart, hnamed⟩ := (isEmpty_iff_named_eq a b).mp h
  have hrule : ∀ name, a.rule? name = b.rule? name := Grammar.rule?_eq_of_named_eq hnamed
  have hrefs : a.references.Perm b.references := references_perm (perm_of_named_eq hnamed)
  exact ⟨hrule, Grammar.start_eq hstart hrule, hrefs.symm, (unresolved_perm hrefs hrule).symm⟩

/-- A rule has moved past two of another name, whose order counts for lookup. -/
theorem unchanged_of_isEmpty_moved_rule :
    let a : Grammar :=
      ⟨none, [⟨"x", none, .ruleRef "y"⟩, ⟨"x", none, .any⟩, ⟨"y", none, .ruleRef "z"⟩], "x"⟩
    let b : Grammar :=
      ⟨none, [⟨"y", none, .ruleRef "z"⟩, ⟨"x", none, .ruleRef "y"⟩, ⟨"x", none, .any⟩], "x"⟩
    (between a b).isEmpty = true ∧ a.references = ["y", "z"] ∧ b.references = ["z", "y"] ∧
      (∀ name, a.rule? name = b.rule? name) ∧ a.start = b.start ∧
      b.references.Perm a.references ∧ b.unresolved.Perm a.unresolved := by
  intro a b
  have hempty : (between a b).isEmpty = true := by decide
  exact ⟨hempty, rfl, rfl, unchanged_of_isEmpty hempty⟩

/-! ## Comparing with other grammars -/

/-- **The changes of rules depend on the rules name by name**, up to the order they come in. -/
theorem ofRules_perm_of_named_eq {old old' new new' : List Rule}
    (hold : ∀ name, named old name = named old' name)
    (hnew : ∀ name, named new name = named new' name) :
    (ofRules old new).Perm (ofRules old' new') := by
  refine perm_of_kindsAt (fun _ => exists_rulePath_of_mem) (fun _ => exists_rulePath_of_mem) ?_
  intro name
  rw [kindsAt_ofRules, kindsAt_ofRules, hold, hnew]

/-- Grammars that are only rearranged may stand on either side of a diff: the changes are the same,
in another order. -/
theorem changes_perm_of_isEmpty {a a' b b' : Grammar} (ha : (between a a').isEmpty = true)
    (hb : (between b b').isEmpty = true) :
    (between a b).changes.Perm (between a' b').changes := by
  obtain ⟨hinit, hstart, hnamed⟩ := (isEmpty_iff_named_eq a a').mp ha
  obtain ⟨hinit', hstart', hnamed'⟩ := (isEmpty_iff_named_eq b b').mp hb
  unfold between
  rw [hinit, hstart, hinit', hstart']
  exact (ofRules_perm_of_named_eq hnamed hnamed').append_left _

theorem touched_perm {d d' : Diff} (h : d.changes.Perm d'.changes) : d.touched.Perm d'.touched :=
  (h.filter _).filterMap _

/-- **Order of rules has no influence on what is reported.** Between grammars without a difference
to these two, every change is reported equally often, and so the same rules are touched. -/
theorem between_of_isEmpty {a a' b b' : Grammar} (ha : (between a a').isEmpty = true)
    (hb : (between b b').isEmpty = true) :
    (∀ path kind,
      (between a b).changes.count ⟨path, kind⟩ = (between a' b').changes.count ⟨path, kind⟩) ∧
      ∀ name, name ∈ (between a b).touched ↔ name ∈ (between a' b').touched := by
  have hperm := changes_perm_of_isEmpty ha hb
  exact ⟨fun path kind => hperm.count_eq ⟨path, kind⟩, fun name => (touched_perm hperm).mem_iff⟩

/-- Both grammars are reordered. The removal of `y` is reported between two changes of `x`, and then
before both of them. -/
theorem between_of_isEmpty_reordered :
    let a : Grammar :=
      ⟨none, [⟨"x", none, .any⟩, ⟨"y", none, .any⟩, ⟨"x", none, .ruleRef "y"⟩], "x"⟩
    let a' : Grammar :=
      ⟨none, [⟨"y", none, .any⟩, ⟨"x", none, .any⟩, ⟨"x", none, .ruleRef "y"⟩], "x"⟩
    let b : Grammar :=
      ⟨none, [⟨"x", none, .ruleRef "z"⟩, ⟨"z", none, .any⟩, ⟨"x", none, .any⟩], "x"⟩
    let b' : Grammar :=
      ⟨none, [⟨"z", none, .any⟩, ⟨"x", none, .ruleRef "z"⟩, ⟨"x", none, .any⟩], "x"⟩
    (between a a').isEmpty = true ∧ (between b b').isEmpty = true ∧
      (between a b).changes ≠ (between a' b').changes ∧
      (∀ path kind,
        (between a b).changes.count ⟨path, kind⟩ = (between a' b').changes.count ⟨path, kind⟩) ∧
      ∀ name, name ∈ (between a b).touched ↔ name ∈ (between a' b').touched := by
  intro a a' b b'
  have ha : (between a a').isEmpty = true := by decide
  have hb : (between b b').isEmpty = true := by decide
  exact ⟨ha, hb, by decide, between_of_isEmpty ha hb⟩

end Diff

end Peg
