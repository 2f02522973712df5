import Peg.Grammar.Basic
import Peg.Proofs.Expression.Paths

/-!
# References found by the walk

The references of a grammar are gathered by walking over the bodies of its rules. As the walk comes
by every place of a body once, and in order, none is left out: **`traversal_complete`**. A check of
the gathered names against the rules therefore is a check of every reference there is, however deep
inside a body.
-/

namespace Peg.Grammar

open Expression (ruleRef)

/-- A lookup finds a rule if there is one of the name. -/
theorem exists_rule?_iff {g : Grammar} {name : String} :
    (∃ r, g.rule? name = some r) ↔ ∃ r ∈ g.rules, r.name = name := by
  rw [← Option.isSome_iff_exists, rule?, List.find?_isSome]
  simp only [beq_iff_eq]

/-- A grammar refers to a name if a reference to it stands at some path in one of its rules. -/
theorem mem_references {g : Grammar} {name : String} :
    name ∈ g.references ↔ ∃ r ∈ g.rules, ∃ path, r.expression.at? path = some (ruleRef name) := by
  rw [references, List.mem_flatMap]
  simp only [Expression.mem_references]

/-- The references of a grammar, by the places they stand in. -/
theorem references_eq (g : Grammar) :
    g.references = g.rules.flatMap fun r => r.expression.paths.filterMap fun path =>
      (r.expression.at? path).bind Expression.reference? := by
  unfold references
  exact List.flatMap_congr fun r _ => r.expression.references_eq

/-- All names that are gathered have a rule exactly if all references do. -/
theorem references_resolve_iff (g : Grammar) :
    (∀ name ∈ g.references, ∃ r, g.rule? name = some r) ↔
      ∀ r ∈ g.rules, ∀ path name, r.expression.at? path = some (ruleRef name) →
        ∃ s ∈ g.rules, s.name = name := by
  constructor
  · intro h r hr path name hpath
    exact exists_rule?_iff.mp (h name (mem_references.mpr ⟨r, hr, path, hpath⟩))
  · intro h name hname
    obtain ⟨r, hr, path, hpath⟩ := mem_references.mp hname
    exact exists_rule?_iff.mpr (h r hr path name hpath)

/-- **The walk comes by every place of a tree once, in lexicographic order.** So the references of a
grammar are those at all places of its rules' bodies, and they all resolve exactly if each of them
names a rule. -/
theorem traversal_complete :
    (∀ e : Expression,
      (e.at? [] = some e ∧
          ∀ path i, e.at? (path ++ [i]) = (e.at? path).bind fun f => f.children[i]?) ∧
        e.walk.map some = e.paths.map e.at? ∧
        (∀ path, path ∈ e.paths ↔ (e.at? path).isSome) ∧ e.paths.Nodup ∧
        e.paths.Pairwise (List.Lex (· < ·))) ∧
      ∀ g : Grammar,
        (g.references = g.rules.flatMap fun r => r.expression.paths.filterMap fun path =>
            (r.expression.at? path).bind Expression.reference?) ∧
          ((∀ name ∈ g.references, ∃ r, g.rule? name = some r) ↔
            ∀ r ∈ g.rules, ∀ path name, r.expression.at? path = some (ruleRef name) →
              ∃ s ∈ g.rules, s.name = name) := by
  refine ⟨fun e => ?_, fun g => ⟨g.references_eq, g.references_resolve_iff⟩⟩
  refine ⟨⟨e.at?_nil, e.at?_append_singleton⟩, e.map_walk, fun path => ?_, e.paths_nodup,
    e.paths_increasing⟩
  exact Expression.mem_paths

end Peg.Grammar
