import Mathlib.Algebra.Ring.Nat
import Peg.Proofs.Text.Layout
import Peg.Proofs.Text.Margins

/-!
# Levels of indentation

What is emitted inside something that is emitted itself gets indented more than once. Each time the
unit goes in front of every line there is, in front of the units that are there already, so the
levels add up: **`indent_indent`** for two of them, **`run_indent`** for any nesting.

For this the lines of the block must still be its lines when the next level comes. In a list they
are. In one text a unit with a line feed would leave more lines behind than it found.
-/

namespace Peg.Text.Block

variable {b : Block} {unit : String}

/-! ## One line -/

@[simp] theorem indentation_zero (unit : String) : indentation 0 unit = "" := by
  simp [indentation]

theorem indentation_add (m n : Nat) (unit : String) :
    indentation (m + n) unit = indentation n unit ++ indentation m unit := by
  -- all units are alike, so it does not matter which of them stand in front
  unfold indentation
  rw [Nat.add_comm, List.replicate_add, List.flatten_append, String.ofList_append]

/-- One indentation in front of another is the indentation of both levels. -/
theorem indentation_comp (m n : Nat) (unit : String) :
    (indentation n unit ++ ·) ∘ (indentation m unit ++ ·) = (indentation (m + n) unit ++ ·) := by
  funext line
  show indentation n unit ++ (indentation m unit ++ line) = indentation (m + n) unit ++ line
  rw [indentation_add, String.append_assoc]

/-! ## Blocks -/

/-- At level nothing a block stays what it is. -/
@[simp] theorem indent_zero (b : Block) (unit : String) : b.indent 0 unit = b := by
  apply mapLines_eq_self
  intro line _
  simp

@[simp] theorem isText_indent (b : Block) (level : Nat) (unit : String) :
    (b.indent level unit).isText = b.isText :=
  isText_mapLines b _

/-- **Two levels are one of their sum.** -/
theorem indent_indent (h : b.isText = true → '\n' ∉ unit.toList) (m n : Nat) :
    (b.indent m unit).indent n unit = b.indent (m + n) unit := by
  have hkeeps := keepsLines_indent m h
  unfold indent
  rw [mapLines_mapLines hkeeps, indentation_comp]

/-- **However often a block is indented, what counts is how far in all.** -/
theorem run_indent (h : b.isText = true → '\n' ∉ unit.toList) (levels : List Nat) :
    run (levels.map fun level => .indent level unit) b = b.indent levels.sum unit := by
  induction levels generalizing b with
  | nil => exact (indent_zero b unit).symm
  | cons level levels ih =>
    have hfeed : (b.indent level unit).isText = true → '\n' ∉ unit.toList := by
      simpa using h
    have hrest := ih hfeed
    rw [indent_indent h] at hrest
    rw [List.sum_cons, ← hrest]
    rfl

/-- **Levels of indentation add up**, in a list of lines whatever the unit, and in one text if the
unit has no line feed. At level zero nothing is put in. -/
theorem indent_levels_add (b : Block) (m n : Nat) (unit : String) :
    ((b.isText = true → '\n' ∉ unit.toList) →
      (b.indent m unit).indent n unit = b.indent (m + n) unit) ∧
      b.indent 0 unit = b := by
  refine ⟨?_, indent_zero b unit⟩
  intro hfeed
  exact indent_indent hfeed m n

/-- Three levels at once, and one and two of them. Lines may have any unit. -/
theorem indent_levels_add_three :
    ((text "a\n\n b").isText = true → '\n' ∉ "\u3000\t".toList) ∧
      ((text "a\n\n b").indent 1 "\u3000\t").indent 2 "\u3000\t"
        = (text "a\n\n b").indent 3 "\u3000\t" ∧
      ((lines ["a", "b\n"]).isText = true → '\n' ∉ "\n".toList) ∧
      ((lines ["a", "b\n"]).indent 1 "\n").indent 2 "\n" = (lines ["a", "b\n"]).indent 3 "\n" := by
  have hfeed : (text "a\n\n b").isText = true → '\n' ∉ "\u3000\t".toList := by decide
  have hlist : (lines ["a", "b\n"]).isText = true → '\n' ∉ "\n".toList := by decide
  exact ⟨hfeed, (indent_levels_add _ 1 2 _).1 hfeed, hlist, (indent_levels_add _ 1 2 _).1 hlist⟩

-- In one text a line feed in the unit counts as a line for the next level.
example : ((text "a").indent 1 "\n").indent 1 "\n" = text "\n\n\na" ∧
    (text "a").indent 2 "\n" = text "\n\na" := by
  decide

end Peg.Text.Block
