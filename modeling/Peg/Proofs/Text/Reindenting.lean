import Peg.Proofs.Text.Margins

/-!
# Putting a margin back

Dedenting takes the margin of the first line away wherever a line starts with it, and leaves no
margin on the first line (**`dedent_dedent`**: a second time there is nothing to take). Indenting by
that margin puts it in front of every line, also of those it was never taken from. Such a line comes
out longer, whether it is empty or shares a part of the margin, so the block comes back exactly if
it has no such line: **`indent_dedent_eq_self_iff`**.
-/

namespace Peg.Text.Block

variable {b : Block} {f g : String → String}

/-! ## Changing all lines -/

theorem KeepsLines.comp (hf : b.KeepsLines f) (hg : b.KeepsLines g) : b.KeepsLines (g ∘ f) :=
  fun htext line hline => hg htext (f line) (hf htext line hline)

/-- A block stays what it is if and only if each of its lines does. -/
theorem mapLines_eq_self_iff (h : b.KeepsLines f) :
    b.mapLines f = b ↔ ∀ line ∈ b.toLines, f line = line := by
  constructor
  · intro heq
    have hlines : b.toLines.map f = b.toLines.map id := by
      rw [← toLines_mapLines h, heq, List.map_id]
    exact List.map_inj_left.mp hlines
  · exact mapLines_eq_self

/-- A line feed is blank, so the margin of a line in a list may have one. In a text it has none. -/
theorem feed_not_mem_margin {line : String} (hline : line ∈ b.toLines) (htext : b.isText = true) :
    '\n' ∉ margin line.toList := by
  cases b with
  | text s =>
    intro hmem
    exact (areLines_splitLines s).unbroken line hline (List.takeWhile_subset isBlank hmem)
  | lines ls => cases htext

/-! ## One line -/

@[simp] theorem indentation_one (unit : String) : indentation 1 unit = unit := by
  simp [indentation]

@[simp] theorem strip_nil (line : String) : strip [] line = line := by
  rw [strip_append (List.nil_append line.toList).symm, String.ofList_toList]

theorem append_strip_of_prefixed {run : List Char} {line : String} (h : run <+: line.toList) :
    String.ofList run ++ strip run line = line := by
  obtain ⟨rest, hrest⟩ := h
  rw [strip_append hrest.symm, ← String.ofList_append, hrest, String.ofList_toList]

/-- A line that does not start with the run is longer with the run in front. -/
theorem append_strip_of_not_prefixed {run : List Char} {line : String}
    (h : ¬ run <+: line.toList) : String.ofList run ++ strip run line ≠ line := by
  rw [strip_of_not_prefixed h]
  intro heq
  have hchars : run ++ line.toList = line.toList := by
    simpa using congrArg String.toList heq
  -- only the empty run adds nothing, and every line starts with that
  have hrun : run = [] := List.append_left_eq_self.mp hchars
  apply h
  rw [hrun]
  exact List.nil_prefix

theorem append_strip_eq_self_iff {run : List Char} {line : String} :
    String.ofList run ++ strip run line = line ↔ run <+: line.toList := by
  by_cases h : run <+: line.toList
  · exact iff_of_true (append_strip_of_prefixed h) h
  · exact iff_of_false (append_strip_of_not_prefixed h) h

theorem margin_dropWhile (line : List Char) : margin (line.dropWhile isBlank) = [] := by
  apply margin_eq_nil
  intro c hc
  have hhead := List.head?_dropWhile_not isBlank line
  rw [hc] at hhead
  exact hhead

/-! ## Blocks -/

/-- Without a margin in the first line there is nothing to take off. -/
theorem dedent_eq_self (h : ∀ first, b.toLines.head? = some first → margin first.toList = []) :
    b.dedent = b := by
  cases hlines : b.toLines with
  | nil => rw [dedent, hlines]
  | cons first rest =>
    have hfirst : margin first.toList = [] := h first (by rw [hlines, List.head?_cons])
    rw [dedent_of_toLines hlines, hfirst]
    apply mapLines_eq_self
    simp

/-- **Dedenting leaves nothing to dedent.** -/
theorem dedent_dedent (b : Block) : b.dedent.dedent = b.dedent := by
  apply dedent_eq_self
  intro first hfirst
  rw [head?_toLines_dedent] at hfirst
  obtain ⟨line, -, rfl⟩ := Option.map_eq_some_iff.mp hfirst
  rw [String.toList_ofList, margin_dropWhile]

/-- Dedenting and indenting by the margin that was taken away, as one change of every line. -/
theorem indent_dedent_of_head? {first : String} (h : b.toLines.head? = some first) :
    b.dedent.indent 1 (String.ofList (margin first.toList))
      = b.mapLines fun line =>
          String.ofList (margin first.toList) ++ strip (margin first.toList) line := by
  obtain ⟨rest, hlines⟩ := List.head?_eq_some_iff.mp h
  rw [dedent_of_toLines hlines, indent, indentation_one, mapLines_mapLines (keepsLines_strip b _)]
  rfl

/-- **Re-indenting undoes dedenting exactly when no line was skipped.** Taking the margin of the
first line away and putting it in front of every line again gives the same block, of the same shape,
if and only if all lines start with that margin. Dedenting twice is dedenting once. -/
theorem indent_dedent_eq_self_iff (b : Block) :
    (∀ first : String, b.toLines.head? = some first →
      (b.dedent.indent 1 (String.ofList (margin first.toList)) = b ↔
        ∀ line ∈ b.toLines, margin first.toList <+: line.toList)) ∧
      b.dedent.dedent = b.dedent := by
  refine ⟨?_, dedent_dedent b⟩
  intro first hfirst
  have hfeed : b.isText = true → '\n' ∉ (String.ofList (margin first.toList)).toList := by
    rw [String.toList_ofList]
    exact feed_not_mem_margin (List.mem_of_mem_head? hfirst)
  -- the block can be compared line by line, as no line feed comes in with the margin
  have hkeeps : b.KeepsLines fun line =>
      String.ofList (margin first.toList) ++ strip (margin first.toList) line := by
    have hindent := keepsLines_indent 1 hfeed
    rw [indentation_one] at hindent
    exact (keepsLines_strip b _).comp hindent
  rw [indent_dedent_of_head? hfirst, mapLines_eq_self_iff hkeeps]
  exact forall₂_congr fun line _ => append_strip_eq_self_iff

/-- Two lines that share their margin, and then a third that has only a part of it. -/
theorem indent_dedent_eq_self_iff_part :
    (text "\u3000\ta\n\u3000\t\tb").toLines.head? = some "\u3000\ta" ∧
      (text "\u3000\ta\n\u3000\t\tb").dedent.indent 1 "\u3000\t"
        = text "\u3000\ta\n\u3000\t\tb" ∧
      (text "\u3000\ta\n\u3000\t\tb\n\u3000").toLines.head? = some "\u3000\ta" ∧
      (text "\u3000\ta\n\u3000\t\tb\n\u3000").dedent.indent 1 "\u3000\t"
        ≠ text "\u3000\ta\n\u3000\t\tb\n\u3000" := by
  have hmargin : String.ofList (margin "\u3000\ta".toList) = "\u3000\t" := by decide
  have hfirst : (text "\u3000\ta\n\u3000\t\tb").toLines.head? = some "\u3000\ta" := by decide
  have hfirst' : (text "\u3000\ta\n\u3000\t\tb\n\u3000").toLines.head? = some "\u3000\ta" := by
    decide
  have hall := (indent_dedent_eq_self_iff _).1 _ hfirst
  have hpart := (indent_dedent_eq_self_iff _).1 _ hfirst'
  rw [hmargin] at hall hpart
  exact ⟨hfirst, hall.mpr (by decide), hfirst', mt hpart.mp (by decide)⟩

end Peg.Text.Block
