import Peg.Proofs.Text.Lines

/-!
# Margins

Dedenting takes the blank run of the first line, its margin, away from every line that starts with
it. After indenting that run is longer: it is what was put in front of the line and then the run the
line had. So dedenting takes both away together, or neither. **`strip_indented`** says this for one
line, and **`dedent_indent`** for a block.

A block is changed line by line. In one text the changed lines are found again if no line feed has
come into any of them (**`toLines_mapLines`**); a list keeps its lines whatever they hold.
-/

namespace Peg.Text.Block

/-! ## Changing all lines -/

/-- Whether the block is one text. -/
def isText : Block → Bool
  | text _ => true
  | lines _ => false

/-- A change that puts no line feed into a line, if the block is one text. -/
def KeepsLines (b : Block) (f : String → String) : Prop :=
  b.isText = true → ∀ line, '\n' ∉ line.toList → '\n' ∉ (f line).toList

variable {b : Block} {f : String → String}

@[simp] theorem isText_mapLines (b : Block) (f : String → String) :
    (b.mapLines f).isText = b.isText := by
  cases b <;> rfl

/-- The lines of a block are changed one by one if none of them is broken up. -/
theorem toLines_mapLines (h : b.KeepsLines f) : (b.mapLines f).toLines = b.toLines.map f := by
  cases b with
  | text s => exact splitLines_joinLines ((areLines_splitLines s).map (h rfl))
  | lines ls => rfl

/-- Two changes line by line are one. -/
theorem mapLines_mapLines (h : b.KeepsLines f) (g : String → String) :
    (b.mapLines f).mapLines g = b.mapLines (g ∘ f) := by
  cases b with
  | text s =>
    have hlines : splitLines (joinLines ((splitLines s).map f)) = (splitLines s).map f :=
      toLines_mapLines h
    show text (joinLines ((splitLines (joinLines ((splitLines s).map f))).map g)) = _
    rw [hlines, List.map_map]
    rfl
  | lines ls =>
    show lines ((ls.map f).map g) = lines (ls.map (g ∘ f))
    rw [List.map_map]

theorem mapLines_eq_self (h : ∀ line ∈ b.toLines, f line = line) : b.mapLines f = b := by
  have hmap : b.toLines.map f = b.toLines := (List.map_congr_left h).trans (List.map_id' _)
  cases b with
  | text s =>
    show text (joinLines ((text s).toLines.map f)) = text s
    rw [hmap]
    exact congrArg text (joinLines_splitLines s)
  | lines ls => exact congrArg lines hmap

theorem keepsLines_indent (level : Nat) {unit : String}
    (h : b.isText = true → '\n' ∉ unit.toList) :
    b.KeepsLines (indentation level unit ++ ·) :=
  fun htext _ hline => not_mem_indentation level (h htext) hline

theorem keepsLines_strip (b : Block) (run : List Char) : b.KeepsLines (strip run) :=
  fun _ _ hline => not_mem_strip run hline

/-- Dedenting takes the margin of the first line off all lines that have it. -/
theorem dedent_of_toLines {first : String} {rest : List String} (h : b.toLines = first :: rest) :
    b.dedent = b.mapLines (strip (margin first.toList)) := by
  rw [dedent, h]

/-! ## One line -/

/-- A run is taken off a line that starts with it. -/
theorem strip_append {run rest : List Char} {line : String} (h : line.toList = run ++ rest) :
    strip run line = String.ofList rest := by
  have hrest : run.isPrefixOf? line.toList = some rest :=
    List.isPrefixOf?_eq_some_iff_append_eq.mpr h.symm
  rw [strip, hrest]

theorem strip_of_not_prefixed {run : List Char} {line : String} (h : ¬ run <+: line.toList) :
    strip run line = line := by
  unfold strip
  split
  · next rest hrest => exact absurd ⟨rest, List.isPrefixOf?_eq_some_iff_append_eq.mp hrest⟩ h
  · rfl

/-- What was put in front of a line can be taken away again. -/
theorem strip_front (front line : String) : strip front.toList (front ++ line) = line := by
  rw [strip_append String.toList_append, String.ofList_toList]

/-- There is nothing to take away from an empty line. -/
theorem strip_empty (run : List Char) : strip run "" = "" := by
  cases run with
  | nil => exact strip_append rfl
  | cons c run => exact strip_of_not_prefixed (mt List.prefix_nil.mp (List.cons_ne_nil c run))

/-- A blank front is part of the margin. -/
theorem margin_append {front : List Char} (h : ∀ c ∈ front, isBlank c = true) (line : List Char) :
    margin (front ++ line) = front ++ margin line :=
  List.takeWhile_append_of_pos h

theorem margin_eq_nil {line : List Char} (h : ∀ c, line.head? = some c → isBlank c = false) :
    margin line = [] := by
  cases line with
  | nil => rfl
  | cons c cs =>
    have hc : isBlank c = false := h c rfl
    exact List.takeWhile_cons_of_neg (by simp [hc])

/-- A line that was indented by `front` and dedented with a block of the margin `run`. -/
def realign (run : List Char) (front line : String) : String :=
  if run <+: line.toList then strip run line else front ++ line

/-- Realigning takes a run off a line that starts with it, and the front is not put in its place. -/
theorem realign_append {run rest : List Char} {line : String} (h : line.toList = run ++ rest)
    (front : String) : realign run front line = String.ofList rest := by
  rw [realign, if_pos ⟨rest, h.symm⟩, strip_append h]

theorem realign_of_not_prefixed {run : List Char} {line : String} (h : ¬ run <+: line.toList)
    (front : String) : realign run front line = front ++ line :=
  if_neg h

/-- Every line starts with the empty margin. -/
theorem realign_nil (front line : String) : realign [] front line = line := by
  rw [realign_append (List.nil_append line.toList).symm, String.ofList_toList]

/-- **What was put in front of a line goes with the run the line had**, or stays with it. -/
theorem strip_indented (run : List Char) (front line : String) :
    strip (front.toList ++ run) (front ++ line) = realign run front line := by
  by_cases hrun : run <+: line.toList
  · obtain ⟨rest, hrest⟩ := hrun
    have hline : (front ++ line).toList = (front.toList ++ run) ++ rest := by
      rw [String.toList_append, ← hrest, List.append_assoc]
    rw [realign_append hrest.symm, strip_append hline]
  · have hfront : ¬ (front.toList ++ run) <+: (front ++ line).toList := by
      rw [String.toList_append, List.prefix_append_right_inj]
      exact hrun
    rw [realign_of_not_prefixed hrun, strip_of_not_prefixed hfront]

/-! ## Blocks -/

/-- The first line of a dedented block is what is left of it behind its margin. -/
theorem head?_toLines_dedent (b : Block) :
    b.dedent.toLines.head?
      = b.toLines.head?.map fun first => String.ofList (first.toList.dropWhile isBlank) := by
  cases hlines : b.toLines with
  | nil =>
    rw [dedent, hlines]
    show b.toLines.head? = none
    rw [hlines]
    rfl
  | cons first rest =>
    have hkeeps := keepsLines_strip b (margin first.toList)
    have hfirst : first.toList = margin first.toList ++ first.toList.dropWhile isBlank :=
      List.takeWhile_append_dropWhile.symm
    rw [dedent_of_toLines hlines, toLines_mapLines hkeeps, hlines]
    exact congrArg some (strip_append hfirst)

theorem keepsLines_realign (run : List Char) (level : Nat) {unit : String}
    (h : b.isText = true → '\n' ∉ unit.toList) :
    b.KeepsLines (realign run (indentation level unit)) := by
  intro htext line hline
  unfold realign
  split
  · exact not_mem_strip run hline
  · exact not_mem_indentation level (h htext) hline

/-- A block that was indented by blank characters, dedented. -/
theorem dedent_indent_of_toLines {first : String} {rest : List String} {level : Nat}
    {unit : String} (hunit : ∀ c ∈ unit.toList, isBlank c = true)
    (hfeed : b.isText = true → '\n' ∉ unit.toList) (hlines : b.toLines = first :: rest) :
    (b.indent level unit).dedent
      = b.mapLines (realign (margin first.toList) (indentation level unit)) := by
  have hkeeps := keepsLines_indent level hfeed
  have hindented : (b.indent level unit).toLines
      = (indentation level unit ++ first) :: rest.map (indentation level unit ++ ·) := by
    rw [indent, toLines_mapLines hkeeps, hlines, List.map_cons]
  have hblank : ∀ c ∈ (indentation level unit).toList, isBlank c = true :=
    fun c hc => hunit c (mem_of_mem_indentation hc)
  have hmargin : margin (indentation level unit ++ first).toList
      = (indentation level unit).toList ++ margin first.toList := by
    rw [String.toList_append, margin_append hblank]
  rw [dedent_of_toLines hindented, hmargin, indent, mapLines_mapLines hkeeps]
  congr 1
  funext line
  exact strip_indented ..

/-- A text has one line at least, so a block without lines is no text. -/
theorem eq_of_toLines_eq_nil (h : b.toLines = []) : b = lines [] := by
  cases b with
  | text s => exact absurd h (areLines_splitLines s).nonempty
  | lines ls => exact congrArg lines h

/-- **Dedenting after indenting by blank characters.** The block keeps its shape and the number of
its lines. A line that starts with the margin of the first one loses it, any other is left indented.
So a block whose first line has no margin comes back as it was. -/
theorem dedent_indent (b : Block) (level : Nat) (unit : String)
    (hunit : ∀ c ∈ unit.toList, isBlank c = true)
    (hfeed : b.isText = true → '\n' ∉ unit.toList) :
    let after := (b.indent level unit).dedent
    after.isText = b.isText ∧ after.toLines.length = b.toLines.length ∧
      (∀ first : String, b.toLines.head? = some first →
        ∀ (i : Nat) (line : String), b.toLines[i]? = some line →
          (∀ rest, line.toList = margin first.toList ++ rest →
            after.toLines[i]? = some (String.ofList rest)) ∧
          (¬ margin first.toList <+: line.toList →
            after.toLines[i]? = some (indentation level unit ++ line))) ∧
      ((∀ first : String, b.toLines.head? = some first →
          ∀ c, first.toList.head? = some c → isBlank c = false) →
        after = b) := by
  intro after
  cases hlines : b.toLines with
  | nil =>
    -- there is no line to be indented
    have hafter : after = b := by
      show (b.indent level unit).dedent = b
      rw [eq_of_toLines_eq_nil hlines]
      rfl
    rw [hafter, hlines]
    exact ⟨rfl, rfl, nofun, fun _ => rfl⟩
  | cons first rest =>
    have heq : after = b.mapLines (realign (margin first.toList) (indentation level unit)) :=
      dedent_indent_of_toLines hunit hfeed hlines
    have hafter : after.toLines
        = b.toLines.map (realign (margin first.toList) (indentation level unit)) := by
      rw [heq, toLines_mapLines (keepsLines_realign _ level hfeed)]
    refine ⟨?_, ?_, ?_, ?_⟩
    · rw [heq, isText_mapLines]
    · rw [hafter, List.length_map, hlines]
    · rintro first' ⟨⟩ i line hline
      have hline' : after.toLines[i]?
          = some (realign (margin first.toList) (indentation level unit) line) := by
        rw [hafter, List.getElem?_map, hlines, hline]
        rfl
      constructor
      · intro tail htail
        rw [hline', realign_append htail]
      · intro hrun
        rw [hline', realign_of_not_prefixed hrun]
    · intro hfirst
      rw [heq, margin_eq_nil (hfirst first rfl)]
      exact mapLines_eq_self fun line _ => realign_nil _ line

/-- The first line has a margin of one space, the second has none and stays indented. -/
theorem dedent_indent_second_line :
    (∀ c ∈ "\u3000".toList, isBlank c = true) ∧
      ((text " a\nb\n  c").isText = true → '\n' ∉ "\u3000".toList) ∧
      ((text " a\nb\n  c").indent 2 "\u3000").dedent.toLines[1]? = some "\u3000\u3000b" := by
  have hunit : ∀ c ∈ "\u3000".toList, isBlank c = true := List.all_eq_true.mp (by decide)
  have hfeed : (text " a\nb\n  c").isText = true → '\n' ∉ "\u3000".toList := by decide
  obtain ⟨-, -, hlines, -⟩ := dedent_indent (text " a\nb\n  c") 2 "\u3000" hunit hfeed
  exact ⟨hunit, hfeed, (hlines " a" (by decide) 1 "b" (by decide)).2 (by decide)⟩

end Peg.Text.Block
