import Peg.Proofs.Text.Lines

/-!
# The two shapes of a block stay together

A block given as one text and the same block given as its lines can be laid out by the same edits.
The text is cut up and joined again at every step, the lines are not. That both come to the same is
a simulation: **`Twins`** relates a text to its lines, an edit keeps it (`Twins.apply`), so a run of
edits does (`Twins.run`), and twins have the same lines and the same text.

What may not happen is that an edit puts a line feed into a line, since the text would have one line
more from then on. Only the unit of an indentation could do that.

A block can also be turned from one shape into the other. From a text and back nothing is lost; from
a list and back only what could not be the lines of a text: **`shapes_round_trip`**.
-/

namespace Peg.Text.Block

/-- A change of a block's layout. -/
inductive Edit
  | indent (level : Nat) (unit : String)
  | dedent
  deriving DecidableEq, Repr

/-- A block after an edit. -/
def Edit.apply : Edit → Block → Block
  | indent level unit, b => b.indent level unit
  | dedent, b => b.dedent

/-- Edits that put no line feed into a line. -/
def Edit.KeepsLines : Edit → Prop
  | indent _ unit => '\n' ∉ unit.toList
  | dedent => True

/-- A block after edits, one after the other. -/
def run (edits : List Edit) (b : Block) : Block :=
  edits.foldl (fun b edit => edit.apply b) b

/-- A text, and the list of its lines. -/
inductive Twins : Block → Block → Prop
  | intro {ls : List String} (h : AreLines ls) : Twins (text (joinLines ls)) (lines ls)

namespace Twins

variable {b b' : Block}

/-- A text and its lines are twins at first. -/
theorem of_text (s : String) : Twins (text s) (lines (splitLines s)) := by
  have htwins := Twins.intro (areLines_splitLines s)
  rwa [joinLines_splitLines] at htwins

theorem toLines_eq (h : Twins b b') : b.toLines = b'.toLines := by
  obtain ⟨hlines⟩ := h
  exact splitLines_joinLines hlines

theorem toText_eq (h : Twins b b') : b.toText = b'.toText := by
  obtain ⟨-⟩ := h
  rfl

/-- The one twin is a text and the other lines, whatever has been done to both. -/
theorem shapes (h : Twins b b') : ∃ s ls, b = text s ∧ b' = lines ls := by
  obtain ⟨-⟩ := h
  exact ⟨_, _, rfl, rfl⟩

/-! ## One edit -/

/-- Changing twins line by line keeps them twins, if no line feed comes in. -/
theorem mapLines (h : Twins b b') {f : String → String}
    (hf : ∀ line, '\n' ∉ line.toList → '\n' ∉ (f line).toList) :
    Twins (b.mapLines f) (b'.mapLines f) := by
  obtain ⟨hlines⟩ := h
  -- the text is split to be changed; that gives the lines the other block has kept
  show Twins (text (joinLines ((splitLines (joinLines _)).map f))) (lines (List.map f _))
  rw [splitLines_joinLines hlines]
  exact .intro (hlines.map hf)

/-- Indenting keeps twins: it goes line by line. -/
theorem indent (h : Twins b b') (level : Nat) {unit : String} (hunit : '\n' ∉ unit.toList) :
    Twins (b.indent level unit) (b'.indent level unit) :=
  h.mapLines fun _ hline => not_mem_indentation level hunit hline

/-- So does dedenting, as both have the same first line. -/
theorem dedent (h : Twins b b') : Twins b.dedent b'.dedent := by
  unfold Block.dedent
  rw [h.toLines_eq]
  -- both look at the same first line, and take the same run away
  split
  · exact h
  · exact h.mapLines fun _ hline => not_mem_strip _ hline

theorem apply (h : Twins b b') {edit : Edit} (hedit : edit.KeepsLines) :
    Twins (edit.apply b) (edit.apply b') := by
  cases edit with
  | indent level unit => exact h.indent level hedit
  | dedent => exact h.dedent

/-! ## Runs -/

/-- A run of edits keeps twins, since every edit does. -/
theorem run (h : Twins b b') {edits : List Edit} (hedits : ∀ edit ∈ edits, edit.KeepsLines) :
    Twins (run edits b) (run edits b') := by
  induction edits generalizing b b' with
  | nil => exact h
  | cons edit edits ih =>
    obtain ⟨hedit, hedits⟩ := List.forall_mem_cons.mp hedits
    exact ih (h.apply hedit) hedits

end Twins

/-- **A text and the list of its lines never drift apart.** All through a run of edits they keep
their shapes, and after it they have the same lines and the same text. -/
theorem run_text_eq_run_lines (s : String) (edits : List Edit)
    (h : ∀ edit ∈ edits, edit.KeepsLines) :
    (∀ front, front <+: edits →
        ∃ s' ls, run front (text s) = text s' ∧ run front (lines (splitLines s)) = lines ls) ∧
      (run edits (text s)).toLines = (run edits (lines (splitLines s))).toLines ∧
      (run edits (text s)).toText = (run edits (lines (splitLines s))).toText := by
  have htwins := (Twins.of_text s).run h
  refine ⟨?_, htwins.toLines_eq, htwins.toText_eq⟩
  intro front hfront
  exact ((Twins.of_text s).run fun edit hedit => h edit (hfront.subset hedit)).shapes

/-- A dedent and an indent by a unit that is blank to Unicode only. -/
theorem run_text_eq_run_lines_two_edits :
    (∀ edit ∈ [Edit.dedent, .indent 2 "\u3000"], edit.KeepsLines) ∧
      (∃ s' ls, run [.dedent, .indent 2 "\u3000"] (text " a\n  b") = text s' ∧
        run [.dedent, .indent 2 "\u3000"] (lines (splitLines " a\n  b")) = lines ls) ∧
      (run [.dedent, .indent 2 "\u3000"] (text " a\n  b")).toLines
        = (run [.dedent, .indent 2 "\u3000"] (lines (splitLines " a\n  b"))).toLines ∧
      (run [.dedent, .indent 2 "\u3000"] (text " a\n  b")).toText
        = (run [.dedent, .indent 2 "\u3000"] (lines (splitLines " a\n  b"))).toText := by
  have hedits : ∀ edit ∈ [Edit.dedent, .indent 2 "\u3000"], edit.KeepsLines := by
    simp [Edit.KeepsLines]
  obtain ⟨hshapes, hsame⟩ := run_text_eq_run_lines " a\n  b" [.dedent, .indent 2 "\u3000"] hedits
  exact ⟨hedits, hshapes _ List.prefix_rfl, hsame⟩

/-! ## From one shape to the other -/

/-- A block is shown as its text, whatever its shape. -/
theorem display_eq_toText (b : Block) : b.display = b.toText := by
  cases b with
  | text s => exact joinLines_splitLines s
  | lines ls => rfl

@[simp] theorem toText_toLines (b : Block) : (lines b.toLines).toText = b.toText :=
  display_eq_toText b

/-- Lines come back from their text if there are any and none of them holds a feed. -/
theorem toLines_toText_iff {ls : List String} :
    (text (lines ls).toText).toLines = ls ↔ ls ≠ [] ∧ ∀ line ∈ ls, '\n' ∉ line.toList := by
  show splitLines (joinLines ls) = ls ↔ _
  rw [splitLines_joinLines_iff]
  constructor
  · intro h
    exact ⟨h.nonempty, h.unbroken⟩
  · intro h
    exact ⟨h.1, h.2⟩

/-- **Turning a block into the other shape and back loses nothing, with one exception.** A text is
had back from its lines. A list is had back from its text exactly if it has a line and no line has a
line feed. What is shown of a block is its text. -/
theorem shapes_round_trip (s : String) (ls : List String) (b : Block) :
    (lines (text s).toLines).toText = s ∧
      ((text (lines ls).toText).toLines = ls ↔ ls ≠ [] ∧ ∀ line ∈ ls, '\n' ∉ line.toList) ∧
      b.display = b.toText :=
  ⟨toText_toLines (text s), toLines_toText_iff, display_eq_toText b⟩

end Peg.Text.Block
