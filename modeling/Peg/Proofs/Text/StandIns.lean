import Mathlib.Data.List.Forall2
import Peg.Proofs.Text.Lines
import Peg.Text.Visible

/-!
# Blocks with their white space visible

Without a marked position a text is shown character by character. Such a change commutes with
splitting at the line feeds if it takes none away and makes none (**`splitLines_map`**). In a block
the line feed is shown as it is, and no stand-in is one (`standIn_noNewline_eq_feed_iff`). Any other
character is shown as it would be anywhere (`standIn_noNewline_eq_all`). So the lines of a block
made visible are its lines, each made visible by itself: **`toLines_renderBlock`**.
-/

namespace Peg.Text

/-! ## Changing every character -/

/-- Separators stay separators, and nothing else becomes one: then the pieces are the same ones. -/
theorem splitOn_map {α β : Type} [BEq α] [LawfulBEq α] [BEq β] [LawfulBEq β] {a : α} {b : β}
    {f : α → β} (hf : ∀ x, f x = b ↔ x = a) (xs : List α) :
    (xs.map f).splitOn b = (xs.splitOn a).map (List.map f) := by
  induction xs with
  | nil => rw [List.map_nil, List.splitOn_nil, List.splitOn_nil, List.map_singleton, List.map_nil]
  | cons x xs ih =>
    rw [List.map_cons, List.splitOn_cons_eq_if_modifyHead, List.splitOn_cons_eq_if_modifyHead, ih]
    by_cases hx : x = a
    · have hfx : f x = b := (hf x).mpr hx
      rw [if_pos (beq_iff_eq.mpr hx), if_pos (beq_iff_eq.mpr hfx), List.map_cons, List.map_nil]
    · have hfx : f x ≠ b := mt (hf x).mp hx
      -- `x` goes in front of the first piece, on either side
      obtain ⟨first, rest, hsplit⟩ := List.exists_cons_of_ne_nil (List.splitOn_ne_nil a xs)
      simp [hx, hfx, hsplit]

/-- A change of characters that neither makes nor takes feeds leaves the lines where they are. -/
theorem splitLines_map {f : Char → Char} (hf : ∀ c, f c = '\n' ↔ c = '\n') (s : String) :
    splitLines (String.ofList (s.toList.map f))
      = (splitLines s).map (fun line => String.ofList (line.toList.map f)) := by
  rw [splitLines, splitLines, String.toList_ofList, splitOn_map hf, List.map_map, List.map_map]
  apply List.map_congr_left
  intro piece _
  show String.ofList (piece.map f) = String.ofList ((String.ofList piece).toList.map f)
  rw [String.toList_ofList]

namespace Visibility

/-! ## One character -/

/-- A character is shown as itself or by its stand-in. -/
theorem standIn_cases (mode : Visibility) (c : Char) :
    mode.standIn c = c ∨ (c, mode.standIn c) ∈ mode.standIns := by
  unfold standIn
  cases h : mode.standIns.lookup c with
  | none => exact .inl rfl
  | some shown =>
    obtain ⟨before, after, happend, -⟩ := List.lookup_eq_some_iff.mp h
    rw [happend]
    right
    simp

theorem standIn_noNewline_eq_feed_iff (c : Char) : noNewline.standIn c = '\n' ↔ c = '\n' := by
  -- the line feed has no stand-in in a block, and is none
  have hpairs : ∀ p ∈ noNewline.standIns, p.1 ≠ '\n' ∧ p.2 ≠ '\n' := by simp [standIns]
  rcases standIn_cases noNewline c with h | h
  · rw [h]
  · exact iff_of_false (hpairs _ h).2 (hpairs _ h).1

/-- But for the feed, both modes have the same stand-ins. -/
theorem standIn_noNewline_eq_all {c : Char} (h : c ≠ '\n') :
    noNewline.standIn c = all.standIn c := by
  have hfeed : (c == '\n') = false := beq_eq_false_iff_ne.mpr h
  simp only [standIn, standIns, List.lookup_cons, hfeed]

/-! ## Texts and their lines -/

/-- One character stands in for each. -/
@[simp] theorem length_render (mode : Visibility) (s : String) :
    (mode.render s none).length = s.length := by
  rw [render, String.length_ofList, renderChars, List.length_map, String.length_toList]

/-- In a single line both modes show the same. -/
theorem render_noNewline_eq_all {line : String} (h : '\n' ∉ line.toList) :
    noNewline.render line none = all.render line none := by
  have hchars : line.toList.map noNewline.standIn = line.toList.map all.standIn := by
    apply List.map_congr_left
    intro c hc
    apply standIn_noNewline_eq_all
    rintro rfl
    exact h hc
  rw [render, render, renderChars, renderChars, hchars]

/-- **A block made visible keeps its lines.** They are those of the block, in order, each made
visible by itself; so there are as many, and each is as long as it was. -/
theorem toLines_renderBlock (s : String) :
    (Block.text (renderBlock s)).toLines
        = (Block.text s).toLines.map (fun line => all.render line none) ∧
      (Block.text (renderBlock s)).toLines.length = (Block.text s).toLines.length ∧
      List.Forall₂ (fun shown line => shown.length = line.length)
        (Block.text (renderBlock s)).toLines (Block.text s).toLines := by
  have hshown : (Block.text (renderBlock s)).toLines
      = (Block.text s).toLines.map (fun line => all.render line none) := by
    -- cut up first, and then the line feeds that the modes disagree on are gone
    have hblock : (Block.text (renderBlock s)).toLines
        = (Block.text s).toLines.map (fun line => noNewline.render line none) :=
      splitLines_map standIn_noNewline_eq_feed_iff s
    rw [hblock]
    apply List.map_congr_left
    intro line hline
    exact render_noNewline_eq_all ((areLines_splitLines s).unbroken line hline)
  rw [hshown, List.forall₂_map_left_iff, List.forall₂_same]
  refine ⟨rfl, List.length_map _, ?_⟩
  intro line _
  exact length_render all line

-- A stand-in that was in the text already, and line feeds behind carriage returns.
example : (Block.text (renderBlock "a ▼\r\n\r\n\tb")).toLines = ["a˳▼◄", "◄", "→b"] := by decide

end Visibility

end Peg.Text
