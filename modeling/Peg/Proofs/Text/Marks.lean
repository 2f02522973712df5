import Mathlib.Data.List.Basic
import Peg.Text.Visible

/-!
# Marks between characters

With a position marked, a rendering has a mark in front of every character, and one more at the end
if that is the position. So marks and characters take turns, and it does not matter whether a
character looks like a mark: **`unweave`** takes every other one, and **`unweave_renderChars`** says
that this gives the marks and the characters shown.

**`render_marked`** says so place by place. What is shown in raw mode is the text itself, and the
colon among the marks is at the position, so both can be read off the rendering (`unmark`).
-/

namespace Peg.Text.Visibility

/-! ## Taking turns -/

/-- The elements at even places and those at odd ones, counted from zero. -/
def unweave {α : Type} : List α → List α × List α
  | a :: b :: rest => (a :: (unweave rest).1, b :: (unweave rest).2)
  | rest => (rest, [])

variable {α β : Type}

/-- What stands at even places is the first part, what stands at odd places the second. -/
theorem getElem?_unweave (l : List α) (i : Nat) :
    (unweave l).1[i]? = l[2 * i]? ∧ (unweave l).2[i]? = l[2 * i + 1]? := by
  induction l using unweave.induct generalizing i with
  | case1 a b rest ih =>
    cases i with
    | zero => exact ⟨rfl, rfl⟩
    | succ i => exact ih i
  | case2 rest h =>
    cases rest with
    | nil => exact ⟨rfl, rfl⟩
    | cons a rest =>
      cases rest with
      | nil => cases i <;> exact ⟨rfl, rfl⟩
      | cons b rest => exact absurd rfl (h a b rest)

theorem length_unweave (l : List α) :
    (unweave l).1.length + (unweave l).2.length = l.length := by
  induction l using unweave.induct with
  | case1 a b rest ih =>
    rw [unweave, List.length_cons, List.length_cons, List.length_cons, List.length_cons, ← ih]
    omega
  | case2 rest h =>
    rw [unweave]
    · rfl
    · exact h

/-- Pairs behind each other come apart, and what is left behind them is at an even place. -/
theorem unweave_flatMap_append (f g : α → β) (l : List α) {tail : List β}
    (htail : tail.length ≤ 1) :
    unweave (l.flatMap (fun a => [f a, g a]) ++ tail) = (l.map f ++ tail, l.map g) := by
  induction l with
  | nil =>
    match tail, htail with
    | [], _ => rfl
    | [_], _ => rfl
  | cons a l ih =>
    show unweave (f a :: g a :: (l.flatMap (fun a => [f a, g a]) ++ tail)) = _
    rw [unweave, ih]
    rfl

/-! ## Renderings -/

/-- The marks in a text of `length` characters. -/
def marks (offset length : Nat) : List Char :=
  (List.range (if offset = length then length + 1 else length)).map (mark offset)

/-- The marks are one for each character, and one behind them if the offset is there. -/
theorem marks_eq (offset length : Nat) :
    marks offset length
      = (List.range length).map (mark offset) ++ if offset = length then [':'] else [] := by
  unfold marks
  split
  · next h => simp [List.range_succ, mark, h]
  · exact (List.append_nil _).symm

/-- **A rendering takes turns between marks and the characters shown.** -/
theorem unweave_renderChars (mode : Visibility) (cs : List Char) (offset : Nat) :
    unweave (mode.renderChars cs (some offset))
      = (marks offset cs.length, mode.renderChars cs none) := by
  have htail : (if offset = cs.length then [':'] else []).length ≤ 1 := by
    split <;> decide
  -- marks depend on the indices alone, and what is shown on the characters alone
  have hmarks : cs.zipIdx.map (fun p => mark offset p.2)
      = (List.range cs.length).map (mark offset) := by
    rw [List.range_eq_range', ← List.zipIdx_map_snd 0 cs, List.map_map]
    rfl
  have hshown : cs.zipIdx.map (fun p => mode.standIn p.1) = cs.map mode.standIn := by
    conv => rhs; rw [← List.zipIdx_map_fst 0 cs, List.map_map]
    rfl
  rw [marks_eq, ← hmarks]
  show _ = (_, cs.map mode.standIn)
  rw [← hshown]
  exact unweave_flatMap_append (fun p : Char × Nat => mark offset p.2) _ _ htail

@[simp] theorem length_marks (offset length : Nat) :
    (marks offset length).length = if offset = length then length + 1 else length := by
  rw [marks, List.length_map, List.length_range]

theorem getElem_marks {offset length i : Nat} (h : i < (marks offset length).length) :
    (marks offset length)[i] = mark offset i := by
  simp only [marks, List.getElem_map, List.getElem_range]

/-- The first colon among the marks is at the position, unless that is past the end. -/
theorem idxOf_marks {offset length : Nat} (h : offset ≤ length) :
    (marks offset length).idxOf ':' = offset := by
  have hlt : offset < (marks offset length).length := by
    simp only [length_marks]
    split <;> omega
  rw [List.idxOf, List.findIdx_eq hlt]
  constructor
  · rw [getElem_marks, mark, if_pos rfl]
    rfl
  · intro i hi
    rw [getElem_marks, mark, if_neg (Nat.ne_of_lt hi)]
    rfl

/-- The text and the position that a raw rendering was made for. -/
def unmark (rendering : String) : String × Nat :=
  (String.ofList (unweave rendering.toList).2, (unweave rendering.toList).1.idxOf ':')

theorem renderChars_raw (cs : List Char) : raw.renderChars cs none = cs :=
  List.map_id _

/-- The text and the offset can be read back from what is rendered. -/
theorem unmark_render {s : String} {offset : Nat} (h : offset ≤ s.length) :
    unmark (raw.render s (some offset)) = (s, offset) := by
  rw [← String.length_toList] at h
  rw [unmark, render, String.toList_ofList, unweave_renderChars, renderChars_raw, idxOf_marks h,
    String.ofList_toList]

/-- **Marks and characters take turns.** At the odd places there is what is shown without a
position; at the even ones a colon where the position is, and a space otherwise. A position at the
end is one more place. So text and position can be read off a raw rendering, if the position is in
the text. -/
theorem render_marked (mode : Visibility) (s : String) (offset : Nat) :
    let shown := (mode.render s none).toList
    let marked := (mode.render s (some offset)).toList
    shown.length = s.length ∧
      (∀ i, marked[2 * i + 1]? = shown[i]?) ∧
      (∀ i, 2 * i < marked.length → marked[2 * i]? = some (if i = offset then ':' else ' ')) ∧
      marked.length = (if offset = s.length then 2 * s.length + 1 else 2 * s.length) ∧
      (offset ≤ s.length → unmark (raw.render s (some offset)) = (s, offset)) := by
  intro shown marked
  have hshown : shown.length = s.length := by
    show (String.ofList (s.toList.map mode.standIn)).toList.length = s.length
    rw [String.toList_ofList, List.length_map, String.length_toList]
  have hturns : unweave marked = (marks offset s.length, shown) := by
    show unweave (String.ofList _).toList = (_, (String.ofList _).toList)
    rw [String.toList_ofList, String.toList_ofList, unweave_renderChars, String.length_toList]
  have hlength : marked.length = (marks offset s.length).length + s.length := by
    rw [← length_unweave, hturns, hshown]
  refine ⟨hshown, fun i => ?_, fun i hi => ?_, ?_, unmark_render⟩
  · rw [← (getElem?_unweave marked i).2, hturns]
  · -- an even place in the rendering is a place among the marks
    have hmark : i < (marks offset s.length).length := by
      have hbound := length_marks offset s.length
      split at hbound <;> omega
    rw [← (getElem?_unweave marked i).1, hturns]
    show (marks offset s.length)[i]? = some (mark offset i)
    rw [List.getElem?_eq_getElem hmark, getElem_marks]
  · rw [hlength, length_marks]
    split <;> omega

/-- A text of spaces and colons, with the position at its end. -/
theorem render_marked_colons :
    (raw.render ": :" (some 3)).toList.length = 7 ∧
      2 * 3 < (raw.render ": :" (some 3)).toList.length ∧
      (raw.render ": :" (some 3)).toList[2 * 3]? = some ':' ∧ 3 ≤ ": :".length ∧
      unmark (raw.render ": :" (some 3)) = (": :", 3) := by
  obtain ⟨-, -, heven, hlength, hunmark⟩ := render_marked raw ": :" 3
  have hseven : (raw.render ": :" (some 3)).toList.length = 7 := hlength.trans (by decide)
  have hlt : 2 * 3 < (raw.render ": :" (some 3)).toList.length := by
    rw [hseven]
    decide
  exact ⟨hseven, hlt, heven 3 hlt, by decide, hunmark (by decide)⟩

end Peg.Text.Visibility
