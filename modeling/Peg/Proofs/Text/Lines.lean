import Mathlib.Data.List.Basic
import Peg.Text.Block

/-!
# Lines of a text

Splitting a text at its line feeds and joining the pieces again loses nothing
(**`joinLines_splitLines`**). The other way round, lines that are joined come apart as they were if
there is at least one of them and no line feed in any, as two lines would become three or none one:
**`splitLines_joinLines`**. `AreLines` is what a list of strings needs to be the lines of a text.

Indenting and dedenting add characters in front of a line or take them away, so a line feed can
only come with the unit (`not_mem_indentation`, `not_mem_strip`).
-/

namespace Peg.Text

/-- What the lines of a text are: at least one, and no line feed in any. -/
structure AreLines (lines : List String) : Prop where
  nonempty : lines ≠ []
  unbroken : ∀ line ∈ lines, '\n' ∉ line.toList

/-! ## Splitting and joining -/

theorem not_mem_of_mem_splitOn {α : Type} [BEq α] [LawfulBEq α] {a : α} {xs piece : List α}
    (h : piece ∈ xs.splitOn a) : a ∉ piece := by
  induction xs generalizing piece with
  | nil =>
    rw [List.splitOn_nil, List.mem_singleton] at h
    rw [h]
    exact List.not_mem_nil
  | cons x xs ih =>
    rw [List.splitOn_cons_eq_if_modifyHead] at h
    obtain ⟨first, rest, hsplit⟩ := List.exists_cons_of_ne_nil (List.splitOn_ne_nil a xs)
    rw [hsplit] at h ih
    split at h
    · rcases List.mem_cons.mp h with rfl | h
      · exact List.not_mem_nil
      · exact ih h
    · next hx =>
      rw [List.modifyHead_cons] at h
      rcases List.mem_cons.mp h with rfl | h
      · -- `x` goes in front of the first piece, and is no separator
        rw [List.mem_cons, not_or]
        refine ⟨?_, ih (List.mem_cons_self ..)⟩
        rintro rfl
        exact hx (beq_self_eq_true a)
      · exact ih (List.mem_cons_of_mem _ h)

theorem toList_joinLines (lines : List String) :
    (joinLines lines).toList = ['\n'].intercalate (lines.map String.toList) := by
  rw [joinLines, String.toList_intercalate]
  rfl

/-- **A text is its lines, joined.** -/
@[simp] theorem joinLines_splitLines (s : String) : joinLines (splitLines s) = s := by
  rw [← String.toList_inj, toList_joinLines, splitLines, List.map_map]
  have hid : String.toList ∘ String.ofList = id := funext fun _ => String.toList_ofList
  rw [hid, List.map_id, List.intercalate_splitOn]

/-- A text is split into one line at least, and feeds are not in them. -/
theorem areLines_splitLines (s : String) : AreLines (splitLines s) := by
  refine ⟨?_, ?_⟩
  · intro h
    exact List.splitOn_ne_nil '\n' s.toList (List.map_eq_nil_iff.mp h)
  · intro line hline
    obtain ⟨piece, hpiece, rfl⟩ := List.mem_map.mp hline
    rw [String.toList_ofList]
    exact not_mem_of_mem_splitOn hpiece

/-- **Lines that are joined come apart as they were.** -/
theorem splitLines_joinLines {lines : List String} (h : AreLines lines) :
    splitLines (joinLines lines) = lines := by
  -- joining is undone by splitting on lists of characters; texts are those lists and back
  have hunbroken : ∀ piece ∈ lines.map String.toList, '\n' ∉ piece := by
    intro piece hpiece
    obtain ⟨line, hline, rfl⟩ := List.mem_map.mp hpiece
    exact h.unbroken line hline
  have hnonempty : lines.map String.toList ≠ [] := mt List.map_eq_nil_iff.mp h.nonempty
  rw [splitLines, toList_joinLines, List.splitOn_intercalate '\n' hunbroken hnonempty,
    List.map_map]
  have hid : String.ofList ∘ String.toList = id := funext fun _ => String.ofList_toList
  rw [hid, List.map_id]

/-- No other list comes apart as it was: what a text is split into are lines. -/
theorem splitLines_joinLines_iff {lines : List String} :
    splitLines (joinLines lines) = lines ↔ AreLines lines := by
  constructor
  · intro h
    rw [← h]
    exact areLines_splitLines _
  · exact splitLines_joinLines

theorem AreLines.map {lines : List String} (h : AreLines lines) {f : String → String}
    (hf : ∀ line, '\n' ∉ line.toList → '\n' ∉ (f line).toList) : AreLines (lines.map f) := by
  refine ⟨mt List.map_eq_nil_iff.mp h.nonempty, ?_⟩
  intro line hline
  obtain ⟨source, hsource, rfl⟩ := List.mem_map.mp hline
  exact hf source (h.unbroken source hsource)

/-! ## Line feeds -/

theorem toList_joinLines_cons_cons (first second : String) (rest : List String) :
    (joinLines (first :: second :: rest)).toList
      = first.toList ++ '\n' :: (joinLines (second :: rest)).toList := by
  rw [toList_joinLines, toList_joinLines, List.map_cons, List.map_cons,
    List.intercalate_cons_cons, List.append_assoc]
  rfl

theorem toList_joinLines_singleton (line : String) : (joinLines [line]).toList = line.toList := by
  rw [toList_joinLines]
  exact List.intercalate_singleton

/-- There is a line feed between any two lines, and no other. -/
theorem count_joinLines {lines : List String} (h : AreLines lines) :
    (joinLines lines).toList.count '\n' + 1 = lines.length := by
  obtain ⟨hnonempty, hunbroken⟩ := h
  induction lines with
  | nil => exact absurd rfl hnonempty
  | cons first rest ih =>
    obtain ⟨hfirst, hrest⟩ := List.forall_mem_cons.mp hunbroken
    have hcount : first.toList.count '\n' = 0 := List.count_eq_zero.mpr hfirst
    cases rest with
    | nil => rw [toList_joinLines_singleton, hcount, List.length_singleton]
    | cons second rest =>
      have hlater := ih (List.cons_ne_nil _ _) hrest
      rw [toList_joinLines_cons_cons, List.count_append, hcount, List.count_cons_self,
        List.length_cons, ← hlater]
      omega

/-- A line feed behind the last line begins an empty one. -/
theorem joinLines_append_feed {lines : List String} (h : lines ≠ []) :
    joinLines lines ++ "\n" = joinLines (lines ++ [""]) := by
  rw [← String.toList_inj, String.toList_append]
  induction lines with
  | nil => exact absurd rfl h
  | cons first rest ih =>
    cases rest with
    | nil =>
      show (joinLines [first]).toList ++ ['\n'] = (joinLines [first, ""]).toList
      rw [toList_joinLines_cons_cons, toList_joinLines_singleton, toList_joinLines_singleton]
      rfl
    | cons second rest =>
      have hlater := ih (List.cons_ne_nil _ _)
      rw [List.cons_append] at hlater
      rw [List.cons_append, List.cons_append, toList_joinLines_cons_cons,
        toList_joinLines_cons_cons, ← hlater, List.append_assoc]
      rfl

/-- A feed at the end of a text leaves one more line, which is empty. -/
theorem AreLines.append_empty {lines : List String} (h : AreLines lines) :
    AreLines (lines ++ [""]) := by
  refine ⟨List.append_ne_nil_of_left_ne_nil h.nonempty _, ?_⟩
  intro line hline
  rcases List.mem_append.mp hline with hline | hline
  · exact h.unbroken line hline
  · rw [List.mem_singleton.mp hline]
    exact List.not_mem_nil

/-! ## Changes to a line -/

namespace Block

theorem length_indentation (level : Nat) (unit : String) :
    (indentation level unit).toList.length = level * unit.toList.length := by
  rw [indentation, String.toList_ofList, List.length_flatten, List.map_replicate,
    List.sum_replicate_nat]

/-- An indentation is made of the characters of its unit. -/
theorem mem_of_mem_indentation {c : Char} {level : Nat} {unit : String}
    (h : c ∈ (indentation level unit).toList) : c ∈ unit.toList := by
  rw [indentation, String.toList_ofList] at h
  obtain ⟨piece, hpiece, hc⟩ := List.mem_flatten.mp h
  rw [List.eq_of_mem_replicate hpiece] at hc
  exact hc

theorem not_mem_indentation {c : Char} {unit line : String} (level : Nat)
    (hunit : c ∉ unit.toList) (hline : c ∉ line.toList) :
    c ∉ (indentation level unit ++ line).toList := by
  rw [String.toList_append, List.mem_append, not_or]
  exact ⟨fun h => hunit (mem_of_mem_indentation h), hline⟩

theorem not_mem_strip {c : Char} (run : List Char) {line : String} (hline : c ∉ line.toList) :
    c ∉ (strip run line).toList := by
  unfold strip
  split
  · next rest hrest =>
    have happend : run ++ rest = line.toList := List.isPrefixOf?_eq_some_iff_append_eq.mp hrest
    rw [String.toList_ofList]
    intro hc
    exact hline (happend ▸ List.mem_append_right run hc)
  · exact hline

end Block

end Peg.Text
