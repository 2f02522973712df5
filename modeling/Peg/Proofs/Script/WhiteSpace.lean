import Peg.Presence
import Peg.Proofs.Text.Margins

/-!
# White space in generated source

ECMAScript has its own list of the characters that are white space or end a line. The characters
that count as blank here are taken from Unicode's `White_Space`, with the byte-order mark added.
**`isBlank_iff`** compares the two: the lists agree on every character but one, the control U+0085,
which ends a line in Unicode and is nothing in ECMAScript. What is empty and what a margin is differ
by that character and by no other: **`isEmpty_and_dedent_iff`**.
-/

namespace Peg.Script

open Text

/-- Unicode's space separators. -/
def spaceSeparators : CodeRanges :=
  [(0x20, 0x20), (0xA0, 0xA0), (0x1680, 0x1680), (0x2000, 0x200A), (0x202F, 0x202F),
    (0x205F, 0x205F), (0x3000, 0x3000)]

/-- White space: the tab, the vertical tab, the form feed, the byte-order mark, the separators. -/
def whiteSpace : CodeRanges :=
  [(0x9, 0x9), (0xB, 0xB), (0xC, 0xC), (0xFEFF, 0xFEFF)] ++ spaceSeparators

/-- The characters that end a line. -/
def lineTerminators : CodeRanges :=
  [(0xA, 0xA), (0xD, 0xD), (0x2028, 0x2028), (0x2029, 0x2029)]

/-- White space or the end of a line. -/
def isSpace (c : Char) : Bool :=
  whiteSpace.contains c || lineTerminators.contains c

/-- The control that ends a line in Unicode only. -/
def nextLine : Char := '\u0085'

/-- **Blank characters are the white space of scripts, and U+0085.** -/
theorem isBlank_iff {c : Char} : isBlank c = true ↔ isSpace c = true ∨ c = nextLine := by
  have hnext : c = nextLine ↔ c.toNat = 0x85 := by
    rw [← Char.toNat_inj]
    rfl
  have hmark : c = byteOrderMark ↔ c.toNat = 0xFEFF := by
    rw [← Char.toNat_inj]
    rfl
  simp [isBlank, isSpace, Text.whiteSpace, whiteSpace, spaceSeparators, lineTerminators, hnext,
    hmark]
  omega

theorem forall_isBlank_iff {cs : List Char} :
    cs.all isBlank = true ↔ ∀ c ∈ cs, isSpace c = true ∨ c = nextLine := by
  rw [List.all_eq_true]
  exact forall₂_congr fun _ _ => isBlank_iff

/-! ## Empty texts -/

/-- U+0085 stands in a text that else is white space, or nothing. -/
def NextLineAmongSpaces (cs : List Char) : Prop :=
  nextLine ∈ cs ∧ ∀ c ∈ cs, isSpace c = true ∨ c = nextLine

/-- Whether a text is blank is a matter of space alone, unless U+0085 stands in it among spaces. -/
theorem all_isBlank_iff_all_isSpace {cs : List Char} :
    (cs.all isBlank = true ↔ ∀ c ∈ cs, isSpace c = true) ↔ ¬ NextLineAmongSpaces cs := by
  rw [forall_isBlank_iff]
  constructor
  · rintro h ⟨hmem, hall⟩
    have hspace : isSpace nextLine = true := h.mp hall nextLine hmem
    exact absurd hspace (by decide)
  · intro h
    constructor
    · intro hall c hc
      rcases hall c hc with hspace | rfl
      · exact hspace
      · exact absurd ⟨hc, hall⟩ h
    · intro hall c hc
      exact .inl (hall c hc)

/-! ## Margins -/

/-- What is left behind the blank characters is left behind the white space, if no U+0085 comes
next. -/
theorem dropWhile_isBlank_iff {cs : List Char} :
    cs.dropWhile isBlank = cs.dropWhile isSpace
      ↔ (cs.dropWhile isSpace).head? ≠ some nextLine := by
  induction cs with
  | nil => simp
  | cons c cs ih =>
    by_cases hspace : isSpace c = true
    · have hblank : isBlank c = true := isBlank_iff.mpr (.inl hspace)
      rw [List.dropWhile_cons_of_pos hspace, List.dropWhile_cons_of_pos hblank]
      exact ih
    · rw [List.dropWhile_cons_of_neg hspace]
      by_cases hnext : c = nextLine
      · -- the blank run goes on, and what is left gets shorter
        have hblank : isBlank c = true := isBlank_iff.mpr (.inr hnext)
        have hshort : (cs.dropWhile isBlank).length ≤ cs.length :=
          (List.dropWhile_suffix isBlank).length_le
        rw [List.dropWhile_cons_of_pos hblank, hnext]
        refine iff_of_false ?_ (fun h => h rfl)
        intro h
        rw [h, List.length_cons] at hshort
        omega
      · have hblank : ¬ isBlank c = true := fun h => (isBlank_iff.mp h).elim hspace hnext
        rw [List.dropWhile_cons_of_neg hblank]
        refine iff_of_true rfl ?_
        intro h
        exact hnext (Option.some_inj.mp h)

/-- **Blank is what scripts take for white space, unless U+0085 decides.** A string, alone or in a
document, is empty exactly if all of it is white space of scripts, except where all is white space
but some U+0085. Dedenting takes the longest front of such white space from the first line of a
block, except where U+0085 comes right behind it. -/
theorem isEmpty_and_dedent_iff (s : String) (b : Block) :
    ((Emptiness.isEmpty s = true ↔ ∀ c ∈ s.toList, isSpace c = true)
      ↔ ¬ NextLineAmongSpaces s.toList) ∧
    ((Emptiness.isEmpty (Json.string s) = true ↔ ∀ c ∈ s.toList, isSpace c = true)
      ↔ ¬ NextLineAmongSpaces s.toList) ∧
    ((b.dedent.toLines.head?
        = b.toLines.head?.map fun first => String.ofList (first.toList.dropWhile isSpace))
      ↔ ∀ first ∈ b.toLines.head?, (first.toList.dropWhile isSpace).head? ≠ some nextLine) := by
  refine ⟨all_isBlank_iff_all_isSpace, all_isBlank_iff_all_isSpace, ?_⟩
  rw [b.head?_toLines_dedent]
  cases b.toLines.head? with
  | none => exact iff_of_true rfl nofun
  | some first =>
    have hleft : (some (String.ofList (first.toList.dropWhile isBlank))
          = some (String.ofList (first.toList.dropWhile isSpace)))
        ↔ first.toList.dropWhile isBlank = first.toList.dropWhile isSpace := by
      rw [Option.some_inj, String.ofList_inj]
    exact (hleft.trans dropWhile_isBlank_iff).trans (by simp)

/-- U+0085 alone is empty, and no script takes it for white space. -/
theorem isEmpty_nextLine :
    ¬ ∀ s : String, Emptiness.isEmpty s = true ↔ ∀ c ∈ s.toList, isSpace c = true := by
  intro hall
  have hempty : Emptiness.isEmpty (String.singleton nextLine) = true := by decide
  have hspace : isSpace nextLine = true :=
    (hall (String.singleton nextLine)).mp hempty nextLine (by simp)
  exact absurd hspace (by decide)

end Peg.Script
