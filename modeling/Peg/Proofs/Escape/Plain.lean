import Peg.Proofs.Escape.Codes

/-!
# What escaping leaves alone

A character that is printable ASCII and no delimiter of the literal is its own code. The code of any
other is longer than one character, in whichever of its forms (**`one_lt_length_code`**). So along a
text nothing gets shorter, and nothing that grew is made up for elsewhere: a text that comes out as
it went in has only characters of the first sort (**`flatMap_code_eq_self_iff`**), and any other
comes out longer.
-/

namespace Peg.Escape

open Text

/-- Printable ASCII that is no delimiter. -/
def IsPlain (delimiters : List Char) (c : Char) : Prop :=
  (0x20 ≤ c.toNat ∧ c.toNat ≤ 0x7E) ∧ c ∉ delimiters

instance (delimiters : List Char) (c : Char) : Decidable (IsPlain delimiters c) :=
  inferInstanceAs (Decidable (_ ∧ _))

variable {delimiters : List Char} {c : Char}

/-! ## One character -/

theorem isPrintable_of_isPlain (h : IsPlain delimiters c) : isPrintable c = true :=
  isPrintable_iff.mpr h.1

theorem isPrintable_of_mem_controls {letter : Char} (h : (c, letter) ∈ controls) :
    isPrintable c = false := by
  have hcontrols : ∀ p ∈ controls, isPrintable p.1 = false := by decide
  exact hcontrols _ h

/-- A plain character is its own code. -/
theorem code_of_isPlain (h : IsPlain delimiters c) : code delimiters c = [c] := by
  have hprint := isPrintable_of_isPlain h
  have hform := code_form delimiters c
  generalize code delimiters c = text at hform ⊢
  cases hform with
  | delimiter hmem => exact absurd hmem h.2
  | control letter _ hletter => simp [isPrintable_of_mem_controls hletter] at hprint
  | plain _ _ => rfl
  | number _ _ hnot => simp [hnot] at hprint

theorem one_lt_length_numeric (u : CodeUnit) : 1 < (numeric u).length := by
  by_cases h : u.toNat < 0x100
  · simp [numeric_of_lt h]
  · simp [numeric_of_le (show 0x100 ≤ u.toNat by omega)]

/-- A code by number has more than one character, whether it is for one unit or for two. -/
theorem one_lt_length_numbers (c : Char) :
    1 < ((CodeUnit.ofChar c).flatMap numeric).length := by
  -- there is a first code unit, and the code of that is long enough
  obtain ⟨u, us, hunits⟩ : ∃ u us, CodeUnit.ofChar c = u :: us :=
    List.exists_cons_of_length_pos (CodeUnit.length_ofChar_pos c)
  have := one_lt_length_numeric u
  rw [hunits, List.flatMap_cons, List.length_append]
  omega

/-- **Any other code is longer than one character.** -/
theorem one_lt_length_code (h : ¬ IsPlain delimiters c) : 1 < (code delimiters c).length := by
  have hform := code_form delimiters c
  generalize code delimiters c = text at hform ⊢
  cases hform with
  | delimiter _ => simp
  | control _ _ _ => simp
  | plain hmem hprint => exact absurd ⟨isPrintable_iff.mp hprint, hmem⟩ h
  | number _ _ _ => exact one_lt_length_numbers c

/-! ## Whole texts -/

theorem length_code_pos (delimiters : List Char) (c : Char) :
    0 < (code delimiters c).length := by
  by_cases h : IsPlain delimiters c
  · simp [code_of_isPlain h]
  · have := one_lt_length_code h
    omega

/-- Escaping does not shorten a text. -/
theorem length_le_flatMap_code (delimiters cs : List Char) :
    cs.length ≤ (cs.flatMap (code delimiters)).length := by
  induction cs with
  | nil => simp
  | cons c cs ih =>
    have := length_code_pos delimiters c
    simp only [List.flatMap_cons, List.length_append, List.length_cons]
    omega

/-- Plain text is left as it is. -/
theorem flatMap_code_of_isPlain {cs : List Char} (h : ∀ c ∈ cs, IsPlain delimiters c) :
    cs.flatMap (code delimiters) = cs := by
  induction cs with
  | nil => rfl
  | cons c cs ih =>
    obtain ⟨hc, hcs⟩ := List.forall_mem_cons.mp h
    rw [List.flatMap_cons, code_of_isPlain hc, ih hcs, List.singleton_append]

/-- **One character that is not plain makes the text longer**, since no other makes it shorter. -/
theorem length_lt_flatMap_code {cs : List Char} (h : ∃ c ∈ cs, ¬ IsPlain delimiters c) :
    cs.length < (cs.flatMap (code delimiters)).length := by
  obtain ⟨c, hmem, hc⟩ := h
  obtain ⟨front, back, rfl⟩ := List.append_of_mem hmem
  have hcode := one_lt_length_code hc
  have hfront := length_le_flatMap_code delimiters front
  have hback := length_le_flatMap_code delimiters back
  simp only [List.flatMap_append, List.flatMap_cons, List.length_append, List.length_cons]
  omega

/-- Text is left as it is only if it is plain: a code that is longer makes the whole longer. -/
theorem flatMap_code_eq_self_iff {cs : List Char} :
    cs.flatMap (code delimiters) = cs ↔ ∀ c ∈ cs, IsPlain delimiters c := by
  refine ⟨?_, flatMap_code_of_isPlain⟩
  intro heq
  by_cases h : ∀ c ∈ cs, IsPlain delimiters c
  · exact h
  · have hlt := length_lt_flatMap_code (by simpa using h)
    rw [heq] at hlt
    omega

/-- The same for the escaped text of a literal. -/
theorem escape_eq_self_iff (literal : Literal) (s : String) :
    literal.escape s = s ↔ ∀ c ∈ s.toList, IsPlain literal.delimiters c := by
  rw [← flatMap_code_eq_self_iff, Literal.escape, ← String.toList_inj, String.toList_ofList]

/-- Where anything is escaped the text becomes longer. -/
theorem length_lt_length_escape {literal : Literal} {s : String} (h : literal.escape s ≠ s) :
    s.length < (literal.escape s).length := by
  have hplain := mt (escape_eq_self_iff literal s).mpr h
  have hlt := length_lt_flatMap_code (by simpa using hplain)
  rw [Literal.escape, String.length_ofList, ← String.length_toList]
  exact hlt

/-- **The texts that escaping leaves alone** are those of printable ASCII without a delimiter of the
literal: the backslash and the quote of a string, the backslash and `/ ] ^ -` in a class. Any other
text comes out longer. -/
theorem escaped_eq_self_iff (s : String) :
    ((string s = s ↔ ∀ c ∈ s.toList, IsPlain ['\\', '"'] c) ∧
        (string s ≠ s → s.length < (string s).length)) ∧
      (∀ quote, isQuote quote = true → ∃ text, stringWith s quote = .ok text ∧
        (text = s ↔ ∀ c ∈ s.toList, IsPlain ['\\', quote] c) ∧
          (text ≠ s → s.length < text.length)) ∧
      (charClass s = s ↔ ∀ c ∈ s.toList, IsPlain ['\\', '/', ']', '^', '-'] c) ∧
        (charClass s ≠ s → s.length < (charClass s).length) := by
  refine ⟨⟨escape_eq_self_iff (.quoted standardQuote) s, length_lt_length_escape⟩, ?_,
    escape_eq_self_iff .charClass s, length_lt_length_escape⟩
  intro quote hquote
  exact ⟨_, stringWith_of_isQuote hquote s, escape_eq_self_iff (.quoted quote) s,
    length_lt_length_escape⟩

/-- A line feed is plain in no literal. -/
theorem escaped_eq_self_iff_feed :
    (string "it's\n" ≠ "it's\n" ∧ "it's\n".length < (string "it's\n").length) ∧
      isQuote '\'' = true ∧
      (∃ text, stringWith "it's\n" '\'' = .ok text ∧
        text ≠ "it's\n" ∧ "it's\n".length < text.length) ∧
      charClass "it's\n" ≠ "it's\n" ∧ "it's\n".length < (charClass "it's\n").length := by
  have hquote : isQuote '\'' = true := by decide
  have hfeed : ∀ delimiters, ¬ ∀ c ∈ "it's\n".toList, IsPlain delimiters c := by
    intro delimiters h
    have hplain := h '\n' (by decide)
    simp [IsPlain] at hplain
  obtain ⟨⟨hstring, hlonger⟩, hquoted, hclass, hlonger'⟩ := escaped_eq_self_iff "it's\n"
  obtain ⟨text, htext, hself, hlonger''⟩ := hquoted '\'' hquote
  have hne : string "it's\n" ≠ "it's\n" := mt hstring.mp (hfeed _)
  have hne' : charClass "it's\n" ≠ "it's\n" := mt hclass.mp (hfeed _)
  have hne'' : text ≠ "it's\n" := mt hself.mp (hfeed _)
  exact ⟨⟨hne, hlonger hne⟩, hquote, ⟨text, htext, hne'', hlonger'' hne''⟩, hne', hlonger' hne'⟩

end Peg.Escape
