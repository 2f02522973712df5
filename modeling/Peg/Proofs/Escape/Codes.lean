import Peg.Escape.Literal
import Peg.Proofs.Text.Units

/-!
# The codes of characters

What a character is written as inside a literal takes one of four forms. **`CodeForm`** lists them
with what holds of the character in each, and **`code_form`** says that every code has one of them:
a proof about escaped text is a case split on `CodeForm` and never opens `code`.

A code by number has two digits after `\x` or four after `\u` (**`numeric_of_lt`**,
**`numeric_of_le`**); the buckets of `numeric` only pad.

Of a delimiter, what counts is that it is printable and neither a letter nor a digit
(**`IsAccepted.delimiter`**): no code holds one except behind a backslash, and no delimiter behind a
backslash is another code.
-/

namespace Peg.Escape

open Text

/-! ## Codes by number -/

/-- Below 0x100 a code unit is written `\x` and two digits. -/
theorem numeric_of_lt {u : CodeUnit} (h : u.toNat < 0x100) :
    numeric u = ['\\', 'x', Hex.upperDigit (u.toNat / 16), Hex.upperDigit (u.toNat % 16)] := by
  have hbyte : u < 0x100 := UInt16.lt_iff_toNat_lt.mpr h
  by_cases hnibble : u.toNat < 0x10
  · -- the padding zero is the first of the two digits
    have hu : u < 0x10 := UInt16.lt_iff_toNat_lt.mpr hnibble
    have hdiv : u.toNat / 16 = 0 := by omega
    have hmod : u.toNat % 16 = u.toNat := by omega
    rw [numeric, if_pos hu, Hex.upper_of_lt hnibble, hdiv, hmod]
    rfl
  · have hu : ¬ u < 0x10 := fun hlt => hnibble (UInt16.lt_iff_toNat_lt.mp hlt)
    rw [numeric, if_neg hu, if_pos hbyte, Hex.upper_eq_of_lt_256 (by omega) h]
    rfl

/-- From 0x100 on a code unit is written `\u` and four digits. -/
theorem numeric_of_le {u : CodeUnit} (h : 0x100 ≤ u.toNat) :
    numeric u = ['\\', 'u', Hex.upperDigit (u.toNat / 4096), Hex.upperDigit (u.toNat / 256 % 16),
      Hex.upperDigit (u.toNat / 16 % 16), Hex.upperDigit (u.toNat % 16)] := by
  have hlt := u.toNat_lt
  have hnibble : ¬ u < 0x10 := fun hu => by
    have := UInt16.lt_iff_toNat_lt.mp hu
    simp at this
    omega
  have hbyte : ¬ u < 0x100 := fun hu => by
    have := UInt16.lt_iff_toNat_lt.mp hu
    simp at this
    omega
  by_cases hthree : u.toNat < 0x1000
  · have hu : u < 0x1000 := UInt16.lt_iff_toNat_lt.mpr hthree
    have hdiv : u.toNat / 4096 = 0 := by omega
    have hmod : u.toNat / 256 % 16 = u.toNat / 256 := by omega
    rw [numeric, if_neg hnibble, if_neg hbyte, if_pos hu, Hex.upper_eq_of_lt_4096 h hthree, hdiv,
      hmod]
    rfl
  · have hu : ¬ u < 0x1000 := fun hu => hthree (UInt16.lt_iff_toNat_lt.mp hu)
    rw [numeric, if_neg hnibble, if_neg hbyte, if_neg hu,
      Hex.upper_eq_of_lt_65536 (by omega) (by omega)]
    rfl

/-! ## The form of a code -/

/-- The ways a character is written, given the delimiters of the literal. -/
inductive CodeForm (delimiters : List Char) (c : Char) : List Char → Prop
  | delimiter (hmem : c ∈ delimiters) : CodeForm delimiters c ['\\', c]
  | control (letter : Char) (hmem : c ∉ delimiters) (hletter : (c, letter) ∈ controls) :
      CodeForm delimiters c ['\\', letter]
  | plain (hmem : c ∉ delimiters) (hprint : isPrintable c = true) : CodeForm delimiters c [c]
  | number (hmem : c ∉ delimiters) (hletter : controls.lookup c = none)
      (hprint : isPrintable c = false) :
      CodeForm delimiters c ((CodeUnit.ofChar c).flatMap numeric)

/-- **Every code has one of the forms.** -/
theorem code_form (delimiters : List Char) (c : Char) :
    CodeForm delimiters c (code delimiters c) := by
  unfold code
  by_cases hmem : c ∈ delimiters
  · rw [if_pos hmem]
    exact .delimiter hmem
  · rw [if_neg hmem]
    cases hletter : controls.lookup c with
    | some letter =>
      have hpair : (c, letter) ∈ controls := by
        obtain ⟨before, after, happend, -⟩ := List.lookup_eq_some_iff.mp hletter
        rw [happend]
        simp
      exact .control letter hmem hpair
    | none =>
      cases hprint : isPrintable c with
      | true => exact .plain hmem hprint
      | false => exact .number hmem hletter hprint

/-- A code starts with a backslash, unless it is the character itself. -/
theorem code_head (delimiters : List Char) (c : Char) :
    ∃ cs, code delimiters c = '\\' :: cs ∨ code delimiters c = [c] := by
  have hform := code_form delimiters c
  generalize code delimiters c = text at hform ⊢
  cases hform with
  | delimiter _ => exact ⟨_, .inl rfl⟩
  | control letter _ _ => exact ⟨_, .inl rfl⟩
  | plain _ _ => exact ⟨[], .inr rfl⟩
  | number _ _ _ =>
    -- the first code unit is written by number, and that starts with a backslash
    have hunits : ∃ u us, CodeUnit.ofChar c = u :: us := by
      rw [CodeUnit.ofChar]
      split <;> exact ⟨_, _, rfl⟩
    obtain ⟨u, us, hu⟩ := hunits
    rw [hu, List.flatMap_cons]
    by_cases h : u.toNat < 0x100
    · rw [numeric_of_lt h]
      exact ⟨_, .inl rfl⟩
    · rw [numeric_of_le (by omega)]
      exact ⟨_, .inl rfl⟩

/-! ## Delimiters -/

theorem isPrintable_iff {c : Char} : isPrintable c = true ↔ 0x20 ≤ c.toNat ∧ c.toNat ≤ 0x7E := by
  rw [isPrintable, Bool.and_eq_true, decide_eq_true_iff, decide_eq_true_iff]
  rfl

/-- The literals text may be escaped for: any class, and a string closed by an accepted quote. -/
def Literal.IsAccepted : Literal → Prop
  | quoted quote => isQuote quote = true
  | charClass => True

/-- Text in double quotes is a kind of literal that is accepted. -/
theorem isAccepted_standardQuote : (Literal.quoted standardQuote).IsAccepted := by
  show isQuote standardQuote = true
  decide

/-- The backslash is escaped in literals of every kind. -/
theorem backslash_mem_delimiters (literal : Literal) : '\\' ∈ literal.delimiters := by
  cases literal <;> exact List.mem_cons_self ..

theorem ne_backslash_of_isQuote {quote : Char} (h : isQuote quote = true) : quote ≠ '\\' := by
  rintro rfl
  exact absurd h (by decide)

/-- An accepted quote is no error, and the text is escaped for it. -/
theorem stringWith_of_isQuote {quote : Char} (h : isQuote quote = true) (s : String) :
    stringWith s quote = .ok ((Literal.quoted quote).escape s) := by
  rw [stringWith, h]
  rfl

theorem toNat_le_of_isQuote {quote : Char} (h : isQuote quote = true) : quote.toNat ≤ 0x7E := by
  have hle : ∀ last : Char, quote ≤ last → last.toNat ≤ 0x7E → quote.toNat ≤ 0x7E :=
    fun _ hlast hbound => Nat.le_trans hlast hbound
  simp only [isQuote, Bool.and_eq_true, Bool.or_eq_true, decide_eq_true_iff] at h
  obtain ⟨((h | h) | h) | h, -⟩ := h
  all_goals exact hle _ h.2 (by decide)

/-- **A delimiter is a punctuation mark of ASCII.** -/
theorem Literal.IsAccepted.delimiter {literal : Literal} (h : literal.IsAccepted) {d : Char}
    (hd : d ∈ literal.delimiters) : isPrintable d = true ∧ d.isAlphanum = false := by
  cases literal with
  | charClass =>
    simp only [Literal.delimiters, List.mem_cons, List.not_mem_nil, or_false] at hd
    rcases hd with rfl | rfl | rfl | rfl | rfl
    all_goals decide
  | quoted quote =>
    -- there are few enough quotes to go through all of them
    have hall : ∀ n : Fin 127, isQuote (Char.ofNat n) = true →
        isPrintable (Char.ofNat n) = true ∧ (Char.ofNat n).isAlphanum = false := by decide
    have hle := toNat_le_of_isQuote h
    have hquote := hall ⟨quote.toNat, by omega⟩
    rw [Char.ofNat_toNat] at hquote
    obtain rfl | rfl : d = '\\' ∨ d = quote := by simpa [Literal.delimiters] using hd
    · decide
    · exact hquote h

/-- No delimiter is a letter or a digit, so none can be in an escape by number. -/
theorem Literal.IsAccepted.not_mem_of_isAlphanum {literal : Literal} (h : literal.IsAccepted)
    {c : Char} (hc : c.isAlphanum = true) : c ∉ literal.delimiters := by
  intro hmem
  rw [(h.delimiter hmem).2] at hc
  cases hc

end Peg.Escape
