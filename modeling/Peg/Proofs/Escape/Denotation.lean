import Peg.Proofs.Script.StringLiteral

/-!
# What an escaped string denotes

A text escaped for a string literal and put between double quotes is a string literal of the
generated source, and should stand for the code units of the text. It does, with one exception: NUL
is written `\0` whatever follows, and in front of an octal digit that is the beginning of a longer
octal escape.

* **`NulBeforeDigit`** names the exception.
* **`run_code`**: the code of any character but NUL is read as the units of that character.
* **`run_literalBody_of_clean`** and **`run_literalBody_lt`**: without the exception the literal
  denotes the text; with it, fewer code units than the text has.
* **`value?_string_iff`**: both together, for every text.

The lengths carry the second half: an octal escape that swallows a digit gives one unit for two
characters, and no other code gives more units than its character has.
-/

namespace Peg.Escape

open Text Script

/-- A NUL stands directly in front of an octal digit. -/
def NulBeforeDigit (s : List Char) : Prop :=
  ∃ d, (octalDigit? d).isSome ∧ ['\x00', d] <:+: s

/-- The text of a string literal behind its opening quote. -/
def literalBody (s : List Char) : List Char :=
  s.flatMap (code (Literal.quoted standardQuote).delimiters) ++ [standardQuote]

/-! ## One code -/

/-- **Any code but that of NUL is read as its character.** -/
theorem run_code {c : Char} (hnul : c ≠ '\x00') :
    run standardQuote .body (code (Literal.quoted standardQuote).delimiters c)
      = some (CodeUnit.ofChar c, .body) := by
  have hform := code_form (Literal.quoted standardQuote).delimiters c
  generalize code (Literal.quoted standardQuote).delimiters c = text at hform ⊢
  cases hform with
  | delimiter hmem =>
    obtain rfl | rfl : c = '\\' ∨ c = standardQuote := by simpa [Literal.delimiters] using hmem
    · decide
    · decide
  | control letter hmem hletter =>
    simp only [controls, List.mem_cons, Prod.mk.injEq, List.not_mem_nil, or_false] at hletter
    rcases hletter with ⟨rfl, rfl⟩ | ⟨rfl, rfl⟩ | ⟨rfl, rfl⟩ | ⟨rfl, rfl⟩ | ⟨rfl, rfl⟩ | ⟨rfl, rfl⟩
      | ⟨rfl, rfl⟩
    · exact absurd rfl hnul
    all_goals decide
  | plain hmem hprint =>
    obtain ⟨hbackslash, hquote⟩ : c ≠ '\\' ∧ c ≠ standardQuote := by
      simpa [Literal.delimiters] using hmem
    have hbreak : ¬ (c = '\n' ∨ c = '\r') := by
      rintro (rfl | rfl) <;> exact absurd hprint (by decide)
    have hstep : step standardQuote .body c = some (CodeUnit.ofChar c, .body) := by
      simp [step, bodyStep, hquote, hbackslash, hbreak]
    rw [run_cons_of_step hstep]
    simp [run, emit]
  | number _ _ _ => exact run_flatMap_numeric (by decide) _

/-- The code of NUL begins an octal escape. -/
theorem run_code_nul :
    run standardQuote .body (code (Literal.quoted standardQuote).delimiters '\x00')
      = some ([], .octal 0 2) := by
  decide

/-- An octal digit stands for itself. -/
theorem code_of_octalDigit {d : Char} (h : (octalDigit? d).isSome = true) :
    code (Literal.quoted standardQuote).delimiters d = [d] := by
  have hform := code_form (Literal.quoted standardQuote).delimiters d
  generalize code (Literal.quoted standardQuote).delimiters d = text at hform ⊢
  cases hform with
  | delimiter hmem =>
    obtain rfl | rfl : d = '\\' ∨ d = standardQuote := by simpa [Literal.delimiters] using hmem
    · exact absurd h (by decide)
    · exact absurd h (by decide)
  | control letter hmem hletter =>
    have hcontrols : ∀ pair ∈ controls, (octalDigit? pair.1).isSome = false := by decide
    have hd := hcontrols _ hletter
    rw [h] at hd
    cases hd
  | plain _ _ => rfl
  | number hmem hletter hprint =>
    -- all octal digits are printable
    by_cases hrange : '0' ≤ d ∧ d ≤ '7'
    · have hle : ' ' ≤ d ∧ d ≤ '~' :=
        ⟨Char.le_trans (by decide) hrange.1, Char.le_trans hrange.2 (by decide)⟩
      rw [isPrintable, decide_eq_true hle.1, decide_eq_true hle.2] at hprint
      cases hprint
    · rw [octalDigit?, if_neg hrange] at h
      cases h

/-! ## A whole text -/

@[simp] theorem literalBody_cons (c : Char) (s : List Char) :
    literalBody (c :: s) = code (Literal.quoted standardQuote).delimiters c ++ literalBody s := by
  rw [literalBody, List.flatMap_cons, List.append_assoc]
  rfl

/-- The exception, split at the first character. -/
theorem nulBeforeDigit_cons {c : Char} {s : List Char} :
    NulBeforeDigit (c :: s)
      ↔ (c = '\x00' ∧ ∃ d, (octalDigit? d).isSome ∧ s.head? = some d) ∨ NulBeforeDigit s := by
  have hhead : ∀ d, ['\x00', d] <+: c :: s ↔ c = '\x00' ∧ s.head? = some d := by
    intro d
    cases s with
    | nil => simp [eq_comm]
    | cons e s => simp [List.cons_prefix_cons, eq_comm]
  unfold NulBeforeDigit
  constructor
  · rintro ⟨d, hd, hinfix⟩
    rcases List.infix_cons_iff.mp hinfix with hprefix | hrest
    · obtain ⟨hc, hs⟩ := (hhead d).mp hprefix
      exact .inl ⟨hc, d, hd, hs⟩
    · exact .inr ⟨d, hd, hrest⟩
  · rintro (⟨hc, d, hd, hs⟩ | ⟨d, hd, hrest⟩)
    · exact ⟨d, hd, List.infix_cons_iff.mpr (.inl ((hhead d).mpr ⟨hc, hs⟩))⟩
    · exact ⟨d, hd, List.infix_cons_iff.mpr (.inr hrest)⟩

/-- An octal escape ends in front of a text that starts with no octal digit. -/
theorem run_octal_literalBody {s : List Char}
    (h : ∀ d, s.head? = some d → octalDigit? d = none) (value left : Nat) :
    run standardQuote (.octal value left) (literalBody s)
      = (run standardQuote .body (literalBody s)).map (emit [value.toUInt16]) := by
  cases s with
  | nil => exact run_octal_of_next_none (octalNext?_of_not_digit rfl value left) []
  | cons c s =>
    rw [literalBody_cons]
    obtain ⟨cs, hcode | hcode⟩ := code_head (Literal.quoted standardQuote).delimiters c
    · rw [hcode]
      exact run_octal_of_next_none (octalNext?_of_not_digit rfl value left) _
    · rw [hcode]
      exact run_octal_of_next_none (octalNext?_of_not_digit (h c rfl) value left) _

/-- **Without the exception the literal denotes the text.** -/
theorem run_literalBody_of_clean {s : List Char} (h : ¬ NulBeforeDigit s) :
    run standardQuote .body (literalBody s) = some (CodeUnit.encode s, .closed) := by
  induction s with
  | nil => decide
  | cons c s ih =>
    rw [nulBeforeDigit_cons, not_or] at h
    obtain ⟨hhead, hrest⟩ := h
    rw [literalBody_cons]
    by_cases hnul : c = '\x00'
    · -- the escape begun by NUL ends at once
      have hdigit : ∀ d, s.head? = some d → octalDigit? d = none := by
        intro d hd
        cases hoctal : octalDigit? d with
        | none => rfl
        | some n => exact absurd ⟨hnul, d, by rw [hoctal]; rfl, hd⟩ hhead
      rw [hnul, run_append run_code_nul, run_octal_literalBody hdigit, ih hrest]
      rfl
    · rw [run_append (run_code hnul), ih hrest]
      rfl

/-- A text gives no more code units than it has, also inside an octal escape, which may add one. -/
theorem run_literalBody_le (s : List Char) :
    (∃ us, run standardQuote .body (literalBody s) = some (us, .closed)
        ∧ us.length ≤ (CodeUnit.encode s).length)
      ∧ ∀ value left, ∃ us, run standardQuote (.octal value left) (literalBody s)
          = some (us, .closed) ∧ us.length ≤ 1 + (CodeUnit.encode s).length := by
  induction s with
  | nil =>
    refine ⟨⟨[], by decide, Nat.le_refl _⟩, fun value left => ⟨[value.toUInt16], ?_, Nat.le_refl _⟩⟩
    exact run_octal_of_next_none (octalNext?_of_not_digit rfl value left) []
  | cons c s ih =>
    obtain ⟨⟨us, hus, hlen⟩, hoctal⟩ := ih
    have hbody : ∃ us, run standardQuote .body (literalBody (c :: s)) = some (us, .closed)
        ∧ us.length ≤ (CodeUnit.encode (c :: s)).length := by
      rw [literalBody_cons, CodeUnit.encode_cons]
      by_cases hnul : c = '\x00'
      · obtain ⟨vs, hvs, hvlen⟩ := hoctal 0 2
        refine ⟨vs, ?_, ?_⟩
        · rw [hnul, run_append run_code_nul, hvs]
          rfl
        · rw [hnul, List.length_append]
          exact hvlen
      · refine ⟨CodeUnit.ofChar c ++ us, ?_, ?_⟩
        · rw [run_append (run_code hnul), hus]
          rfl
        · rw [List.length_append, List.length_append]
          omega
    refine ⟨hbody, fun value left => ?_⟩
    by_cases hdigit : (octalDigit? c).isSome = true
    · rw [literalBody_cons, code_of_octalDigit hdigit, List.singleton_append]
      cases hnext : octalNext? value left c with
      | some value' =>
        -- the digit is swallowed, so the bound only gets easier
        obtain ⟨vs, hvs, hvlen⟩ := hoctal value' (left - 1)
        refine ⟨vs, ?_, ?_⟩
        · rw [run_octal_of_next_some hnext, hvs]
        · rw [CodeUnit.encode_cons, List.length_append]
          omega
      | none =>
        obtain ⟨vs, hvs, hvlen⟩ := hbody
        rw [literalBody_cons, code_of_octalDigit hdigit, List.singleton_append] at hvs
        refine ⟨value.toUInt16 :: vs, ?_, ?_⟩
        · rw [run_octal_of_next_none hnext, hvs]
          rfl
        · rw [List.length_cons]
          omega
    · have hhead : ∀ d, (c :: s).head? = some d → octalDigit? d = none := by
        intro d hd
        cases hd
        exact Option.not_isSome_iff_eq_none.mp hdigit
      obtain ⟨vs, hvs, hvlen⟩ := hbody
      refine ⟨value.toUInt16 :: vs, ?_, ?_⟩
      · rw [run_octal_literalBody hhead, hvs]
        rfl
      · rw [List.length_cons]
        omega

/-- **With the exception the literal denotes another text**, one of fewer code units. -/
theorem run_literalBody_lt {s : List Char} (h : NulBeforeDigit s) :
    ∃ us, run standardQuote .body (literalBody s) = some (us, .closed)
      ∧ us.length < (CodeUnit.encode s).length := by
  induction s with
  | nil =>
    obtain ⟨d, -, hinfix⟩ := h
    exact absurd (List.eq_nil_of_infix_nil hinfix) (List.cons_ne_nil _ _)
  | cons c s ih =>
    rw [nulBeforeDigit_cons] at h
    rw [literalBody_cons, CodeUnit.encode_cons, List.length_append]
    by_cases hnul : c = '\x00'
    · rw [hnul, run_append run_code_nul]
      by_cases hhead : ∃ d, (octalDigit? d).isSome ∧ s.head? = some d
      · -- the escape begun by NUL swallows the digit, and what follows adds no unit too many
        obtain ⟨d, hdigit, hs⟩ := hhead
        obtain ⟨rest, rfl⟩ := List.head?_eq_some_iff.mp hs
        obtain ⟨value, hnext⟩ : ∃ value, octalNext? 0 2 d = some value :=
          octalNext?_zero hdigit
        obtain ⟨us, hus, hlen⟩ := (run_literalBody_le rest).2 value 1
        refine ⟨us, ?_, ?_⟩
        · rw [literalBody_cons, code_of_octalDigit hdigit, List.singleton_append,
            run_octal_of_next_some hnext, hus]
          rfl
        · have hone : 0 < (CodeUnit.ofChar d).length := CodeUnit.length_ofChar_pos d
          have hzero : (CodeUnit.ofChar '\x00').length = 1 := rfl
          rw [CodeUnit.encode_cons, List.length_append]
          omega
      · have hdigit : ∀ d, s.head? = some d → octalDigit? d = none := by
          intro d hd
          exact Option.not_isSome_iff_eq_none.mp fun hsome => hhead ⟨d, hsome, hd⟩
        obtain ⟨us, hus, hlen⟩ := ih (h.resolve_left fun hc => hhead hc.2)
        refine ⟨0 :: us, ?_, ?_⟩
        · rw [run_octal_literalBody hdigit, hus]
          rfl
        · have hzero : (CodeUnit.ofChar '\x00').length = 1 := rfl
          rw [List.length_cons]
          omega
    · obtain ⟨us, hus, hlen⟩ := ih (h.resolve_left fun hc => hnul hc.1)
      refine ⟨CodeUnit.ofChar c ++ us, ?_, ?_⟩
      · rw [run_append (run_code hnul), hus]
        rfl
      · rw [List.length_append]
        omega

/-! ## The literal -/

/-- A run that takes all of the body and ends at the closing quote gives the value of the
literal. -/
theorem value?_eq_of_run {s : String} {us : List CodeUnit}
    (h : run standardQuote .body (literalBody s.toList) = some (us, .closed)) :
    value? ("\"" ++ string s ++ "\"") = some us := by
  have htext : ("\"" ++ string s ++ "\"").toList = '"' :: literalBody s.toList := by
    simp [string, Literal.escape, literalBody, standardQuote]
  rw [value?, htext]
  simp only [true_or, if_true]
  rw [show run '"' .body (literalBody s.toList) = some (us, .closed) from h]

/-- **What a quoted text denotes.** It is a string literal for every text, and stands for exactly
the code units of the text unless a NUL of it is directly followed by an octal digit. -/
theorem value?_string_iff (s : String) :
    (value? ("\"" ++ string s ++ "\"")).isSome ∧
      (value? ("\"" ++ string s ++ "\"") = some (CodeUnit.encode s.toList)
        ↔ ¬ NulBeforeDigit s.toList) := by
  by_cases h : NulBeforeDigit s.toList
  · obtain ⟨us, hus, hlen⟩ := run_literalBody_lt h
    rw [value?_eq_of_run hus]
    refine ⟨rfl, fun heq => ?_, fun hnot => absurd h hnot⟩
    rw [Option.some_inj.mp heq] at hlen
    exact absurd hlen (Nat.lt_irrefl _)
  · rw [value?_eq_of_run (run_literalBody_of_clean h)]
    exact ⟨rfl, fun _ => h, fun _ => rfl⟩

/-- A NUL in front of the digit one is read as the single character U+0001. -/
theorem value?_string_nul_one :
    ¬ ∀ s : String, value? ("\"" ++ string s ++ "\"") = some (CodeUnit.encode s.toList) := by
  intro hall
  have hrun : run standardQuote .body (literalBody "\x001".toList) = some ([1], .closed) := by
    decide
  have hone := hall "\x001"
  rw [value?_eq_of_run hrun] at hone
  exact absurd hone (by decide)

end Peg.Escape
