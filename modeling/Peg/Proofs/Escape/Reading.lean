import Peg.Proofs.Escape.Codes

/-!
# Reading escaped text back

**`read?`** takes escaped text apart by the table of codes: an escape by number is the code unit it
names, a backslash and a letter or a delimiter is what the table says, and anything else is itself.
The code units are then text again, if their surrogates are paired.

**`units?_code`** is the step: in front of any text, the code of a character is read as the units of
that character, and reading goes on behind it. So no code is the beginning of another one, and what
was escaped can be told from the result: **`read?_escape`**.
-/

namespace Peg.Escape

open Text

/-- The controls by their letters. -/
def meanings : List (Char × Char) :=
  [('0', '\x00'), ('b', '\x08'), ('t', '\t'), ('n', '\n'), ('v', '\x0B'), ('f', '\x0C'),
    ('r', '\r')]

/-- What a backslash and `c` stand for. -/
def meaning? (delimiters : List Char) (c : Char) : Option Char :=
  if c ∈ delimiters then some c else meanings.lookup c

/-- The code units of escaped text. There are none if a backslash starts no code. -/
def units? (delimiters : List Char) : List Char → Option (List CodeUnit)
  | [] => some []
  | '\\' :: 'x' :: a :: b :: cs => do
    let u ← Hex.unit? '0' '0' a b
    return u :: (← units? delimiters cs)
  | '\\' :: 'u' :: a :: b :: c :: d :: cs => do
    let u ← Hex.unit? a b c d
    return u :: (← units? delimiters cs)
  | '\\' :: c :: cs => do
    let meant ← meaning? delimiters c
    return CodeUnit.ofChar meant ++ (← units? delimiters cs)
  | ['\\'] => none
  | c :: cs => do
    return CodeUnit.ofChar c ++ (← units? delimiters cs)

/-- The text that was escaped. -/
def read? (literal : Literal) (text : String) : Option String := do
  let units ← units? literal.delimiters text.toList
  return String.ofList (← CodeUnit.decode units)

/-! ## One code -/

variable {delimiters : List Char}

theorem units?_plain {c : Char} (h : c ≠ '\\') (cs : List Char) :
    units? delimiters (c :: cs) = (units? delimiters cs).map (CodeUnit.ofChar c ++ ·) := by
  have hstep : units? delimiters (c :: cs)
      = (do return CodeUnit.ofChar c ++ (← units? delimiters cs)) := by
    rw [units?.eq_def]
    simp [h]
  rw [hstep]
  cases units? delimiters cs <;> rfl

/-- A backslash and a letter are read as the units of what is meant. -/
theorem units?_letter {c meant : Char} (hx : c ≠ 'x') (hu : c ≠ 'u')
    (h : meaning? delimiters c = some meant) (cs : List Char) :
    units? delimiters ('\\' :: c :: cs)
      = (units? delimiters cs).map (CodeUnit.ofChar meant ++ ·) := by
  rw [units?, h]
  · cases units? delimiters cs <;> rfl
  · intro a b cs' hc
    exact absurd hc hx
  · intro a b c' d cs' hc
    exact absurd hc hu

/-- Four digits are read as the number they write. -/
theorem unit?_upperDigit {a b c d : Nat} (ha : a < 16) (hb : b < 16) (hc : c < 16) (hd : d < 16) :
    Hex.unit? (Hex.upperDigit a) (Hex.upperDigit b) (Hex.upperDigit c) (Hex.upperDigit d)
      = some (((a * 16 + b) * 16 + c) * 16 + d).toUInt16 := by
  rw [Hex.unit?, Hex.value?_upperDigit ha, Hex.value?_upperDigit hb, Hex.value?_upperDigit hc,
    Hex.value?_upperDigit hd]
  rfl

/-- The two digits of a code unit below 0x100 are read as the unit. -/
theorem unit?_two {u : CodeUnit} (h : u.toNat < 0x100) :
    Hex.unit? '0' '0' (Hex.upperDigit (u.toNat / 16)) (Hex.upperDigit (u.toNat % 16)) = some u := by
  have hunit : Hex.unit? '0' '0' (Hex.upperDigit (u.toNat / 16)) (Hex.upperDigit (u.toNat % 16))
      = some (((0 * 16 + 0) * 16 + u.toNat / 16) * 16 + u.toNat % 16).toUInt16 :=
    unit?_upperDigit (a := 0) (b := 0) (by decide) (by decide) (by omega) (by omega)
  rw [hunit, show ((0 * 16 + 0) * 16 + u.toNat / 16) * 16 + u.toNat % 16 = u.toNat by omega]
  simp

/-- The four digits of a code unit are read as the unit. -/
theorem unit?_four (u : CodeUnit) :
    Hex.unit? (Hex.upperDigit (u.toNat / 4096)) (Hex.upperDigit (u.toNat / 256 % 16))
      (Hex.upperDigit (u.toNat / 16 % 16)) (Hex.upperDigit (u.toNat % 16)) = some u := by
  have hlt := u.toNat_lt
  rw [unit?_upperDigit (by omega) (by omega) (by omega) (by omega),
    show ((u.toNat / 4096 * 16 + u.toNat / 256 % 16) * 16 + u.toNat / 16 % 16) * 16
      + u.toNat % 16 = u.toNat by omega]
  simp

/-- A code by number has as many digits as the reader takes. -/
theorem units?_numeric (u : CodeUnit) (cs : List Char) :
    units? delimiters (numeric u ++ cs) = (units? delimiters cs).map (u :: ·) := by
  by_cases h : u.toNat < 0x100
  · rw [numeric_of_lt h]
    show units? delimiters ('\\' :: 'x' :: _ :: _ :: cs) = _
    rw [units?, unit?_two h]
    cases units? delimiters cs <;> rfl
  · rw [numeric_of_le (by omega)]
    show units? delimiters ('\\' :: 'u' :: _ :: _ :: _ :: _ :: cs) = _
    rw [units?, unit?_four]
    cases units? delimiters cs <;> rfl

/-- Codes by number are read as their units, one by one. -/
theorem units?_flatMap_numeric (us : List CodeUnit) (cs : List Char) :
    units? delimiters (us.flatMap numeric ++ cs) = (units? delimiters cs).map (us ++ ·) := by
  induction us with
  | nil => exact Option.map_id'.symm
  | cons u us ih =>
    rw [List.flatMap_cons, List.append_assoc, units?_numeric, ih, Option.map_map]
    rfl

variable {literal : Literal}

/-- **The code of a character is read as the character**, whatever comes behind it. -/
theorem units?_code (h : literal.IsAccepted) (c : Char) (cs : List Char) :
    units? literal.delimiters (code literal.delimiters c ++ cs)
      = (units? literal.delimiters cs).map (CodeUnit.ofChar c ++ ·) := by
  have hform := code_form literal.delimiters c
  generalize code literal.delimiters c = text at hform ⊢
  cases hform with
  | delimiter hmem =>
    -- a delimiter is no letter, so it starts no escape by number
    have hne : ∀ d : Char, d.isAlphanum = true → c ≠ d := by
      rintro d hd rfl
      exact h.not_mem_of_isAlphanum hd hmem
    exact units?_letter (hne 'x' (by decide)) (hne 'u' (by decide)) (if_pos hmem) cs
  | control letter hmem hletter =>
    have hcontrols : ∀ p ∈ controls, p.2.isAlphanum = true ∧ p.2 ≠ 'x' ∧ p.2 ≠ 'u'
        ∧ meanings.lookup p.2 = some p.1 := by decide
    obtain ⟨halnum, hx, hu, hlookup⟩ := hcontrols _ hletter
    have hplain : letter ∉ literal.delimiters := h.not_mem_of_isAlphanum halnum
    have hmeaning : meaning? literal.delimiters letter = some c := by
      rw [meaning?, if_neg hplain]
      exact hlookup
    exact units?_letter hx hu hmeaning cs
  | plain hmem _ =>
    have hbackslash : c ≠ '\\' := by
      rintro rfl
      exact hmem (backslash_mem_delimiters literal)
    exact units?_plain hbackslash cs
  | number _ _ _ => exact units?_flatMap_numeric (CodeUnit.ofChar c) cs

/-! ## Whole texts -/

/-- What is escaped is read as the units of the text. -/
theorem units?_escape (h : literal.IsAccepted) (s : List Char) :
    units? literal.delimiters (s.flatMap (code literal.delimiters)) = some (CodeUnit.encode s) := by
  induction s with
  | nil => rfl
  | cons c s ih =>
    simp [units?_code h, ih]

/-- What is escaped is read as the text: its units pair up again as they were. -/
theorem read?_escape (h : literal.IsAccepted) (s : String) :
    read? literal (literal.escape s) = some s := by
  rw [read?, Literal.escape, String.toList_ofList, units?_escape h]
  show (CodeUnit.decode (CodeUnit.encode s.toList) >>= fun cs => some (String.ofList cs)) = some s
  rw [CodeUnit.decode_encode]
  exact congrArg some (String.ofList_toList ..)

theorem escape_injective (h : literal.IsAccepted) : Function.Injective literal.escape := by
  intro s t heq
  have hread : read? literal (literal.escape s) = some t := by rw [heq, read?_escape h]
  rw [read?_escape h] at hread
  exact Option.some_inj.mp hread

/-- **Escaped text is read back as what was escaped**, for a string in double quotes, for a string
closed by any accepted quote, and for a class; so no two texts are escaped alike. -/
theorem read?_escaped :
    ((∀ s, read? (.quoted '"') (string s) = some s) ∧ Function.Injective string) ∧
      (∀ quote, isQuote quote = true →
        (∀ s, ∃ text, stringWith s quote = .ok text ∧ read? (.quoted quote) text = some s) ∧
          Function.Injective fun s => stringWith s quote) ∧
      (∀ s, read? .charClass (charClass s) = some s) ∧ Function.Injective charClass := by
  have hclass : Literal.charClass.IsAccepted := trivial
  refine ⟨⟨read?_escape isAccepted_standardQuote, escape_injective isAccepted_standardQuote⟩, ?_,
    read?_escape hclass, escape_injective hclass⟩
  intro quote hquote
  have hquoted : (Literal.quoted quote).IsAccepted := hquote
  refine ⟨fun s => ⟨_, stringWith_of_isQuote hquote s, read?_escape hquoted s⟩, ?_⟩
  intro s t heq
  have htext : stringWith s quote = stringWith t quote := heq
  rw [stringWith_of_isQuote hquote, stringWith_of_isQuote hquote] at htext
  exact escape_injective hquoted (Except.ok.inj htext)

/-- A single quote and a line feed, in text for single quotes. -/
theorem read?_escaped_apostrophe :
    isQuote '\'' = true ∧ ∃ text, stringWith "it's\n" '\'' = .ok text ∧
      read? (.quoted '\'') text = some "it's\n" :=
  ⟨by decide, (read?_escaped.2.1 '\'' (by decide)).1 "it's\n"⟩

end Peg.Escape
