import Peg.Json.Printer
import Peg.Json.Scanner
import Peg.Proofs.Text.Units

/-!
# Scanning the tokens that are written

What the printer writes for a string or a number, the scanner takes back whole, whatever text comes
behind it:

* **`scanString_write`**: a string ends at its closing quote, since no code of a character holds a
  bare quote, and its units decode to the string (`textOf_encode`).
* **`scanNumber_write`**: a number is taken back as it was written, digit for digit, if what follows
  cannot continue a number (**`Ends`**). Nothing the printer puts behind a value can.
-/

namespace Peg.Json

open Text

/-! ## White space -/

theorem skipSpace_cons_of_not_space {c : Char} (h : isSpace c = false) (cs : List Char) :
    skipSpace (c :: cs) = c :: cs := by
  rw [skipSpace, List.dropWhile_cons_of_neg (by simp [h])]

/-- White space in front of a text is passed over. -/
theorem skipSpace_append {ws : List Char} (h : ∀ c ∈ ws, isSpace c = true) (cs : List Char) :
    skipSpace (ws ++ cs) = skipSpace cs := by
  induction ws with
  | nil => rfl
  | cons c ws ih =>
    have hc : isSpace c = true := h c (List.mem_cons_self ..)
    rw [List.cons_append, skipSpace, List.dropWhile_cons_of_pos hc]
    exact ih fun d hd => h d (List.mem_cons_of_mem _ hd)

/-! ## Strings -/

/-- The two digits of a control below U+0020 give its code unit. -/
theorem unit?_lower {n : Nat} (h : n < 0x20) :
    ∃ a b, (if n < 0x10 then '0' :: Hex.lower n else Hex.lower n) = [a, b]
      ∧ Hex.unit? '0' '0' a b = some n.toUInt16 := by
  have hzero : Hex.value? '0' = some 0 := rfl
  by_cases hnibble : n < 0x10
  · refine ⟨'0', Nat.digitChar n, ?_, ?_⟩
    · rw [if_pos hnibble, Hex.lower, Nat.toDigits_of_lt_base hnibble]
    · simp [Hex.unit?, hzero, Hex.value?_digitChar hnibble]
  · refine ⟨Nat.digitChar (n / 16), Nat.digitChar (n % 16), ?_, ?_⟩
    · rw [if_neg hnibble, Hex.lower, Nat.toDigits_of_base_le (by decide) (by omega),
        Nat.toDigits_of_lt_base (by omega)]
      rfl
    · rw [Hex.unit?, hzero, Hex.value?_digitChar (show n / 16 < 16 by omega),
        Hex.value?_digitChar (show n % 16 < 16 by omega)]
      show some (((0 * 16 + 0) * 16 + n / 16) * 16 + n % 16).toUInt16 = some n.toUInt16
      rw [show ((0 * 16 + 0) * 16 + n / 16) * 16 + n % 16 = n by omega]

/-- An escape by letter gives the units of its character. -/
theorem scanString_letter {letter e : Char} (hnumber : letter ≠ 'u')
    (h : escapes.lookup letter = some e) (rest : List Char) :
    scanString ('\\' :: letter :: rest)
      = (CodeUnit.ofChar e ++ (scanString rest).1, (scanString rest).2) := by
  rw [scanString, h]
  · intro a b c d cs hu
    exact absurd hu hnumber
  · exact hnumber

/-- A character that needs no escape gives its units. -/
theorem scanString_plain {c : Char} (hquote : c ≠ '"') (hbackslash : c ≠ '\\')
    (hcontrol : ¬ c.toNat < 0x20) (rest : List Char) :
    scanString (c :: rest)
      = (CodeUnit.ofChar c ++ (scanString rest).1, (scanString rest).2) := by
  rw [scanString, if_neg hcontrol]
  all_goals simp [hquote, hbackslash]

/-- **The code of a character is scanned as the units of that character.** -/
theorem scanString_escapeChar (c : Char) (rest : List Char) :
    scanString (escapeChar c ++ rest)
      = (CodeUnit.ofChar c ++ (scanString rest).1, (scanString rest).2) := by
  unfold escapeChar
  split
  · next h =>
    rcases h with rfl | rfl
    · exact scanString_letter (by decide) rfl rest
    · exact scanString_letter (by decide) rfl rest
  split
  · next h => subst h; exact scanString_letter (by decide) rfl rest
  split
  · next h => subst h; exact scanString_letter (by decide) rfl rest
  split
  · next h => subst h; exact scanString_letter (by decide) rfl rest
  split
  · next h => subst h; exact scanString_letter (by decide) rfl rest
  split
  · next h => subst h; exact scanString_letter (by decide) rfl rest
  split
  · next h =>
    obtain ⟨a, b, hdigits, hunit⟩ := unit?_lower (show c.toNat < 0x20 by omega)
    rw [if_pos h] at hdigits
    have htext : ['\\', 'u', '0', '0', '0'] ++ Hex.lower c.toNat ++ rest
        = '\\' :: 'u' :: '0' :: '0' :: a :: b :: rest := by
      rw [show ['\\', 'u', '0', '0', '0'] ++ Hex.lower c.toNat
        = ['\\', 'u', '0', '0'] ++ ('0' :: Hex.lower c.toNat) from rfl, hdigits]
      rfl
    rw [htext, scanString, hunit, CodeUnit.ofChar_of_lt (by omega)]
    rfl
  split
  · next hlo h =>
    obtain ⟨a, b, hdigits, hunit⟩ := unit?_lower h
    rw [if_neg hlo] at hdigits
    rw [hdigits, CodeUnit.ofChar_of_lt (by omega)]
    show scanString ('\\' :: 'u' :: '0' :: '0' :: a :: b :: rest) = _
    rw [scanString, hunit]
    rfl
  · next hspecial _ _ _ _ _ _ h =>
    obtain ⟨hquote, hbackslash⟩ : c ≠ '"' ∧ c ≠ '\\' := not_or.mp hspecial
    exact scanString_plain hquote hbackslash h rest

/-- **A written string is scanned up to its closing quote.** -/
theorem scanString_write (s rest : List Char) :
    scanString (s.flatMap escapeChar ++ '"' :: rest) = (CodeUnit.encode s, .ok rest) := by
  induction s with
  | nil => simp [scanString, CodeUnit.encode]
  | cons c s ih =>
    simp [scanString_escapeChar, ih]

/-- The units of a string are those of a text, as their surrogates are paired. -/
@[simp] theorem textOf_encode (s : String) : textOf (CodeUnit.encode s.toList) = some s := by
  simp [textOf]

/-- A string is taken back up to its closing quote. -/
theorem stringValue_write (s : String) (rest : List Char) :
    stringValue (s.toList.flatMap escapeChar ++ '"' :: rest) = (.string (some s), rest) := by
  simp [stringValue, scanString_write]

/-! ## Numbers -/

/-- A text that cannot continue a number. -/
def Ends (rest : List Char) : Prop :=
  ∀ c, rest.head? = some c → c.isDigit = false ∧ c ≠ '.' ∧ c ≠ 'e' ∧ c ≠ 'E'

def EndsDigits (rest : List Char) : Prop :=
  ∀ c, rest.head? = some c → c.isDigit = false

/-- What ends a number ends its digits. -/
theorem Ends.endsDigits {rest : List Char} (h : Ends rest) : EndsDigits rest :=
  fun c hc => (h c hc).1

theorem endsDigits_cons {c : Char} (h : c.isDigit = false) (rest : List Char) :
    EndsDigits (c :: rest) := by
  intro d hd
  cases hd
  exact h

/-- Digits are taken whole if what comes behind them is none. -/
theorem scanDigits_append {ds rest : List Char} (hne : ds ≠ [])
    (hdigit : ∀ c ∈ ds, c.isDigit = true) (hrest : EndsDigits rest) :
    scanDigits (ds ++ rest) = .ok (ds, rest) := by
  have htake : rest.takeWhile Char.isDigit = [] := by
    cases rest with
    | nil => rfl
    | cons c cs => exact List.takeWhile_cons_of_neg (by simp [hrest c rfl])
  have hdrop : rest.dropWhile Char.isDigit = rest := by
    cases rest with
    | nil => rfl
    | cons c cs => exact List.dropWhile_cons_of_neg (by simp [hrest c rfl])
  rw [scanDigits, List.takeWhile_append_of_pos hdigit, List.dropWhile_append_of_pos hdigit, htake,
    hdrop, List.append_nil]
  simp [hne]

/-- The digits of a number are at least one. -/
theorem toDigits_eq_cons (n : Nat) : ∃ d ds, Nat.toDigits 10 n = d :: ds ∧ d.isDigit = true := by
  cases hds : Nat.toDigits 10 n with
  | nil => exact absurd hds Nat.toDigits_ne_nil
  | cons d ds =>
    have hmem : d ∈ Nat.toDigits 10 n := by
      rw [hds]
      exact List.mem_cons_self ..
    exact ⟨d, ds, rfl, Nat.isDigit_of_mem_toDigits (by decide) (by decide) hmem⟩

/-- The first digit of a positive number is not zero. -/
theorem toDigits_head {n : Nat} (h : 0 < n) :
    ∃ d ds, Nat.toDigits 10 n = d :: ds ∧ d ≠ '0' := by
  induction n using Nat.strongRecOn with
  | ind n ih =>
    by_cases hten : n < 10
    · refine ⟨n.digitChar, [], Nat.toDigits_of_lt_base hten, ?_⟩
      have hall : ∀ d : Fin 10, 0 < d.val → Nat.digitChar d.val ≠ '0' := by decide
      exact hall ⟨n, hten⟩ h
    · obtain ⟨d, ds, hds, hzero⟩ := ih (n / 10) (by omega) (by omega)
      refine ⟨d, ds ++ [(n % 10).digitChar], ?_, hzero⟩
      rw [Nat.toDigits_of_base_le (by decide) (by omega), hds]
      rfl

/-- A whole part is taken back: its digits start with zero only if it is zero. -/
theorem scanWhole_toDigits (n : Nat) {rest : List Char} (hrest : EndsDigits rest) :
    scanWhole (Nat.toDigits 10 n ++ rest) = .ok (n, rest) := by
  have hdigit : ∀ c ∈ Nat.toDigits 10 n, c.isDigit = true := fun c hc =>
    Nat.isDigit_of_mem_toDigits (by decide) (by decide) hc
  rw [scanWhole, scanDigits_append Nat.toDigits_ne_nil hdigit hrest]
  by_cases hzero : n = 0
  · subst hzero
    rfl
  · obtain ⟨d, ds, hds, hd⟩ := toDigits_head (Nat.pos_of_ne_zero hzero)
    have hvalue : Nat.ofDigitChars 10 (d :: ds) 0 = n := by
      rw [← hds, Nat.ofDigitChars_ten_toDigits]
    rw [hds]
    simp only [bind, Except.bind]
    split
    · next heq =>
      cases heq
      exact absurd rfl hd
    · rw [hvalue]
      rfl

@[simp] theorem digitValue_digitChar (d : Fin 10) : digitValue (Nat.digitChar d.val) = d := by
  revert d
  decide

theorem isDigit_digitChar_fin (d : Fin 10) : (Nat.digitChar d.val).isDigit = true := by
  revert d
  decide

/-- A fraction is taken back, and where there is none, no point follows. -/
theorem scanFraction_write (fraction : List (Fin 10)) {rest : List Char}
    (hrest : EndsDigits rest) (hpoint : rest.head? ≠ some '.') :
    scanFraction ((if fraction = [] then []
        else '.' :: fraction.map fun d => Nat.digitChar d.val) ++ rest) = .ok (fraction, rest) := by
  by_cases hempty : fraction = []
  · rw [if_pos hempty, List.nil_append, hempty]
    rw [scanFraction]
    rintro cs rfl
    exact hpoint rfl
  · have hdigit : ∀ c ∈ fraction.map fun d => Nat.digitChar d.val, c.isDigit = true := by
      intro c hc
      obtain ⟨d, -, rfl⟩ := List.mem_map.mp hc
      exact isDigit_digitChar_fin d
    have hne : (fraction.map fun d => Nat.digitChar d.val) ≠ [] := by simpa using hempty
    have hvalue : (fraction.map fun d => Nat.digitChar d.val).map digitValue = fraction := by
      rw [List.map_map]
      exact (List.map_congr_left fun d _ => digitValue_digitChar d).trans (List.map_id _)
    rw [if_neg hempty, List.cons_append, scanFraction, scanDigits_append hne hdigit hrest]
    show Except.ok (((fraction.map fun d => Nat.digitChar d.val).map digitValue), rest) = _
    rw [hvalue]

/-- The digits of an exponent are taken back, with the sign that was in front. -/
theorem scanMagnitude_toDigits (negative : Bool) (n : Nat) {rest : List Char}
    (hrest : EndsDigits rest) :
    scanMagnitude negative (Nat.toDigits 10 n ++ rest)
      = .ok (some (if negative then -(n : Int) else n), rest) := by
  have hdigit : ∀ c ∈ Nat.toDigits 10 n, c.isDigit = true := fun c hc =>
    Nat.isDigit_of_mem_toDigits (by decide) (by decide) hc
  rw [scanMagnitude, scanDigits_append Nat.toDigits_ne_nil hdigit hrest]
  show Except.ok (some (if negative then -(Nat.ofDigitChars 10 (Nat.toDigits 10 n) 0 : Int)
    else Nat.ofDigitChars 10 (Nat.toDigits 10 n) 0), rest) = _
  rw [Nat.ofDigitChars_ten_toDigits]

/-- An exponent is taken back. -/
theorem scanExponent_writeInt (e : Int) {rest : List Char} (hrest : EndsDigits rest) :
    scanExponent ('e' :: writeInt e ++ rest) = .ok (some e, rest) := by
  by_cases hneg : e < 0
  · have habs : -(e.natAbs : Int) = e := by omega
    rw [writeInt, if_pos hneg, List.singleton_append, List.cons_append, List.cons_append]
    show scanMagnitude true (Nat.toDigits 10 e.natAbs ++ rest) = _
    rw [scanMagnitude_toDigits true _ hrest, if_pos rfl, habs]
  · have habs : (e.natAbs : Int) = e := by omega
    rw [writeInt, if_neg hneg, List.nil_append, List.cons_append]
    -- a digit comes next, so there is no sign to take
    have hmagnitude : scanExponent ('e' :: (Nat.toDigits 10 e.natAbs ++ rest))
        = scanMagnitude false (Nat.toDigits 10 e.natAbs ++ rest) := by
      obtain ⟨d, ds, hds, hd⟩ := toDigits_eq_cons e.natAbs
      have hminus : d ≠ '-' := by
        rintro rfl
        exact absurd hd (by decide)
      have hplus : d ≠ '+' := by
        rintro rfl
        exact absurd hd (by decide)
      rw [hds]
      rw [scanExponent.eq_def]
      simp [hminus, hplus]
    rw [hmagnitude, scanMagnitude_toDigits false _ hrest, if_neg (by decide), habs]

/-- What ends a number is no exponent. -/
theorem scanExponent_of_ends {rest : List Char} (hrest : Ends rest) :
    scanExponent rest = .ok (none, rest) := by
  cases rest with
  | nil => rfl
  | cons c cs =>
    obtain ⟨-, -, hlower, hupper⟩ := hrest c rfl
    rw [scanExponent.eq_def]
    exact if_neg (not_or.mpr ⟨hlower, hupper⟩)

/-- The text of an exponent, or of none. -/
def writeExponent : Option Int → List Char
  | none => []
  | some e => 'e' :: writeInt e

/-- So an exponent is taken back, if there is one. -/
theorem scanExponent_write (exponent : Option Int) {rest : List Char} (hrest : Ends rest) :
    scanExponent (writeExponent exponent ++ rest) = .ok (exponent, rest) := by
  cases exponent with
  | none => exact scanExponent_of_ends hrest
  | some e => exact scanExponent_writeInt e hrest.endsDigits

/-- An exponent ends the digits in front of it and is no fraction. -/
theorem writeExponent_head (exponent : Option Int) {rest : List Char} (hrest : Ends rest) :
    EndsDigits (writeExponent exponent ++ rest)
      ∧ (writeExponent exponent ++ rest).head? ≠ some '.' := by
  cases exponent with
  | none => exact ⟨hrest.endsDigits, fun h => (hrest '.' h).2.1 rfl⟩
  | some e => exact ⟨endsDigits_cons (by decide) _, by simp [writeExponent]⟩

/-- A number is taken back part by part. -/
theorem scanUnsigned_write (n : Number) {rest : List Char} (hrest : Ends rest) :
    scanUnsigned n.negative (Nat.toDigits 10 n.whole ++
        ((if n.fraction = [] then [] else '.' :: n.fraction.map fun d => Nat.digitChar d.val) ++
          (writeExponent n.exponent ++ rest))) = .ok (n, rest) := by
  obtain ⟨hdigits, hpoint⟩ := writeExponent_head n.exponent hrest
  have hfraction : EndsDigits
      ((if n.fraction = [] then [] else '.' :: n.fraction.map fun d => Nat.digitChar d.val) ++
        (writeExponent n.exponent ++ rest)) := by
    split
    · exact hdigits
    · exact endsDigits_cons (by decide) _
  rw [scanUnsigned, scanWhole_toDigits _ hfraction]
  show (scanFraction _ >>= _) = _
  rw [scanFraction_write n.fraction hdigits hpoint]
  show (scanExponent _ >>= _) = _
  rw [scanExponent_write n.exponent hrest]
  rfl

/-- **A written number is scanned as it was**, in front of anything that cannot continue it. -/
theorem scanNumber_write (n : Number) {rest : List Char} (hrest : Ends rest) :
    scanNumber (n.write ++ rest) = .ok (n, rest) := by
  have hunsigned := scanUnsigned_write n hrest
  have hwrite : n.write = (if n.negative then ['-'] else []) ++ Nat.toDigits 10 n.whole ++
      (if n.fraction = [] then [] else '.' :: n.fraction.map fun d => Nat.digitChar d.val) ++
      writeExponent n.exponent := by
    unfold Number.write writeExponent
    rfl
  rw [hwrite]
  simp only [List.append_assoc]
  cases hneg : n.negative with
  | true =>
    rw [hneg] at hunsigned
    exact hunsigned
  | false =>
    rw [hneg] at hunsigned
    -- the whole part starts with a digit, which is no sign
    rw [if_neg (by decide), List.nil_append]
    obtain ⟨d, ds, hds, hd⟩ := toDigits_eq_cons n.whole
    have hminus : d ≠ '-' := by
      rintro rfl
      exact absurd hd (by decide)
    rw [hds] at hunsigned ⊢
    rw [List.cons_append, scanNumber]
    · exact hunsigned
    · intro cs hcs
      exact absurd (List.cons.inj hcs).1 hminus

end Peg.Json
