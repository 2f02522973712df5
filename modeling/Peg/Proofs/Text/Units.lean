import Peg.Text.CodeUnit
import Peg.Text.Hex

/-!
# Digits and code units, read back

What is written in base sixteen, and what is cut into UTF-16 code units, can be put together again:

* **`value?_upperDigit`**, **`value?_digitChar`**: the digit of a number below sixteen, in either
  letter case, has that number as its value.
* **`upper_eq_of_lt_256`** and the lemmas after it: how many digits a code unit has, and which.
* **`decode_encode`**: the code units of a text decode to the text. Its step,
  `decode_ofChar_append`, is what readers of strings need: one character in front of units that may
  be anything.
-/

namespace Peg.Text

/-! ## Hexadecimal digits -/

namespace Hex

/-- The upper-case digit of a number below sixteen. -/
def upperDigit (d : Nat) : Char :=
  (Nat.digitChar d).toUpper

theorem value?_digitChar {d : Nat} (h : d < 16) : value? (Nat.digitChar d) = some d := by
  have hall : ∀ d : Fin 16, value? (Nat.digitChar d) = some d.val := by decide
  exact hall ⟨d, h⟩

theorem value?_upperDigit {d : Nat} (h : d < 16) : value? (upperDigit d) = some d := by
  have hall : ∀ d : Fin 16, value? (upperDigit d) = some d.val := by decide
  exact hall ⟨d, h⟩

theorem upper_of_lt {n : Nat} (h : n < 16) : upper n = [upperDigit n] := by
  rw [upper, lower, Nat.toDigits_of_lt_base h]
  rfl

theorem upper_of_le {n : Nat} (h : 16 ≤ n) : upper n = upper (n / 16) ++ [upperDigit (n % 16)] := by
  rw [upper, lower, Nat.toDigits_of_base_le (by decide) h, List.map_append]
  rfl

theorem upper_eq_of_lt_256 {n : Nat} (hlo : 16 ≤ n) (hhi : n < 256) :
    upper n = [upperDigit (n / 16), upperDigit (n % 16)] := by
  rw [upper_of_le hlo, upper_of_lt (by omega)]
  rfl

theorem upper_eq_of_lt_4096 {n : Nat} (hlo : 256 ≤ n) (hhi : n < 4096) :
    upper n = [upperDigit (n / 256), upperDigit (n / 16 % 16), upperDigit (n % 16)] := by
  rw [upper_of_le (by omega), upper_eq_of_lt_256 (by omega) (by omega),
    show n / 16 / 16 = n / 256 by omega]
  rfl

/-- A number of four digits, digit by digit. -/
theorem upper_eq_of_lt_65536 {n : Nat} (hlo : 4096 ≤ n) (hhi : n < 65536) :
    upper n = [upperDigit (n / 4096), upperDigit (n / 256 % 16), upperDigit (n / 16 % 16),
      upperDigit (n % 16)] := by
  rw [upper_of_le (by omega), upper_eq_of_lt_4096 (by omega) (by omega),
    show n / 16 / 256 = n / 4096 by omega, show n / 16 / 16 % 16 = n / 256 % 16 by omega]
  rfl

end Hex

/-! ## Code units -/

namespace CodeUnit

theorem isLead_iff (u : CodeUnit) : u.isLead = true ↔ 0xD800 ≤ u.toNat ∧ u.toNat ≤ 0xDBFF := by
  rw [isLead, Bool.and_eq_true, decide_eq_true_iff, decide_eq_true_iff, UInt16.le_iff_toNat_le,
    UInt16.le_iff_toNat_le]
  rfl

theorem isTrail_iff (u : CodeUnit) : u.isTrail = true ↔ 0xDC00 ≤ u.toNat ∧ u.toNat ≤ 0xDFFF := by
  rw [isTrail, Bool.and_eq_true, decide_eq_true_iff, decide_eq_true_iff, UInt16.le_iff_toNat_le,
    UInt16.le_iff_toNat_le]
  rfl

theorem toNat_toUInt16 {n : Nat} (h : n < 0x10000) : n.toUInt16.toNat = n := by
  rw [Nat.toUInt16_eq, UInt16.toNat_ofNat', Nat.mod_eq_of_lt h]

/-- The number of a character is no surrogate, and at most 0x10FFFF. -/
theorem toNat_char (c : Char) :
    c.toNat < 0xD800 ∨ (0xDFFF < c.toNat ∧ c.toNat < 0x110000) :=
  c.valid

/-- A character below U+10000 is one code unit, its number. -/
theorem ofChar_of_lt {c : Char} (h : c.toNat < 0x10000) : ofChar c = [c.toNat.toUInt16] := by
  rw [ofChar, if_pos h]

/-- A character from U+10000 on is a lead and a trail surrogate. -/
theorem ofChar_of_le {c : Char} (h : 0x10000 ≤ c.toNat) :
    ofChar c = [(0xD800 + (c.toNat - 0x10000) / 0x400).toUInt16,
      (0xDC00 + (c.toNat - 0x10000) % 0x400).toUInt16] := by
  rw [ofChar, if_neg (by omega)]

theorem length_ofChar_pos (c : Char) : 0 < (ofChar c).length := by
  rw [ofChar]
  split
  · exact Nat.zero_lt_one
  · exact Nat.zero_lt_two

/-- The surrogates of a character join to it. -/
theorem joinPair_surrogates {c : Char} (h : 0x10000 ≤ c.toNat) :
    joinPair (0xD800 + (c.toNat - 0x10000) / 0x400).toUInt16
      (0xDC00 + (c.toNat - 0x10000) % 0x400).toUInt16 = c := by
  have hc := toNat_char c
  rw [joinPair, toNat_toUInt16 (by omega), toNat_toUInt16 (by omega)]
  rw [show 0x10000 + (0xD800 + (c.toNat - 0x10000) / 0x400 - 0xD800) * 0x400 +
      (0xDC00 + (c.toNat - 0x10000) % 0x400 - 0xDC00) = c.toNat by omega]
  exact Char.ofNat_toNat c

/-- A unit that is no surrogate is decoded to a character of its own. -/
theorem decode_cons_of_not_surrogate {u : CodeUnit} (hlead : isLead u = false)
    (htrail : isTrail u = false) (us : List CodeUnit) :
    decode (u :: us) = (decode us).map (Char.ofNat u.toNat :: ·) := by
  rw [decode.eq_def]
  simp [hlead, htrail]

/-- A pair of surrogates is decoded to one character. -/
theorem decode_cons_cons_of_surrogates {u v : CodeUnit} (hlead : isLead u = true)
    (htrail : isTrail v = true) (us : List CodeUnit) :
    decode (u :: v :: us) = (decode us).map (joinPair u v :: ·) := by
  rw [decode.eq_def]
  simp [hlead, htrail]

/-- The code unit of a character below U+10000 is no surrogate, as its number is the character's. -/
theorem not_surrogate_of_lt {c : Char} (h : c.toNat < 0x10000) :
    isLead c.toNat.toUInt16 = false ∧ isTrail c.toNat.toUInt16 = false := by
  have hc := toNat_char c
  rw [← Bool.not_eq_true, ← Bool.not_eq_true, isLead_iff, isTrail_iff, toNat_toUInt16 h]
  omega

/-- The first unit of a character past 16 bits is a lead. -/
theorem isLead_of_le {c : Char} (h : 0x10000 ≤ c.toNat) :
    isLead (0xD800 + (c.toNat - 0x10000) / 0x400).toUInt16 = true := by
  have hc := toNat_char c
  rw [isLead_iff, toNat_toUInt16 (by omega)]
  omega

/-- Its second unit is a trail. -/
theorem isTrail_of_le (c : Char) :
    isTrail (0xDC00 + (c.toNat - 0x10000) % 0x400).toUInt16 = true := by
  rw [isTrail_iff, toNat_toUInt16 (by omega)]
  omega

theorem ofNat_toNat_toUInt16 {c : Char} (h : c.toNat < 0x10000) :
    Char.ofNat c.toNat.toUInt16.toNat = c := by
  rw [toNat_toUInt16 h, Char.ofNat_toNat]

/-- A character in front of code units is decoded first, whatever they are. -/
theorem decode_ofChar_append (c : Char) (us : List CodeUnit) :
    decode (ofChar c ++ us) = (decode us).map (c :: ·) := by
  by_cases h : c.toNat < 0x10000
  · obtain ⟨hlead, htrail⟩ := not_surrogate_of_lt h
    rw [ofChar_of_lt h, List.singleton_append, decode_cons_of_not_surrogate hlead htrail,
      ofNat_toNat_toUInt16 h]
  · have hle : 0x10000 ≤ c.toNat := by omega
    rw [ofChar_of_le hle, List.cons_append, List.singleton_append,
      decode_cons_cons_of_surrogates (isLead_of_le hle) (isTrail_of_le c),
      joinPair_surrogates hle]

@[simp] theorem encode_cons (c : Char) (cs : List Char) :
    encode (c :: cs) = ofChar c ++ encode cs :=
  List.flatMap_cons

/-- **Encoding loses nothing.** The code units of a text decode to the text. -/
@[simp] theorem decode_encode (cs : List Char) : decode (encode cs) = some cs := by
  induction cs with
  | nil => rfl
  | cons c cs ih =>
    simp [decode_ofChar_append, ih]

end CodeUnit

end Peg.Text
