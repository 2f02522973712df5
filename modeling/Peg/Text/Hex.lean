/-!
# Hexadecimal digits

Numbers are written in base sixteen without padding, in either letter case; `Hex.value?` reads one
digit of either case back.
-/

namespace Peg.Text.Hex

/-- Lower-case digits of `n`, most significant first. -/
def lower (n : Nat) : List Char :=
  Nat.toDigits 16 n

def upper (n : Nat) : List Char :=
  (lower n).map Char.toUpper

/-- The value of one digit. -/
def value? (c : Char) : Option Nat :=
  if '0' ≤ c ∧ c ≤ '9' then some (c.toNat - 48)
  else if 'a' ≤ c ∧ c ≤ 'f' then some (c.toNat - 87)
  else if 'A' ≤ c ∧ c ≤ 'F' then some (c.toNat - 55)
  else none

def unit? (a b c d : Char) : Option UInt16 := do
  let a ← value? a
  let b ← value? b
  let c ← value? c
  let d ← value? d
  return (((a * 16 + b) * 16 + c) * 16 + d).toUInt16

end Peg.Text.Hex
