import Peg.Decimal.Shortest

/-!
# JSON numbers

A number is kept as it is written: sign, whole part, fraction, exponent. A number without fraction
and exponent that fits a 64-bit word is an integer; any other is a double, computed from the leading
64 bits of its digits, and has no value when that overflows.
-/

namespace Peg

/-- A JSON number as written. `1`, `1.0` and `1e0` are three numbers. -/
structure Json.Number where
  negative : Bool
  whole : Nat
  fraction : List (Fin 10)
  exponent : Option Int
  deriving DecidableEq, Repr

namespace Json.Number

def ofNat (n : Nat) : Number := ⟨false, n, [], none⟩

/-- The first natural number that does not fit 64 bits. -/
def wordBound : Nat := 0x10000000000000000

/-- The greatest magnitude of a negative number of 64 bits. -/
def lowestMagnitude : Nat := 0x8000000000000000

/-- The number as an integer of 64 bits, with or without sign. Minus zero is none. -/
def integer? (n : Number) : Option Int :=
  if n.fraction ≠ [] ∨ n.exponent ≠ none then none
  else if n.negative then
    -- minus zero is a double
    if 0 < n.whole ∧ n.whole ≤ lowestMagnitude then some (-n.whole) else none
  else if n.whole < wordBound then some n.whole
  else none

/-- Takes digits away from the right of `n` until it fits 64 bits, counting them. -/
def truncate (n : Nat) (dropped : Int) : Nat × Int :=
  if n < wordBound then (n, dropped) else truncate (n / 10) (dropped + 1)
termination_by n
decreasing_by
  simp only [wordBound] at *
  omega

/-- Appends fraction digits to a significand as long as the result fits 64 bits. -/
def extend (significand : Nat) (exponent : Int) : List (Fin 10) → Nat × Int
  | [] => (significand, exponent)
  | d :: ds =>
    if significand * 10 + d < wordBound then extend (significand * 10 + d) (exponent - 1) ds
    else (significand, exponent)

/-- The leading digits of the number as a 64-bit significand and a power of ten. -/
def scaled (n : Number) : Nat × Int :=
  let (whole, dropped) := truncate n.whole 0
  let (significand, exponent) := extend whole dropped n.fraction
  (significand, exponent + n.exponent.getD 0)

def tenTo (k : Nat) : Float := Float.ofScientific 1 false k

/-- The double nearest to the significand, scaled by one power of ten, or by two when one double
cannot hold the power. `none` when the result is infinite. -/
def magnitude? (significand : Nat) (exponent : Int) : Option Float :=
  let x := significand.toUInt64.toFloat
  -- zero stays zero, however it is scaled
  if 308 < exponent then
    if significand = 0 then some x else none
  else if 0 ≤ exponent then
    let y := x * tenTo exponent.toNat
    if y.isInf then none else some y
  else if -308 ≤ exponent then some (x / tenTo (-exponent).toNat)
  else if -616 ≤ exponent then some (x / tenTo 308 / tenTo (-exponent - 308).toNat)
  -- too small for any double but zero
  else some 0.0

def toFloat? (n : Number) : Option Float :=
  let (significand, exponent) := n.scaled
  (magnitude? significand exponent).map fun x => if n.negative then -x else x

def inRange (n : Number) : Bool :=
  n.integer?.isSome || n.toFloat?.isSome

/-- The number in a message: the kind it was read as, and its value. -/
def describe (n : Number) : String :=
  match n.integer? with
  | some i => "integer \x60" ++ toString i ++ "\x60"
  | none =>
    match n.toFloat? with
    | some x => "floating point \x60" ++ Decimal.render x ++ "\x60"
    | none => "number out of range"

end Json.Number

end Peg
