/-!
# Shortest decimal text of a double

A finite double is `significand · 2 ^ exponent`. Of the decimals that lie in the interval of reals
rounding to it, the text shows one with the fewest digits, and of those the nearest. All arithmetic
is exact: the decimal grids are compared with the interval over the natural numbers.
-/

namespace Peg.Decimal

def twoTo (n : Nat) : Nat := Nat.pow 2 n

def tenTo (n : Nat) : Nat := Nat.pow 10 n

/-- A positive double, exactly: `significand · 2 ^ exponent`. At a power of two the gap to the next
smaller double is half as wide. -/
structure Binary where
  significand : Nat
  exponent : Int
  narrowBelow : Bool
  deriving DecidableEq, Repr

/-- The magnitude of a finite double, from its bits. -/
def Binary.ofFloat (x : Float) : Binary :=
  let bits := x.toBits.toNat
  let biased : Nat := bits / twoTo 52 % twoTo 11
  let fraction : Nat := bits % twoTo 52
  if biased = 0 then ⟨fraction, -1074, false⟩
  else ⟨twoTo 52 + fraction, (biased : Int) - 1075, fraction = 0 && 1 < biased⟩

/-- Decimal digits, most significant first; the first one counts units of `10 ^ exponent`. -/
structure Digits where
  digits : List Char
  exponent : Int
  deriving DecidableEq, Repr

namespace Binary

/-- The interval of the reals that round to a value, on a decimal grid: numerators of its two ends
and of the value, and the numerator of one step of the grid, over one denominator. -/
structure Interval where
  low : Nat
  value : Nat
  high : Nat
  step : Nat

/-- The interval of `b` on the grid of the multiples of `10 ^ grid`. The ends lie half a gap from
the value, so all is counted in quarters of its last place. -/
def interval (b : Binary) (grid : Int) : Interval :=
  let scale := twoTo (b.exponent - 2).toNat * tenTo (-grid).toNat
  let quarters := 4 * b.significand
  ⟨(if b.narrowBelow then quarters - 1 else quarters - 2) * scale, quarters * scale,
    (quarters + 2) * scale, twoTo (2 - b.exponent).toNat * tenTo grid.toNat⟩

/-- The point of the grid `10 ^ grid` nearest to the value, if one of its two neighbours on the
grid lies in the interval. The bounds belong to it when the significand is even; of two neighbours
at one distance the even one wins. -/
def pointOn (b : Binary) (grid : Int) : Option Nat :=
  let i := b.interval grid
  let inside (n : Nat) : Bool :=
    -- ties go to the even significand, and so do the bounds
    if b.significand % 2 = 0 then decide (i.low ≤ n * i.step) && decide (n * i.step ≤ i.high)
    else decide (i.low < n * i.step) && decide (n * i.step < i.high)
  let below := i.value / i.step
  let above := below + 1
  match inside below, inside above with
  | false, false => none
  | true, false => some below
  | false, true => some above
  | true, true =>
    let down := i.value - below * i.step
    let up := above * i.step - i.value
    if down < up ∨ (down = up ∧ below % 2 = 0) then some below else some above

/-- The power of ten of the leading digit. -/
def leading (b : Binary) : Int :=
  let whole := b.significand * twoTo b.exponent.toNat / twoTo (-b.exponent).toNat
  if 0 < whole then (Nat.toDigits 10 whole).length - 1
  else
    -- below one: the first power of ten that lifts the value to one
    let isReached (k : Nat) : Bool :=
      twoTo (-b.exponent).toNat ≤ b.significand * tenTo k
    let places : Nat := ((List.range 325).find? isReached).getD 325
    Int.negOfNat places

/-- The fewest digits that round to the value. Seventeen always do. -/
def shortest (b : Binary) : Digits :=
  let lead := b.leading
  let grids := (List.range 17).map fun (n : Nat) => lead - n
  -- coarse grids first: a point on one has the fewest digits
  match grids.findSome? fun grid => (b.pointOn grid).map (·, grid) with
  | some (point, grid) =>
    let digits := Nat.toDigits 10 point
    -- zeros at the end say nothing that the exponent does not
    let kept := (digits.reverse.dropWhile (· == '0')).reverse
    ⟨kept, grid + digits.length - 1⟩
  | none => ⟨['0'], 0⟩

end Binary

/-- How digits are laid out: positionally from `10 ^ lowest` to `10 ^ highest`, otherwise with an
exponent, which always has a sign. -/
structure Format where
  lowest : Int
  highest : Int

/-- The layout of doubles in messages. -/
def Format.message : Format := ⟨-5, 15⟩

/-- The text of digits in a layout. A positional text always has a point. -/
def Digits.render (format : Format) (d : Digits) : List Char :=
  if d.exponent < format.lowest ∨ format.highest < d.exponent then
    let mantissa :=
      match d.digits with
      | first :: second :: rest => first :: '.' :: second :: rest
      | digits => digits
    mantissa ++ ['e', if d.exponent < 0 then '-' else '+'] ++ Nat.toDigits 10 d.exponent.natAbs
  else if d.exponent < 0 then
    ['0', '.'] ++ List.replicate (-d.exponent - 1).toNat '0' ++ d.digits
  else
    let places := d.exponent.toNat + 1
    let padded := d.digits ++ List.replicate (places - d.digits.length) '0'
    let fraction := padded.drop places
    padded.take places ++ ['.'] ++ (if fraction = [] then ['0'] else fraction)

/-- The text of a finite double. -/
def render (x : Float) : String :=
  let sign := if twoTo 63 ≤ x.toBits.toNat then ['-'] else []
  let b := Binary.ofFloat x
  let magnitude := if b.significand = 0 then ['0', '.', '0'] else b.shortest.render .message
  String.ofList (sign ++ magnitude)

end Peg.Decimal
