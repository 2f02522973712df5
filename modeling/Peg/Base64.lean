/-!
# Base64

Bytes as text in the standard alphabet, in groups of four characters for three bytes; a last group
of one or two bytes is padded with `=`.
-/

namespace Peg.Base64

/-- The character of a six-bit number. -/
def digit (n : Nat) : Char :=
  if n < 26 then Char.ofNat (65 + n)
  else if n < 52 then Char.ofNat (71 + n)
  else if n < 62 then Char.ofNat (n - 4)
  else if n = 62 then '+'
  else '/'

/-- The six-bit group of the 24-bit number `n` that has `later` groups after it. -/
def sextet (n later : Nat) : Char :=
  digit ((n >>> (6 * later)) % 64)

def encodeChars : List UInt8 → List Char
  | [] => []
  -- the bytes that are missing count as zero, and only numbers with bits of a byte are written
  | [a] =>
    let n := a.toNat * 0x10000
    [sextet n 3, sextet n 2, '=', '=']
  | [a, b] =>
    let n := a.toNat * 0x10000 + b.toNat * 0x100
    [sextet n 3, sextet n 2, sextet n 1, '=']
  | a :: b :: c :: rest =>
    let n := a.toNat * 0x10000 + b.toNat * 0x100 + c.toNat
    sextet n 3 :: sextet n 2 :: sextet n 1 :: sextet n 0 :: encodeChars rest

/-- Writes `bytes` in padded base64. -/
def encode (bytes : List UInt8) : String :=
  String.ofList (encodeChars bytes)

end Peg.Base64
