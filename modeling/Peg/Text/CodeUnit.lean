/-!
# UTF-16 code units

A character below U+10000 is one code unit, any other a lead and a trail surrogate. `decode` pairs
surrogates up again and refuses a sequence in which one stands alone.
-/

namespace Peg.Text

abbrev CodeUnit := UInt16

namespace CodeUnit

/-- First half of a surrogate pair. -/
def isLead (u : CodeUnit) : Bool := 0xD800 ≤ u && u ≤ 0xDBFF

/-- Second half of a surrogate pair. -/
def isTrail (u : CodeUnit) : Bool := 0xDC00 ≤ u && u ≤ 0xDFFF

def ofChar (c : Char) : List CodeUnit :=
  if c.toNat < 0x10000 then [c.toNat.toUInt16]
  else
    let offset := c.toNat - 0x10000
    [(0xD800 + offset / 0x400).toUInt16, (0xDC00 + offset % 0x400).toUInt16]

def encode (cs : List Char) : List CodeUnit :=
  cs.flatMap ofChar

def joinPair (lead trail : CodeUnit) : Char :=
  Char.ofNat (0x10000 + (lead.toNat - 0xD800) * 0x400 + (trail.toNat - 0xDC00))

/-- The text of a sequence of code units, if every surrogate in it is paired. -/
def decode : List CodeUnit → Option (List Char)
  | [] => some []
  | u :: us =>
    if isLead u then
      match us with
      | v :: vs => if isTrail v then (decode vs).map (joinPair u v :: ·) else none
      | [] => none
    -- a trail surrogate with no lead before it
    else if isTrail u then none
    else (decode us).map (Char.ofNat u.toNat :: ·)

end CodeUnit

end Peg.Text
