import Peg.Json.Draft
import Peg.Text.CodeUnit
import Peg.Text.Hex

/-!
# Scanning JSON text

`scan` finds the draft a text starts with and what is left after it. Where the text leaves the
grammar of JSON the draft is broken and nothing is left.
-/

namespace Peg.Json

open Text

def isSpace (c : Char) : Bool :=
  c == ' ' || c == '\t' || c == '\n' || c == '\r'

/-- The text from its first token on. -/
def skipSpace (cs : List Char) : List Char :=
  cs.dropWhile isSpace

/-- The rest of a text after `word`. -/
def scanWord : (word cs : List Char) → Except Fault (List Char)
  | [], cs => .ok cs
  | _ :: _, [] => .error .endOfText
  | w :: word, c :: cs => if w = c then scanWord word cs else .error .malformed

/-- The fault of a text that goes on with `cs` where a digit was due. -/
def digitDue (cs : List Char) : Fault :=
  if cs.isEmpty then .endOfText else .malformed

def digitValue (c : Char) : Fin 10 :=
  Fin.ofNat 10 (c.toNat - 48)

def scanDigits (cs : List Char) : Except Fault (List Char × List Char) :=
  let digits := cs.takeWhile Char.isDigit
  if digits.isEmpty then .error (digitDue cs) else .ok (digits, cs.dropWhile Char.isDigit)

/-- A whole part: digits, of which the first is zero only if it is alone. -/
def scanWhole (cs : List Char) : Except Fault (Nat × List Char) := do
  let (digits, rest) ← scanDigits cs
  match digits with
  -- a zero in front of other digits
  | '0' :: _ :: _ => throw .malformed
  | _ => return (Nat.ofDigitChars 10 digits 0, rest)

def scanFraction : List Char → Except Fault (List (Fin 10) × List Char)
  | '.' :: cs => do
    let (digits, rest) ← scanDigits cs
    return (digits.map digitValue, rest)
  | cs => .ok ([], cs)

/-- The digits of an exponent after its sign. -/
def scanMagnitude (negative : Bool) (cs : List Char) : Except Fault (Option Int × List Char) := do
  let (digits, rest) ← scanDigits cs
  let magnitude : Int := Nat.ofDigitChars 10 digits 0
  return (some (if negative then -magnitude else magnitude), rest)

def scanExponent : List Char → Except Fault (Option Int × List Char)
  | c :: cs =>
    if c = 'e' ∨ c = 'E' then
      match cs with
      | '-' :: rest => scanMagnitude true rest
      | '+' :: rest => scanMagnitude false rest
      | rest => scanMagnitude false rest
    else .ok (none, c :: cs)
  | [] => .ok (none, [])

def scanUnsigned (negative : Bool) (cs : List Char) : Except Fault (Number × List Char) := do
  let (whole, cs) ← scanWhole cs
  let (fraction, cs) ← scanFraction cs
  let (exponent, cs) ← scanExponent cs
  return (⟨negative, whole, fraction, exponent⟩, cs)

def scanNumber : List Char → Except Fault (Number × List Char)
  | '-' :: cs => scanUnsigned true cs
  | cs => scanUnsigned false cs

/-- The character a one-letter escape stands for. -/
def escapes : List (Char × Char) :=
  [('"', '"'), ('\\', '\\'), ('/', '/'), ('b', '\x08'), ('f', '\x0C'), ('n', '\n'), ('r', '\r'),
    ('t', '\t')]

/-- The fault of a text that goes on with `cs` where four hexadecimal digits were due: it has ended
if fewer than four bytes are left. -/
def hexDue (cs : List Char) : Fault :=
  if cs.foldl (fun bytes c => bytes + c.utf8Size) 0 < 4 then .endOfText else .malformed

/-- A string after its opening quote: its code units up to the closing quote or to the fault, and
what is left. -/
def scanString : List Char → List CodeUnit × Except Fault (List Char)
  | [] => ([], .error .endOfText)
  | '"' :: cs => ([], .ok cs)
  | '\\' :: 'u' :: a :: b :: c :: d :: cs =>
    match Hex.unit? a b c d with
    | some u =>
      let (units, rest) := scanString cs
      (u :: units, rest)
    | none => ([], .error (hexDue (a :: b :: c :: d :: cs)))
  -- too few characters are left for four digits
  | '\\' :: 'u' :: cs => ([], .error (hexDue cs))
  | '\\' :: c :: cs =>
    match escapes.lookup c with
    | some e =>
      let (units, rest) := scanString cs
      (CodeUnit.ofChar e ++ units, rest)
    | none => ([], .error .malformed)
  | '\\' :: [] => ([], .error .endOfText)
  | c :: cs =>
    if c.toNat < 0x20 then ([], .error .malformed)
    else
      let (units, rest) := scanString cs
      (CodeUnit.ofChar c ++ units, rest)

/-- The text of a complete string, unless a surrogate in it is unpaired. -/
def textOf (units : List CodeUnit) : Option String :=
  (CodeUnit.decode units).map String.ofList

/-- A string that meets `fault` after `units`. Read, it fails before that if a surrogate among the
units can no longer be paired. -/
def brokenString (units : List CodeUnit) (fault : Fault) : Break :=
  let settled :=
    match units.getLast? with
    | some u => if u.isLead then units.dropLast else units
    | none => units
  .string (if (CodeUnit.decode settled).isSome then fault else .malformed) fault

def wordValue (value : Draft) (word cs : List Char) : Draft × List Char :=
  match scanWord word cs with
  | .ok rest => (value, rest)
  | .error fault => (.broken (.word fault), [])

def stringValue (cs : List Char) : Draft × List Char :=
  match scanString cs with
  | (units, .ok rest) => (.string (textOf units), rest)
  | (units, .error fault) => (.broken (brokenString units fault), [])

def numberValue (cs : List Char) : Draft × List Char :=
  match scanNumber cs with
  | .ok (n, rest) => (.number n, rest)
  | .error fault => (.broken (.number fault), [])

mutual

/-- A value, with `fuel` for every bracket and every item in it. -/
def scanValue : Nat → List Char → Draft × List Char
  -- `scan` starts with more fuel than the text can use
  | 0, _ => (.broken .missing, [])
  | fuel + 1, cs =>
    match skipSpace cs with
    | [] => (.broken .missing, [])
    | 'n' :: cs => wordValue .null ['u', 'l', 'l'] cs
    | 't' :: cs => wordValue (.bool true) ['r', 'u', 'e'] cs
    | 'f' :: cs => wordValue (.bool false) ['a', 'l', 's', 'e'] cs
    | '"' :: cs => stringValue cs
    | '[' :: cs =>
      match skipSpace cs with
      | [] => (.array [] (some .endOfText), [])
      -- only here may the bracket come where an item could: behind a comma one is due
      | ']' :: cs => (.array [] none, cs)
      | cs =>
        let (items, stop, rest) := scanItems fuel cs
        (.array items stop, rest)
    | '\x7b' :: cs =>
      match skipSpace cs with
      | '\x7d' :: cs => (.object [] none, cs)
      | cs =>
        let (entries, stop, rest) := scanEntries fuel cs
        (.object entries stop, rest)
    | c :: cs =>
      if c = '-' ∨ c.isDigit then numberValue (c :: cs) else (.broken .stray, [])

/-- The items of an array from one that is due. -/
def scanItems : Nat → List Char → List Draft × Option Fault × List Char
  | 0, _ => ([], some .endOfText, [])
  | fuel + 1, cs =>
    let (item, rest) := scanValue fuel cs
    match skipSpace rest with
    | [] => ([item], some .endOfText, [])
    | ']' :: rest => ([item], none, rest)
    | ',' :: rest =>
      let (items, stop, rest) := scanItems fuel rest
      (item :: items, stop, rest)
    | _ => ([item], some .malformed, [])

/-- The entries of an object from one that is due. -/
def scanEntries : Nat → List Char → List (Option String × Draft) × Option Stop × List Char
  | 0, _ => ([], some (.key .missing), [])
  | fuel + 1, cs =>
    match skipSpace cs with
    | '"' :: cs =>
      match scanString cs with
      -- what stands behind a broken key is not looked at
      | (units, .error fault) => ([], some (.key (brokenString units fault)), [])
      | (units, .ok rest) =>
        let key := textOf units
        match skipSpace rest with
        | [] => ([(key, .broken (.colon .endOfText))], none, [])
        | ':' :: rest =>
          let (value, rest) := scanValue fuel rest
          match skipSpace rest with
          | [] => ([(key, value)], some (.separator .endOfText), [])
          | '\x7d' :: rest => ([(key, value)], none, rest)
          | ',' :: rest =>
            let (entries, stop, rest) := scanEntries fuel rest
            ((key, value) :: entries, stop, rest)
          | _ => ([(key, value)], some (.separator .malformed), [])
        | _ => ([(key, .broken (.colon .malformed))], none, [])
    | [] => ([], some (.key .missing), [])
    | _ => ([], some (.key .stray), [])

end

/-- The draft a text starts with, and what is left of the text. Every step of the scan takes a
character or opens a value, so twice the length is fuel enough: see `scanValue_eq_scan`. -/
def scan (cs : List Char) : Draft × List Char :=
  scanValue (2 * cs.length + 2) cs

end Peg.Json
