import Peg.Json.Basic
import Peg.Text.Hex

/-!
# JSON text

A document is written in one of two layouts. `compact` has no white space; `pretty` puts each item
and entry on a line of its own, indented by two spaces for each container around it, and a space
after each colon. Empty containers are `[]` and `{}` in both.
-/

namespace Peg.Json

open Text

/-- The white space between the tokens of a document. -/
inductive Layout
  | compact
  | pretty
  deriving DecidableEq, Repr

/-- What stands before an item, an entry or a closing bracket inside `level` containers. -/
def Layout.newline : Layout → Nat → List Char
  | compact, _ => []
  | pretty, level => '\n' :: List.replicate (2 * level) ' '

def Layout.colon : Layout → List Char
  | compact => [':']
  | pretty => [':', ' ']

/-- The code of a character in a string: quote, backslash and the controls below U+0020 are
escaped, five of these by a letter. -/
def escapeChar (c : Char) : List Char :=
  if c = '"' ∨ c = '\\' then ['\\', c]
  else if c = '\x08' then ['\\', 'b']
  else if c = '\x0C' then ['\\', 'f']
  else if c = '\n' then ['\\', 'n']
  else if c = '\r' then ['\\', 'r']
  else if c = '\t' then ['\\', 't']
  -- by number, filled up to four digits
  else if c.toNat < 0x10 then ['\\', 'u', '0', '0', '0'] ++ Hex.lower c.toNat
  else if c.toNat < 0x20 then ['\\', 'u', '0', '0'] ++ Hex.lower c.toNat
  else [c]

def writeString (s : String) : List Char :=
  '"' :: s.toList.flatMap escapeChar ++ ['"']

def writeInt (i : Int) : List Char :=
  (if i < 0 then ['-'] else []) ++ Nat.toDigits 10 i.natAbs

/-- A number as it was written. -/
def Number.write (n : Number) : List Char :=
  (if n.negative then ['-'] else []) ++ Nat.toDigits 10 n.whole ++
    (if n.fraction = [] then [] else '.' :: n.fraction.map fun d => Nat.digitChar d.val) ++
    match n.exponent with
    | none => []
    | some e => 'e' :: writeInt e

mutual

/-- A document inside `level` containers. -/
def write (layout : Layout) (level : Nat) : Json → List Char
  | .null => ['n', 'u', 'l', 'l']
  | .bool true => ['t', 'r', 'u', 'e']
  | .bool false => ['f', 'a', 'l', 's', 'e']
  | .number n => n.write
  | .string s => writeString s
  | .array [] => ['[', ']']
  | .array (item :: items) =>
    '[' :: layout.newline (level + 1) ++ item.write layout (level + 1) ++
      (writeItems layout (level + 1) items ++ layout.newline level ++ [']'])
  | .object [] => ['\x7b', '\x7d']
  | .object ((key, value) :: entries) =>
    '\x7b' :: layout.newline (level + 1) ++ writeString key ++ layout.colon ++
      value.write layout (level + 1) ++
      (writeEntries layout (level + 1) entries ++ layout.newline level ++ ['\x7d'])

/-- The items after the first, each behind a comma. -/
def writeItems (layout : Layout) (level : Nat) : List Json → List Char
  | [] => []
  | item :: items =>
    ',' :: layout.newline level ++ item.write layout level ++ writeItems layout level items

/-- The entries after the first, each behind a comma. -/
def writeEntries (layout : Layout) (level : Nat) : List (String × Json) → List Char
  | [] => []
  | (key, value) :: entries =>
    ',' :: layout.newline level ++ writeString key ++ layout.colon ++
      value.write layout level ++ writeEntries layout level entries

end

def render (layout : Layout) (document : Json) : String :=
  String.ofList (document.write layout 0)

end Peg.Json
