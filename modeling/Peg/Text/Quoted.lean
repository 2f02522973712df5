import Peg.Text.Hex
import Peg.Text.Unprintable

/-!
# Quoted forms for messages

A text quoted in an error message stands between quotes, with its own quote, the backslash and the
common controls escaped by a backslash and every unprintable character written as `\u{...}`.
-/

namespace Peg.Text.Quoted

/-- The form of one character between two `quote`s. -/
def char (quote c : Char) : List Char :=
  if c = '\x00' then ['\\', '0']
  else if c = '\t' then ['\\', 't']
  else if c = '\n' then ['\\', 'n']
  else if c = '\r' then ['\\', 'r']
  -- the other kind of quote stands bare
  else if c = '\\' ∨ c = quote then ['\\', c]
  else if unprintable.contains c then ['\\', 'u', '\x7b'] ++ Hex.lower c.toNat ++ ['\x7d']
  else [c]

def between (quote : Char) (cs : List Char) : String :=
  String.ofList (quote :: cs.flatMap (char quote) ++ [quote])

def text (s : String) : String :=
  between '"' s.toList

def letter (c : Char) : String :=
  between '\x27' [c]

end Peg.Text.Quoted
