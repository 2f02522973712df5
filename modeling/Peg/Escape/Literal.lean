import Peg.Contract
import Peg.Text.CodeUnit
import Peg.Text.Quoted

/-!
# Escaping for generated literals

A text put between the delimiters of a literal in generated source is written in printable ASCII.
One character at a time, the first rule that applies gives its code:

* a delimiter of the literal gets a backslash;
* seven controls have a letter (`\0 \b \t \n \v \f \r`);
* printable ASCII stands for itself;
* anything else is written by number, one code for each UTF-16 code unit, `\xHH` below 0x100 and
  `\uHHHH` above.
-/

namespace Peg.Escape

open Text

/-- The literals text is escaped for. -/
inductive Literal
  | quoted (quote : Char)
  /-- The body of a character class, in a regular expression between slashes. -/
  | charClass
  deriving DecidableEq, Repr

namespace Literal

/-- The characters that must not stand bare in the literal. -/
def delimiters : Literal → List Char
  | quoted quote => ['\\', quote]
  | charClass => ['\\', '/', ']', '^', '-']

end Literal

/-- The controls that have a letter. -/
def controls : List (Char × Char) :=
  [('\x00', '0'), ('\x08', 'b'), ('\t', 't'), ('\n', 'n'), ('\x0B', 'v'), ('\x0C', 'f'),
    ('\r', 'r')]

/-- Printable ASCII, the space included. -/
def isPrintable (c : Char) : Bool :=
  ' ' ≤ c && c ≤ '~'

/-- A code unit by number, with as many zeros as make two digits below 0x100 and four above. -/
def numeric (u : CodeUnit) : List Char :=
  -- the digits come without padding
  let digits := Hex.upper u.toNat
  if u < 0x10 then ['\\', 'x', '0'] ++ digits
  else if u < 0x100 then ['\\', 'x'] ++ digits
  else if u < 0x1000 then ['\\', 'u', '0'] ++ digits
  else ['\\', 'u'] ++ digits

def code (delimiters : List Char) (c : Char) : List Char :=
  -- delimiters first: they are printable too
  if c ∈ delimiters then ['\\', c]
  else
    match controls.lookup c with
    | some letter => ['\\', letter]
    | none => if isPrintable c then [c] else (CodeUnit.ofChar c).flatMap numeric

/-- Writes `s` for the inside of a literal. -/
def Literal.escape (literal : Literal) (s : String) : String :=
  String.ofList (s.toList.flatMap (code literal.delimiters))

/-- The quote of string literals unless another is asked for. -/
def standardQuote : Char := '"'

/-- Writes `s` for the inside of a string literal in double quotes. -/
def string (s : String) : String :=
  (Literal.quoted standardQuote).escape s

/-- Writes `s` for the inside of a character class. A dash or caret is escaped wherever it
stands. -/
def charClass (s : String) : String :=
  Literal.charClass.escape s

/-- The characters a string literal may be closed by: ASCII punctuation other than the backslash,
so that one backslash escapes them and no code starts with them. -/
def isQuote (c : Char) : Bool :=
  let isPunctuation := ('!' ≤ c && c ≤ '/') || (':' ≤ c && c ≤ '@') || ('[' ≤ c && c ≤ '\x60') ||
    ('\x7b' ≤ c && c ≤ '~')
  isPunctuation && c != '\\'

/-- Writes `s` for the inside of a string literal closed by `quote`. -/
def stringWith (s : String) (quote : Char) : Except Violation String := do
  Violation.require (isQuote quote) ("invalid string literal quote " ++ Quoted.letter quote)
  return (Literal.quoted quote).escape s

end Peg.Escape
