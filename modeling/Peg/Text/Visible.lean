/-!
# White space made visible

Diagnostics show white space by stand-in characters, and mark a position in a text by a colon: with
an offset, every character is preceded by a space, the one at the offset by a colon instead.
-/

namespace Peg.Text

/-- Which white space gets a stand-in. -/
inductive Visibility
  /-- Carriage return, line feed, tab and space. -/
  | all
  /-- The same without the line feed, so that a block keeps its lines. -/
  | noNewline
  /-- None. -/
  | raw
  deriving DecidableEq, Repr

namespace Visibility

/-- The characters that get a stand-in, each with it. -/
def standIns : Visibility → List (Char × Char)
  | all => [('\r', '◄'), ('\n', '▼'), ('\t', '→'), (' ', '˳')]
  | noNewline => [('\r', '◄'), ('\t', '→'), (' ', '˳')]
  | raw => []

def standIn (mode : Visibility) (c : Char) : Char :=
  (mode.standIns.lookup c).getD c

/-- What stands before the character at `index` when the position `offset` is marked. -/
def mark (offset index : Nat) : Char :=
  if index = offset then ':' else ' '

/-- The characters of a rendering. A marked position just past the end puts the colon last. -/
def renderChars (mode : Visibility) (cs : List Char) : Option Nat → List Char
  | none => cs.map mode.standIn
  | some offset =>
    cs.zipIdx.flatMap (fun (c, index) => [mark offset index, mode.standIn c]) ++
      -- a position behind the end has no colon
      (if offset = cs.length then [':'] else [])

/-- Shows `s` with its white space visible, and the position `offset` marked if there is one. -/
def render (mode : Visibility) (s : String) (offset : Option Nat) : String :=
  String.ofList (mode.renderChars s.toList offset)

/-- A block of code with its spaces, tabs and carriage returns visible. -/
def renderBlock (s : String) : String :=
  noNewline.render s none

end Visibility

end Peg.Text
