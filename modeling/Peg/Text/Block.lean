import Peg.Text.Blank

/-!
# Blocks of lines

A block is one text with line feeds in it, or a list of lines. Indenting and dedenting work line by
line and keep the shape they were given: `mapLines` is the one place where the two shapes differ.
-/

namespace Peg.Text

/-- One multi-line text, or a list of lines. -/
inductive Block
  | text (content : String)
  | lines (content : List String)
  deriving DecidableEq, Repr

/-- The lines of a text. The empty text is one empty line. -/
def splitLines (s : String) : List String :=
  (s.toList.splitOn '\n').map String.ofList

def joinLines (lines : List String) : String :=
  "\n".intercalate lines

namespace Block

def toLines : Block → List String
  | text s => splitLines s
  | lines ls => ls

def toText : Block → String
  | text s => s
  | lines ls => joinLines ls

def display (b : Block) : String :=
  joinLines b.toLines

/-- Changes every line, keeping the shape. -/
def mapLines (f : String → String) : Block → Block
  | text s => text (joinLines ((splitLines s).map f))
  | lines ls => lines (ls.map f)

def indentation (level : Nat) (unit : String) : String :=
  String.ofList (List.replicate level unit.toList).flatten

/-- Puts `unit`, `level` times over, before every line. -/
def indent (level : Nat) (unit : String) (b : Block) : Block :=
  b.mapLines (indentation level unit ++ ·)

/-- Takes `run` away from the front of `line`. A line that does not start with it stays. -/
def strip (run : List Char) (line : String) : String :=
  match run.isPrefixOf? line.toList with
  | some rest => String.ofList rest
  | none => line

/-- Takes the blank run of the first line away from every line that starts with it. -/
def dedent (b : Block) : Block :=
  match b.toLines with
  | [] => b
  | first :: _ => b.mapLines (strip (margin first.toList))

end Block

end Peg.Text
