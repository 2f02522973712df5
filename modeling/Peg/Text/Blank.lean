import Peg.Text.CodeRanges

/-!
# Blank characters

Emptiness checks and dedenting share one notion of blank: the characters with Unicode's
`White_Space` property, and the byte-order mark.
-/

namespace Peg.Text

/-- Unicode's `White_Space` characters. -/
def whiteSpace : CodeRanges :=
  [(0x9, 0xD), (0x20, 0x20), (0x85, 0x85), (0xA0, 0xA0), (0x1680, 0x1680), (0x2000, 0x200A),
    (0x2028, 0x2029), (0x202F, 0x202F), (0x205F, 0x205F), (0x3000, 0x3000)]

/-- The byte-order mark, which generated programs also treat as space. -/
def byteOrderMark : Char := '\uFEFF'

def isBlank (c : Char) : Bool :=
  whiteSpace.contains c || c == byteOrderMark

/-- The blank run a line starts with. -/
def margin (line : List Char) : List Char :=
  line.takeWhile isBlank

end Peg.Text
