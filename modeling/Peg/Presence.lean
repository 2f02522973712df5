import Peg.Json.Basic
import Peg.Text.Blank

/-!
# Presence and emptiness

"Was anything given?" Absent values, blank text, sequences without elements and maps without keys
are empty; everything else is not, zero and `false` included.
-/

namespace Peg

/-- Types whose values can be empty. -/
class Emptiness (α : Type) where
  isEmpty : α → Bool

namespace Emptiness

instance : Emptiness String where
  isEmpty s := s.toList.all Text.isBlank

instance {α : Type} : Emptiness (List α) where
  isEmpty := List.isEmpty

instance {α : Type} [Emptiness α] : Emptiness (Option α) where
  isEmpty
    | none => true
    | some a => isEmpty a

instance : Emptiness Json where
  isEmpty
    | .null => true
    | .bool _ | .number _ => false
    | .string s => isEmpty s
    | .array items => isEmpty items
    | .object entries => isEmpty entries

def isNonEmpty {α : Type} [Emptiness α] (a : α) : Bool :=
  !isEmpty a

end Emptiness

/-- No value, or an explicit `null`. -/
def Json.isAbsent : Option Json → Bool
  | none | some .null => true
  | some _ => false

def Json.isPresent (value : Option Json) : Bool :=
  !isAbsent value

end Peg
