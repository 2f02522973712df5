import Peg.Json.Scanner
import Peg.Text.Quoted

/-!
# Reading values from JSON text

A reader takes a draft apart in the order of the text and ends at the first thing that is not as it
should be: a `Fault` of the text itself, or a `Mismatch` between the text and what was to be read
from it. Only a mismatch has a message.
-/

namespace Peg.Json

open Text

/-- What a reader asks for at a spot. -/
inductive Expected
  | string
  | boolean
  | sequence
  | unit
  | variantName
  | record (name : String)
  | taggedUnion (name : String)
  deriving DecidableEq, Repr

/-- What a reader asks of the number of items of an array. -/
inductive Arity
  /-- The fields of the record or variant called `name`. -/
  | fields (name : String) (count : Nat)
  /-- Exactly so many items, when there are more. -/
  | items (count : Nat)
  deriving DecidableEq, Repr

/-- How a text that is JSON fails to hold what was to be read. -/
inductive Mismatch
  | wrongType (found : Found) (expected : Expected)
  | missingField (key : String)
  | duplicateField (key : String)
  | wrongLength (length : Nat) (expected : Arity)
  | unknownVariant (name : String) (known : List String)
  | wrongIndex (index count : Nat)
  | noAlternative (union : String)
  deriving DecidableEq, Repr

inductive ReadError
  | fault (fault : Fault)
  | mismatch (mismatch : Mismatch)
  deriving DecidableEq, Repr

abbrev Read := Except ReadError

/-! ### Messages -/

def backquoted (name : String) : String :=
  "\x60" ++ name ++ "\x60"

def Found.message : Found → String
  | null => "null"
  | boolean b => "boolean " ++ backquoted (if b then "true" else "false")
  | number n => n.describe
  | text s => "string " ++ Quoted.text s
  | sequence => "sequence"
  | map => "map"

def Expected.message : Expected → String
  | string => "a string"
  | boolean => "a boolean"
  | sequence => "a sequence"
  | unit => "unit"
  | variantName => "variant identifier"
  | record name => "struct " ++ name
  | taggedUnion name => "internally tagged enum " ++ name

def elements (count : Nat) : String :=
  if count = 1 then "1 element" else toString count ++ " elements"

def Arity.message : Arity → String
  | fields name count => name ++ " with " ++ elements count
  | items count => elements count ++ " in sequence"

def Mismatch.message : Mismatch → String
  | wrongType found expected =>
    "invalid type: " ++ found.message ++ ", expected " ++ expected.message
  | missingField key => "missing field " ++ backquoted key
  | duplicateField key => "duplicate field " ++ backquoted key
  | wrongLength length expected =>
    "invalid length " ++ toString length ++ ", expected " ++ expected.message
  | unknownVariant name known =>
    "unknown variant " ++ backquoted name ++ ", expected one of " ++
      ", ".intercalate (known.map backquoted)
  | wrongIndex index count =>
    "invalid value: integer " ++ backquoted (toString index) ++
      ", expected variant index 0 <= i < " ++ toString count
  | noAlternative union => "data did not match any variant of untagged enum " ++ union

/-! ### Scalars, lists, options and names -/

namespace Read

def fault {α : Type} (fault : Fault) : Read α := .error (.fault fault)

def mismatch {α : Type} (mismatch : Mismatch) : Read α := .error (.mismatch mismatch)

/-- A check of the text, as a step of reading. -/
def check : Except Fault Unit → Read Unit
  | .ok () => .ok ()
  | .error f => fault f

/-- Ends reading at what closes a container, if it is not the bracket. -/
def close : Option Fault → Read Unit
  | none => .ok ()
  | some f => fault f

end Read

namespace Draft

/-- Ends reading at a value of another kind than `expected`. -/
def refuse {α : Type} (expected : Expected) (d : Draft) : Read α :=
  match d.found with
  | .ok found => Read.mismatch (.wrongType found expected)
  | .error f => Read.fault f

def readString : Draft → Read String
  | string (some s) => .ok s
  | d => d.refuse .string

def readBool : Draft → Read Bool
  | bool b => .ok b
  | d => d.refuse .boolean

/-- Nothing, written as `null`, or a value. -/
def readOption {α : Type} (read : Draft → Read α) : Draft → Read (Option α)
  | null => .ok none
  | d => some <$> read d

/-- An array of like values, in which `room` containers may be nested, itself included. `read` reads
one item inside it. -/
def readList {α : Type} (read : Draft → Read α) : Nat → Draft → Read (List α)
  | 0, array _ _ => Read.fault .malformed
  | _ + 1, array items stop => do
    let values ← items.mapM read
    Read.close stop
    return values
  | _, d => d.refuse .sequence

/-- One of several names. It may also be the only key of an object, over `null`. -/
def readName {α : Type} (pick : String → Read α) : Nat → Draft → Read α
  | _, string (some s) => pick s
  | _, broken found => Read.fault found.naming
  | _ + 1, object ((some key, value) :: entries) stop => do
    let picked ← pick key
    -- the value is judged before it is known whether the object ends
    match value with
    | null => pure ()
    | value => value.refuse .unit
    match entries, stop with
    | [], none => return picked
    | [], some (.separator f) => Read.fault f
    | _, _ => Read.fault .malformed
  | _ + 1, object [] (some stop) => Read.fault stop.reading
  | _, _ => Read.fault .malformed

end Draft

/-- How many containers a text may nest. -/
def maxDepth : Nat := 127

/-- Reads a whole text: one value, and nothing but white space after it. -/
def readText {α : Type} (read : Nat → Draft → Read α) (text : String) : Read α := do
  let (draft, rest) := scan text.toList
  let value ← read maxDepth draft
  -- a value that is wrong is reported before anything behind it
  if (skipSpace rest).isEmpty then return value else Read.fault .malformed

end Peg.Json
