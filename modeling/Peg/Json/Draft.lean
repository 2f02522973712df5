import Peg.Json.Basic

/-!
# JSON text as it was found

A `Draft` is what a text turns out to hold, whether or not it is a document: where the text stops
being JSON, the tree ends in a mark of what went wrong there. Reading a grammar from a draft, in the
order of the text, therefore meets the first problem of the text first, be it one of form or one of
content.

Some problems depend on how a spot is taken. A string with an unpaired surrogate and a number too
large for a double can be passed over, but not read; an entry of an object that nobody asks for is
passed over, and may nest to any depth.
-/

namespace Peg.Json

/-- How a text fails to be JSON. -/
inductive Fault
  /-- It ends too early. -/
  | endOfText
  /-- It goes on in a way no document does. -/
  | malformed
  deriving DecidableEq, Repr

/-- What stands where a value was due and there is none. -/
inductive Break
  /-- The end of the text. -/
  | missing
  /-- A character no value starts with. -/
  | stray
  /-- Something else than the colon before the value. -/
  | colon (fault : Fault)
  /-- A word that is not there in full. -/
  | word (fault : Fault)
  /-- A number that is not there in full. -/
  | number (fault : Fault)
  /-- A string that is not there in full, with the problem met when it is read and the problem met
  when it is passed over. -/
  | string (reading passing : Fault)
  deriving DecidableEq, Repr

/-- The problem met when the spot is read as a value. -/
def Break.reading : Break → Fault
  | missing => .endOfText
  | stray => .malformed
  | colon fault | word fault | number fault => fault
  | string reading _ => reading

/-- The problem met when the spot is passed over. A number cut short counts as malformed then. -/
def Break.passing : Break → Fault
  | missing => .endOfText
  | stray | number _ => .malformed
  | colon fault | word fault => fault
  | string _ passing => passing

/-- The problem met when only a string can stand at the spot. What is no string is malformed there,
however it goes on. -/
def Break.naming : Break → Fault
  | missing => .endOfText
  | colon fault => fault
  | string reading _ => reading
  | stray | word _ | number _ => .malformed

/-- A value met in a text, as messages tell it. -/
inductive Found
  | null
  | boolean (b : Bool)
  | number (n : Number)
  | text (s : String)
  | sequence
  | map
  deriving DecidableEq, Repr

/-- Where an object stops short of its closing brace. -/
inductive Stop
  /-- After an entry, where a comma or the brace was due. -/
  | separator (fault : Fault)
  /-- Where a key was due. -/
  | key (found : Break)
  deriving DecidableEq, Repr

/-- The problem met when the entries are read. -/
def Stop.reading : Stop → Fault
  | separator fault => fault
  | key found => found.reading

/-- The problem met when the object is passed over. -/
def Stop.passing : Stop → Fault
  | separator fault => fault
  | key found => found.passing

/-- A text as found. A string or key is `none` when it holds an unpaired surrogate; an array or
object has a `stop` when its closing bracket was not reached. -/
inductive Draft
  | null
  | bool (b : Bool)
  | number (n : Number)
  | string (s : Option String)
  | array (items : List Draft) (stop : Option Fault)
  | object (entries : List (Option String × Draft)) (stop : Option Stop)
  | broken (found : Break)

mutual

/-- A document as a draft: nothing is missing from it. -/
def draft : Json → Draft
  | .null => .null
  | .bool b => .bool b
  | .number n => .number n
  | .string s => .string (some s)
  | .array items => .array (draftItems items) none
  | .object entries => .object (draftEntries entries) none

def draftItems : List Json → List Draft
  | [] => []
  | item :: items => item.draft :: draftItems items

def draftEntries : List (String × Json) → List (Option String × Draft)
  | [] => []
  | (key, value) :: entries => (some key, value.draft) :: draftEntries entries

end

namespace Draft

mutual

/-- Passes over the draft. Only the form of the text counts. -/
def pass : Draft → Except Fault Unit
  | .array items stop => do
    passItems items
    match stop with
    | some fault => throw fault
    | none => pure ()
  | .object entries stop => do
    passEntries entries
    match stop with
    | some stop => throw stop.passing
    | none => pure ()
  | .broken found => throw found.passing
  -- scalars that are there in full are passed over, whatever they hold
  | _ => pure ()

def passItems : List Draft → Except Fault Unit
  | [] => pure ()
  | item :: items => do
    item.pass
    passItems items

def passEntries : List (Option String × Draft) → Except Fault Unit
  | [] => pure ()
  | (_, value) :: entries => do
    value.pass
    passEntries entries

end

/-- The value the draft starts with, as messages tell it. Scalars are read to their end first, a
container is known by its bracket. -/
def found : Draft → Except Fault Found
  | null => pure .null
  | bool b => pure (.boolean b)
  | number n => if n.inRange then pure (.number n) else throw .malformed
  | string (some s) => pure (.text s)
  | string none => throw .malformed
  | array _ _ => pure .sequence
  | object _ _ => pure .map
  | broken found => throw found.reading

end Draft

end Peg.Json
