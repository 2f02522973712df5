import Peg.Json.Reading

/-!
# Reading whole documents

Any document can be read from a text, whatever it holds: strings must be text, numbers must have a
value, and containers must not nest too deep.
-/

namespace Peg.Json

mutual

/-- Reads a document in which `room` containers may be nested. -/
def ofDraft : Nat → Draft → Read Json
  | _, .null => .ok .null
  | _, .bool b => .ok (.bool b)
  | _, .number n => if n.inRange then .ok (.number n) else Read.fault .malformed
  | _, .string (some s) => .ok (.string s)
  -- an unpaired surrogate
  | _, .string none => Read.fault .malformed
  | _, .broken found => Read.fault found.reading
  | 0, .array _ _ | 0, .object _ _ => Read.fault .malformed
  | room + 1, .array items stop => do
    let items ← ofItems room items
    Read.close stop
    return .array items
  | room + 1, .object entries stop => do
    let entries ← ofEntries room entries
    Read.close (stop.map Stop.reading)
    return .object entries

def ofItems : Nat → List Draft → Read (List Json)
  | _, [] => .ok []
  | room, item :: items => do
    let item ← ofDraft room item
    let items ← ofItems room items
    return item :: items

def ofEntries : Nat → List (Option String × Draft) → Read (List (String × Json))
  | _, [] => .ok []
  | _, (none, _) :: _ => Read.fault .malformed
  | room, (some key, value) :: entries => do
    let value ← ofDraft room value
    let entries ← ofEntries room entries
    return (key, value) :: entries

end

def ofText (text : String) : Read Json :=
  readText ofDraft text

/-- The first value under `key`, if the document is an object that has one. -/
def value? (key : String) : Json → Option Json
  | object entries => entries.lookup key
  | _ => none

end Peg.Json
