import Peg.Json.Reading

/-!
# Records in JSON

A record is read from an object, its fields by key in any order, or from an array, its fields by
position. A `Shape` is a family of typed fields with their keys; a `Partial` assigns values to some
of them. Reading an object fills a partial record entry by entry, so that a repeated key or a value
of the wrong kind is reported where it stands; only after the closing brace is a field missing.
-/

namespace Peg.Json

/-- A family of fields, each with a key and a type. -/
structure Shape where
  Field : Type
  Value : Field → Type
  key : Field → String
  fieldEq : DecidableEq Field

namespace Shape

variable (S : Shape)

instance : DecidableEq S.Field := S.fieldEq

/-- Values for some of the fields. -/
def Partial : Type := (f : S.Field) → Option (S.Value f)

def Partial.empty : S.Partial := fun _ => none

variable {S}

def Partial.set (p : S.Partial) (f : S.Field) (value : S.Value f) : S.Partial :=
  fun g => if h : f = g then some (h ▸ value) else p g

/-- The value of a field that must be there. -/
def Partial.require (p : S.Partial) (f : S.Field) : Read (S.Value f) :=
  match p f with
  | some value => .ok value
  | none => Read.mismatch (.missingField (S.key f))

def field? (declared : List S.Field) (key : String) : Option S.Field :=
  declared.find? fun f => S.key f == key

/-- Fills in the entries of an object. Entries with other keys are passed over. -/
def readEntries (declared : List S.Field) (read : (f : S.Field) → Draft → Read (S.Value f)) :
    S.Partial → List (Option String × Draft) → Read S.Partial
  | p, [] => .ok p
  -- a key with an unpaired surrogate is no key
  | _, (none, _) :: _ => Read.fault .malformed
  | p, (some key, value) :: entries =>
    match field? declared key with
    | none => do
      Read.check value.pass
      readEntries declared read p entries
    | some f => do
      -- reported before the second value is read
      if (p f).isSome then Read.mismatch (.duplicateField key)
      let value ← read f value
      readEntries declared read (p.set f value) entries

/-- Fills in fields from items in their order, as far as both last. The fields and items left over
are returned too. -/
def readItems (read : (f : S.Field) → Draft → Read (S.Value f)) :
    S.Partial → List S.Field → List Draft → Read (S.Partial × List S.Field × List Draft)
  | p, f :: fields, item :: items => do
    let value ← read f item
    readItems read (p.set f value) fields items
  | p, fields, items => .ok (p, fields, items)

end Shape

/-- A record type as it is read. The fields stand in the order of the array form; `build` asks for
those that must be there. -/
structure Record (α : Type) extends Shape where
  /-- The name used in messages. -/
  name : String
  fields : List Field
  /-- Whether a short array leaves the remaining fields out, as an object may. -/
  isOpen : Bool
  /-- Reads a field inside the record, given how many more containers may be nested. -/
  read : Nat → (f : Field) → Draft → Read (Value f)
  build : toShape.Partial → Read α

namespace Record

variable {α : Type} (R : Record α)

/-- The fields from an array. After the last one only the bracket may follow. -/
def readArray (room : Nat) (items : List Draft) (stop : Option Fault) : Read R.toShape.Partial := do
  let (p, fields, rest) ←
    Shape.readItems (R.read room) (Shape.Partial.empty R.toShape) R.fields items
  -- a missing field is a mismatch, an item too many a fault of the text
  if rest.isEmpty then
    Read.close stop
    if fields.isEmpty || R.isOpen then return p
    else Read.mismatch (.wrongLength items.length (.fields ("struct " ++ R.name) R.fields.length))
  else Read.fault .malformed

def readObject (room : Nat) (entries : List (Option String × Draft)) (stop : Option Stop) :
    Read R.toShape.Partial := do
  let p ← Shape.readEntries R.fields (R.read room) (Shape.Partial.empty R.toShape) entries
  Read.close (stop.map Stop.reading)
  return p

/-- Reads a record in which `room` containers may be nested, itself included. -/
def readDraft : Nat → Draft → Read α
  | 0, .object _ _ | 0, .array _ _ => Read.fault .malformed
  | room + 1, .object entries stop => R.readObject room entries stop >>= R.build
  | room + 1, .array items stop => R.readArray room items stop >>= R.build
  | _, d => d.refuse (.record R.name)

def readText (text : String) : Read α :=
  Json.readText R.readDraft text

end Record

end Peg.Json
