import Peg.Expression.Document
import Peg.Json.Document
import Peg.Json.Record

/-!
# Reading expressions from JSON

The kind of an expression stands under `type`, anywhere in its object, or first in its array form.
It decides which fields are read, so the other entries are first read as documents of any kind; once
the kind is known, the fields are read in the order of the text. What lies inside an expression has
been read with it: below the outermost expression no fault of the text is left to find.

The recursion is on the number of containers that may still be nested. Each list and each object of
a child takes one, so the limit on nesting is also what bounds the reader.
-/

namespace Peg

open Json

/-- A string of one character. -/
def charOf? : Json → Option Char
  | .string s =>
    match s.toList with
    | [c] => some c
    | _ => none
  | _ => none

def ClassPart.ofJson? : Json → Option ClassPart
  | .array [first, last] => do return range (← charOf? first) (← charOf? last)
  | document => (charOf? document).map char

def ClassPart.readDraft (room : Nat) (d : Draft) : Read ClassPart := do
  match ofJson? (← Json.ofDraft room d) with
  | some part => return part
  | none => Read.mismatch (.noAlternative "ClassPart")

namespace Expression

/-- The fields that expressions have, over all kinds. -/
inductive Field
  | alternatives | elements | label | expression | code | name | value | ignoreCase | inverted
  | parts | rawText
  deriving DecidableEq, Repr

namespace Field

def key : Field → String
  | alternatives => "alternatives"
  | elements => "elements"
  | label => "label"
  | expression => "expression"
  | code => "code"
  | name => "name"
  | value => "value"
  | ignoreCase => "ignoreCase"
  | inverted => "inverted"
  | parts => "parts"
  | rawText => "rawText"

abbrev Value : Field → Type
  | alternatives | elements => List Expression
  | expression => Expression
  | label | code | name | value | rawText => String
  | ignoreCase | inverted => Bool
  | parts => List ClassPart

end Field

abbrev shape : Shape := ⟨Field, Field.Value, Field.key, inferInstance⟩

def Kind.fields : Kind → List Field
  | choice => [.alternatives]
  | sequence => [.elements]
  | labeled => [.label, .expression]
  | action => [.expression, .code]
  | simpleAnd | simpleNot | optional | zeroOrMore | oneOrMore => [.expression]
  | semanticAnd | semanticNot => [.code]
  | ruleRef => [.name]
  | literal => [.value, .ignoreCase]
  | charClass => [.inverted, .ignoreCase, .parts, .rawText]
  | any => []

/-- The expression of a kind, once its fields are read. -/
def ofFields (kind : Kind) (p : shape.Partial) : Read Expression :=
  match kind with
  | .choice => do return choice (← p.require .alternatives)
  | .sequence => do return sequence (← p.require .elements)
  | .labeled => do return labeled (← p.require .label) (← p.require .expression)
  | .action => do return action (← p.require .expression) (← p.require .code)
  | .simpleAnd => do return simpleAnd (← p.require .expression)
  | .simpleNot => do return simpleNot (← p.require .expression)
  | .semanticAnd => do return semanticAnd (← p.require .code)
  | .semanticNot => do return semanticNot (← p.require .code)
  | .optional => do return optional (← p.require .expression)
  | .zeroOrMore => do return zeroOrMore (← p.require .expression)
  | .oneOrMore => do return oneOrMore (← p.require .expression)
  | .ruleRef => do return ruleRef (← p.require .name)
  | .literal => do return literal (← p.require .value) (← p.require .ignoreCase)
  | .charClass => do
    return charClass (← p.require .inverted) (← p.require .ignoreCase) (← p.require .parts)
      (← p.require .rawText)
  | .any => .ok any

def Kind.ofTag (tag : String) : Read Kind :=
  match all.find? fun kind => kind.tag == tag with
  | some kind => .ok kind
  | none => Read.mismatch (.unknownVariant tag (all.map Kind.tag))

/-- Where an expression stands: it is read from the text itself, or from inside another one. -/
inductive Place
  | outermost
  | inner
  deriving DecidableEq, Repr

/-- Reads a kind. Inside another expression it may also be given by its number. -/
def readKind (place : Place) (d : Draft) : Read Kind :=
  match place, d with
  | _, .string (some tag) => Kind.ofTag tag
  | .inner, .number n =>
    match n.integer? with
    | some (.ofNat i) =>
      match Kind.all[i]? with
      | some kind => .ok kind
      | none => Read.mismatch (.wrongIndex i Kind.all.length)
    | _ => d.refuse .variantName
  | _, d => d.refuse .variantName

/-- The kind among the entries of an object, of which the others may be any documents. -/
def findKind (place : Place) (room : Nat) :
    Option Kind → List (Option String × Draft) → Read (Option Kind)
  | kind, [] => .ok kind
  | _, (none, _) :: _ => Read.fault .malformed
  | kind, (some key, value) :: entries =>
    if key = "type" then
      match kind with
      | some _ => Read.mismatch (.duplicateField key)
      | none => do
        let kind ← readKind place value
        findKind place room (some kind) entries
    else do
      -- the kind may come later, so any document is read here
      let _ ← Json.ofDraft room value
      findKind place room kind entries

/-- Reads the value of a field, given the readers for one expression and for a list. -/
def readField (one : Draft → Read Expression) (many : Draft → Read (List Expression)) (room : Nat) :
    (f : Field) → Draft → Read f.Value
  | .alternatives | .elements => many
  | .expression => one
  | .label | .code | .name | .value | .rawText => Draft.readString
  | .ignoreCase | .inverted => Draft.readBool
  | .parts => Draft.readList (ClassPart.readDraft (room - 1)) room

/-- Reads an expression from the entries of an object, given the reader for its fields. -/
def readObject (place : Place) (room : Nat) (field : (f : Field) → Draft → Read f.Value)
    (entries : List (Option String × Draft)) (stop : Option Stop) : Read Expression := do
  let kind ← findKind place room none entries
  Read.close (stop.map Stop.reading)
  match kind with
  | none => Read.mismatch (.missingField "type")
  | some kind =>
    let p ← Shape.readEntries (S := shape) kind.fields field (Shape.Partial.empty shape) entries
    ofFields kind p

/-- Reads an expression from the items of an array, given the reader for its fields. -/
def readArray (place : Place) (room : Nat) (field : (f : Field) → Draft → Read f.Value)
    (items : List Draft) (stop : Option Fault) : Read Expression := do
  match items with
  | [] =>
    Read.close stop
    Read.mismatch (.missingField "type")
  | tag :: items =>
    let kind ← readKind place tag
    -- the items are read as documents before they are read as fields
    let _ ← Json.ofItems room items
    Read.close stop
    let (p, fields, rest) ←
      Shape.readItems (S := shape) field (Shape.Partial.empty shape) kind.fields items
    if !fields.isEmpty then
      Read.mismatch (.wrongLength items.length
        (.fields ("struct variant Expression::" ++ kind.title) kind.fields.length))
    else if !rest.isEmpty then
      Read.mismatch (.wrongLength items.length (.items kind.fields.length))
    else ofFields kind p

mutual

/-- Reads an expression in which `room` containers may be nested, itself included. -/
def readDraft (place : Place) : Nat → Draft → Read Expression
  | 0, .object _ _ | 0, .array _ _ => Read.fault .malformed
  | room + 1, .object entries stop =>
    readObject place room (readField (readDraft .inner room) (readDrafts room) room) entries stop
  | room + 1, .array items stop =>
    readArray place room (readField (readDraft .inner room) (readDrafts room) room) items stop
  | _, d => d.refuse (.taggedUnion "Expression")

def readDrafts : Nat → Draft → Read (List Expression)
  | 0, .array _ _ => Read.fault .malformed
  | room + 1, .array items stop => do
    let es ← items.mapM (readDraft .inner room)
    Read.close stop
    return es
  | _, d => d.refuse .sequence

end

def ofText (text : String) : Read Expression :=
  readText (readDraft .outermost) text

end Expression

def ClassPart.ofText (text : String) : Read ClassPart :=
  readText ClassPart.readDraft text

end Peg
