import Peg.Diff.Basic
import Peg.Json.Printer
import Peg.Json.Record

/-!
# Diffs as JSON

A diff is written in the compact layout, its changes in order. A kind of change is written as its
name.
-/

namespace Peg

open Json

namespace Change

def Kind.ofName (name : String) : Read Kind :=
  match all.find? fun kind => kind.name == name with
  | some kind => .ok kind
  | none => Read.mismatch (.unknownVariant name (all.map Kind.name))

def toJson (c : Change) : Json :=
  object [("path", string c.path), ("kind", string c.kind.name)]

inductive Field
  | path | kind
  deriving DecidableEq

abbrev Field.Value : Field → Type
  | path => String
  | kind => Kind

abbrev shape : Shape where
  Field := Field
  Value := Field.Value
  key
    | .path => "path"
    | .kind => "kind"
  fieldEq := inferInstance

def readField (room : Nat) : (f : Field) → Draft → Read f.Value
  | .path => Draft.readString
  | .kind => Draft.readName Kind.ofName room

def record : Record Change where
  toShape := shape
  name := "GrammarChange"
  fields := [.path, .kind]
  isOpen := false
  read := readField
  build p := do return ⟨← p.require .path, ← p.require .kind⟩

end Change

namespace Diff

def toJson (d : Diff) : Json :=
  object [("changes", array (d.changes.map Change.toJson))]

def render (d : Diff) : String :=
  d.toJson.render .compact

inductive Field
  | changes
  deriving DecidableEq

def record : Record Diff where
  Field := Field
  Value _ := List Change
  key | .changes => "changes"
  fieldEq := inferInstance
  name := "GrammarDiff"
  fields := [.changes]
  isOpen := false
  read room _ := Draft.readList (Change.record.readDraft (room - 1)) room
  build p := do return ⟨← p.require .changes⟩

def ofText (text : String) : Read Diff :=
  record.readText text

end Diff

end Peg
