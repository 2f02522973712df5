import Peg.Expression.Reader
import Peg.Grammar.Document

/-!
# Reading grammars from JSON

Grammars, rules and initializers are records. Their kind is not checked: `type` is an entry nobody
asks for. An absent initializer or display name is `null` or, in an object, left out.
-/

namespace Peg

open Json

namespace Initializer

inductive Field
  | code
  deriving DecidableEq

def record : Record Initializer where
  Field := Field
  Value _ := String
  key | .code => "code"
  fieldEq := inferInstance
  name := "Initializer"
  fields := [.code]
  isOpen := false
  read _ _ := Draft.readString
  build p := do return ⟨← p.require .code⟩

def ofText (text : String) : Read Initializer :=
  record.readText text

end Initializer

namespace Rule

inductive Field
  | name | displayName | expression
  deriving DecidableEq

abbrev Field.Value : Field → Type
  | name => String
  | displayName => Option String
  | expression => Expression

abbrev shape : Shape where
  Field := Field
  Value := Field.Value
  key
    | .name => "name"
    | .displayName => "displayName"
    | .expression => "expression"
  fieldEq := inferInstance

def readField (room : Nat) : (f : Field) → Draft → Read f.Value
  | .name => Draft.readString
  | .displayName => Draft.readOption Draft.readString
  | .expression => Expression.readDraft .outermost room

def record : Record Rule where
  toShape := shape
  name := "Rule"
  fields := [.name, .displayName, .expression]
  isOpen := false
  read := readField
  build p := do
    return ⟨← p.require .name, (p .displayName).getD none, ← p.require .expression⟩

def ofText (text : String) : Read Rule :=
  record.readText text

end Rule

namespace Grammar

inductive Field
  | initializer | rules | startRule
  deriving DecidableEq

abbrev Field.Value : Field → Type
  | initializer => Option Initializer
  | rules => List Rule
  | startRule => String

abbrev shape : Shape where
  Field := Field
  Value := Field.Value
  key
    | .initializer => "initializer"
    | .rules => "rules"
    | .startRule => "startRule"
  fieldEq := inferInstance

def readField (room : Nat) : (f : Field) → Draft → Read f.Value
  | .initializer => Draft.readOption (Initializer.record.readDraft room)
  | .rules => Draft.readList (Rule.record.readDraft (room - 1)) room
  | .startRule => Draft.readString

def record : Record Grammar where
  toShape := shape
  name := "Grammar"
  fields := [.initializer, .rules, .startRule]
  isOpen := false
  read := readField
  build p := do
    return ⟨(p .initializer).getD none, ← p.require .rules, ← p.require .startRule⟩

def ofText (text : String) : Read Grammar :=
  record.readText text

end Grammar

end Peg
