import Peg.Contract
import Peg.Json.Printer
import Peg.Json.Record
import Peg.Text.Quoted

/-!
# Options of the emitter

What a caller may choose about emitted code. Options read from JSON are checked before anyone gets
to see them; fields that are missing have their default.
-/

namespace Peg.Emit

open Json

/-- The indent of one level unless another is chosen. -/
def defaultIndentUnit : String := "  "

structure Options where
  /-- Whether rules report what they do. -/
  trace : Bool
  /-- The indent of one level. -/
  indentUnit : String
  deriving DecidableEq, Repr

inductive OptionsError
  | unreadable (cause : ReadError)
  | emptyIndentUnit
  | strayIndentUnit (unit : String)
  deriving DecidableEq, Repr

/-- What can go wrong while code is emitted. -/
inductive Error
  | contract (violation : Violation)
  | options (cause : OptionsError)
  deriving DecidableEq, Repr

/-- The text of every options error starts so. -/
def OptionsError.heading : String := "invalid emit options: "

/-- The text of a failed check. A text that cannot be read has only the heading here: what follows
it describes the text, not the options. -/
def OptionsError.message : OptionsError → String
  | unreadable _ => heading
  | emptyIndentUnit => heading ++ "indentUnit must not be empty"
  | strayIndentUnit unit =>
    heading ++ "indentUnit " ++ Text.Quoted.text unit ++ " may only contain spaces and tabs"

/-- The text of an error. A violation speaks for itself. -/
def Error.message : Error → String
  | contract violation => violation.display
  | options cause => cause.message

namespace Options

def default : Options := ⟨false, defaultIndentUnit⟩

def traced : Options := { default with trace := true }

/-- The indent must be there and be made of spaces and tabs. -/
def validate (o : Options) : Except OptionsError Unit :=
  if o.indentUnit.isEmpty then .error .emptyIndentUnit
  else if o.indentUnit.toList.all fun c => c == ' ' || c == '\t' then .ok ()
  else .error (.strayIndentUnit o.indentUnit)

def toJson (o : Options) : Json :=
  object [("trace", bool o.trace), ("indentUnit", string o.indentUnit)]

def render (o : Options) : String :=
  o.toJson.render .compact

inductive Field
  | trace | indentUnit
  deriving DecidableEq

abbrev Field.Value : Field → Type
  | trace => Bool
  | indentUnit => String

abbrev shape : Shape where
  Field := Field
  Value := Field.Value
  key
    | .trace => "trace"
    | .indentUnit => "indentUnit"
  fieldEq := inferInstance

def readField : (f : Field) → Draft → Read f.Value
  | .trace => Draft.readBool
  | .indentUnit => Draft.readString

def record : Record Options where
  toShape := shape
  name := "EmitOptions"
  fields := [.trace, .indentUnit]
  isOpen := true
  read _ := readField
  build p := .ok ⟨(p .trace).getD default.trace, (p .indentUnit).getD default.indentUnit⟩

/-- Reads options from a text and checks them. -/
def ofText (text : String) : Except OptionsError Options := do
  match record.readText text with
  | .error cause => throw (.unreadable cause)
  | .ok options =>
    options.validate
    return options

end Options

end Peg.Emit
