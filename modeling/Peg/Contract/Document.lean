import Peg.Contract
import Peg.Json.Printer
import Peg.Json.Record

/-!
# Violations as JSON

A violation is an object with its message, in the compact layout.
-/

namespace Peg.Violation

open Json

def toJson (v : Violation) : Json :=
  object [("message", string v.message)]

def render (v : Violation) : String :=
  v.toJson.render .compact

inductive Field
  | message
  deriving DecidableEq

def record : Record Violation where
  Field := Field
  Value _ := String
  key | .message => "message"
  fieldEq := inferInstance
  name := "ContractViolation"
  fields := [.message]
  isOpen := false
  read _ _ := Draft.readString
  build p := do return ⟨← p.require .message⟩

def ofText (text : String) : Read Violation :=
  record.readText text

end Peg.Violation
