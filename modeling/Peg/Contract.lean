/-!
# Contracts

A documented precondition that does not hold is a `Violation`. It is never repaired inside the
library: the call that finds it ends with it, and leaves one record of it in the log.
-/

namespace Peg

/-- How much detail a log record is for. -/
inductive Log.Level
  | debug
  | trace
  deriving DecidableEq, Repr

structure Log.Record where
  level : Log.Level
  text : String
  deriving DecidableEq, Repr

/-- A broken precondition. -/
structure Violation where
  message : String
  deriving DecidableEq, Repr

def Violation.display (v : Violation) : String :=
  "contract violation: " ++ v.message

/-- Fails with `message` unless `condition` holds. -/
def Violation.require (condition : Bool) (message : String) : Except Violation Unit :=
  if condition then .ok () else .error ⟨message⟩

/-- What a call that checks contracts writes to the log: the violation it ends with, if any. -/
def Violation.records {α : Type} : Except Violation α → List Log.Record
  | .ok _ => []
  | .error v => [⟨.debug, v.display⟩]

end Peg
