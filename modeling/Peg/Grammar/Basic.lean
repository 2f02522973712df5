import Peg.Contract
import Peg.Expression.Basic

/-!
# Grammars

A grammar is code to run first, if any, an ordered list of rules, and the name of the rule parsing
starts from. Nothing is checked when one is built: names may repeat, and references may lead
nowhere. Looking a rule up finds the first one of its name.
-/

namespace Peg

/-- Code run once before parsing begins. -/
structure Initializer where
  code : String
  deriving DecidableEq, Repr

/-- A rule, `name "display name" = expression`. -/
structure Rule where
  name : String
  displayName : Option String
  expression : Expression
  deriving DecidableEq

/-- The name a rule goes by in messages. -/
def Rule.label (r : Rule) : String :=
  r.displayName.getD r.name

structure Grammar where
  initializer : Option Initializer
  rules : List Rule
  startRule : String
  deriving DecidableEq

namespace Grammar

variable (g : Grammar)

/-- The first rule called `name`. -/
def rule? (name : String) : Option Rule :=
  g.rules.find? fun r => r.name == name

/-- The rule parsing starts from. That it exists is the caller's promise. -/
def start : Except Violation Rule :=
  match g.rule? g.startRule with
  | some r => .ok r
  | none =>
    .error ⟨"start rule \"" ++ g.startRule ++ "\" is not defined in the grammar"⟩

/-- Every reference in a rule body, rule by rule, in the order of the walk. -/
def references : List String :=
  g.rules.flatMap fun r => r.expression.references

def unresolved : List String :=
  g.references.filter fun name => (g.rule? name).isNone

end Grammar

end Peg
