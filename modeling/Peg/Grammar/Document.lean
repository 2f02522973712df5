import Peg.Expression.Document
import Peg.Grammar.Basic
import Peg.Json.Printer

/-!
# Grammars as JSON

A grammar is written in the pretty layout. Every node carries its kind under `type`; what is absent
is written as `null`.
-/

namespace Peg

open Json (string array object ofOption)

def Initializer.toJson (i : Initializer) : Json :=
  object [("type", string "initializer"), ("code", string i.code)]

def Rule.toJson (r : Rule) : Json :=
  object [("type", string "rule"), ("name", string r.name), ("displayName", ofOption r.displayName),
    ("expression", r.expression.toJson)]

namespace Grammar

def toJson (g : Grammar) : Json :=
  object [("type", string "grammar"),
    ("initializer", g.initializer.elim .null Initializer.toJson),
    ("rules", array (g.rules.map Rule.toJson)), ("startRule", string g.startRule)]

def render (g : Grammar) : String :=
  g.toJson.render .pretty

end Grammar

end Peg
