import Peg.Expression.Basic
import Peg.Json.Basic

/-!
# Expressions as JSON

An expression is an object: the tag of its kind under `type`, then its fields in a fixed order. The
tags are not the names kinds are shown under. They come from the titles of the kinds, which are in
camel case, by the rule `snakeCase`. A part of a character class is a string of one character or an
array of two such strings.
-/

namespace Peg

open Json (string bool array object)

def charDocument (c : Char) : Json :=
  string (String.singleton c)

def ClassPart.toJson : ClassPart → Json
  | char c => charDocument c
  | range first last => array [charDocument first, charDocument last]

namespace Expression

/-- A name in camel case as one in snake case: all letters are made small, and an underscore is put
in front of every capital but the first letter. -/
def snakeCase (name : String) : String :=
  match name.toList with
  | [] => ""
  | c :: cs =>
    let word (c : Char) : List Char := if c.isUpper then ['_', c.toLower] else [c.toLower]
    String.ofList (c.toLower :: cs.flatMap word)

namespace Kind

/-- The title of a kind, which messages about its array form also give. -/
def title : Kind → String
  | choice => "Choice"
  | sequence => "Sequence"
  | labeled => "Labeled"
  | action => "Action"
  | simpleAnd => "SimpleAnd"
  | simpleNot => "SimpleNot"
  | semanticAnd => "SemanticAnd"
  | semanticNot => "SemanticNot"
  | optional => "Optional"
  | zeroOrMore => "ZeroOrMore"
  | oneOrMore => "OneOrMore"
  | ruleRef => "RuleRef"
  | literal => "Literal"
  | charClass => "Class"
  | any => "Any"

/-- What documents have under `type`. -/
def tag (kind : Kind) : String :=
  snakeCase kind.title

end Kind

/-- The document of an expression of the given kind with the given fields. -/
def node (kind : Kind) (fields : List (String × Json)) : Json :=
  object (("type", string kind.tag) :: fields)

mutual

def toJson : Expression → Json
  | choice es => node .choice [("alternatives", array (documents es))]
  | sequence es => node .sequence [("elements", array (documents es))]
  | labeled label e => node .labeled [("label", string label), ("expression", e.toJson)]
  | action e code => node .action [("expression", e.toJson), ("code", string code)]
  | simpleAnd e => node .simpleAnd [("expression", e.toJson)]
  | simpleNot e => node .simpleNot [("expression", e.toJson)]
  | semanticAnd code => node .semanticAnd [("code", string code)]
  | semanticNot code => node .semanticNot [("code", string code)]
  | optional e => node .optional [("expression", e.toJson)]
  | zeroOrMore e => node .zeroOrMore [("expression", e.toJson)]
  | oneOrMore e => node .oneOrMore [("expression", e.toJson)]
  | ruleRef name => node .ruleRef [("name", string name)]
  | literal value ignoreCase =>
    node .literal [("value", string value), ("ignoreCase", bool ignoreCase)]
  | charClass inverted ignoreCase parts rawText =>
    node .charClass [("inverted", bool inverted), ("ignoreCase", bool ignoreCase),
      ("parts", array (parts.map ClassPart.toJson)), ("rawText", string rawText)]
  | any => node .any []

def documents : List Expression → List Json
  | [] => []
  | e :: es => e.toJson :: documents es

end

end Expression

end Peg
