import Peg.Grammar.Document
import Peg.Proofs.Expression.Contents

/-!
# What the text of a grammar holds

The kinds of nodes have their names in two places, in the tree and in what is written of it, and so
do the references. **`types_and_references_of_render`**: they agree. Going through the text of a
grammar, one finds under `type` the names of the kinds of its nodes in the order of the walk, rule
by rule, and in the objects of references their names, in the order in which the grammar itself
gathers them.
-/

namespace Peg

open Json

variable {β : Type} {ask : Option String × Json → Option β}

/-! ## Answers of a grammar -/

theorem Initializer.answers_toJson (hask : AsksObjects ask) {key? : Option String}
    (i : Initializer) :
    answers ask key? i.toJson = ownAnswers ask key? i.toJson "initializer" := by
  have hcode : answers ask (some "code") (string i.code) = [] :=
    answers_scalar hask (by decide) rfl
  simp [toJson, answers_tagged, hcode]

/-- A rule answers for itself, then its body does. -/
theorem Rule.answers_toJson (hask : AsksObjects ask) (r : Rule) :
    answers ask none r.toJson = ownAnswers ask none r.toJson "rule" ++
      answers ask (some "expression") r.expression.toJson := by
  have hname : answers ask (some "name") (string r.name) = [] :=
    answers_scalar hask (by decide) rfl
  have hdisplay : answers ask (some "displayName") (ofOption r.displayName) = [] := by
    refine answers_scalar hask (by decide) ?_
    cases r.displayName <;> rfl
  simp [toJson, answers_tagged, hname, hdisplay]

namespace Grammar

/-- **A grammar answers for itself, then its initializer does, then its rules.** -/
theorem answers_toJson (hask : AsksObjects ask) (g : Grammar) :
    answers ask none g.toJson = ownAnswers ask none g.toJson "grammar" ++
      (g.initializer.toList.flatMap (fun i =>
          ownAnswers ask (some "initializer") i.toJson "initializer") ++
        g.rules.flatMap fun r => answers ask none r.toJson) := by
  have hinitializer : answers ask (some "initializer") (g.initializer.elim .null Initializer.toJson)
      = g.initializer.toList.flatMap fun i =>
        ownAnswers ask (some "initializer") i.toJson "initializer" := by
    cases g.initializer with
    | none => exact answers_scalar hask (by decide) rfl
    | some i =>
      rw [Option.elim_some, i.answers_toJson hask, Option.toList_some, List.flatMap_singleton]
  have hrules : answers ask (some "rules") (array (g.rules.map Rule.toJson))
      = g.rules.flatMap fun r => answers ask none r.toJson := by
    rw [answers_array hask (by decide), List.flatMap_map]
  have hstart : answers ask (some "startRule") (string g.startRule) = [] :=
    answers_scalar hask (by decide) rfl
  simp [toJson, answers_tagged, hinitializer, hrules, hstart]

/-! ## Kinds -/

/-- Of an object under another key, only the kind stands under `type`. -/
theorem ownAnswers_under {key? : Option String} (hkey : key? ≠ some "type") (v : Json)
    (kind : String) : ownAnswers (under? "type") key? v kind = [string kind] := by
  rw [ownAnswers, under?, if_neg hkey]
  rfl

/-- In place of the tags that stand in the document, the names of the kinds. -/
theorem valuesUnder_type (g : Grammar) :
    g.toJson.valuesUnder "type"
      = ("grammar" :: (g.initializer.toList.map fun _ => "initializer") ++
          g.rules.flatMap fun r => "rule" :: r.expression.walk.map fun e => e.kind.name).map
        string := by
  have hnone : none ≠ some "type" := (Option.some_ne_none _).symm
  have hbody : ∀ e : Expression, answers (under? "type") (some "expression") e.toJson
      = (e.walk.map fun f => f.kind.name).map string := by
    intro e
    rw [e.answers_toJson asksObjects_under fun _ _ hkey => ownAnswers_under hkey _ _,
      List.map_map, List.map_eq_flatMap]
    · simp only [Expression.Kind.tag_eq_name, Function.comp_apply]
    · decide
  have hrule : ∀ r : Rule, answers (under? "type") none r.toJson
      = ("rule" :: r.expression.walk.map fun e => e.kind.name).map string := by
    intro r
    rw [r.answers_toJson asksObjects_under, ownAnswers_under hnone, hbody]
    rfl
  have hinitializer : (g.initializer.toList.flatMap fun i =>
      ownAnswers (under? "type") (some "initializer") i.toJson "initializer")
      = (g.initializer.toList.map fun _ => "initializer").map string := by
    cases g.initializer with
    | none => rfl
    | some i =>
      rw [Option.toList_some, List.flatMap_singleton, ownAnswers_under (by decide)]
      rfl
  rw [valuesUnder, g.answers_toJson asksObjects_under, ownAnswers_under hnone, hinitializer]
  simp only [hrule, List.map_append, List.map_flatMap]
  rfl

/-! ## References -/

/-- The objects of type `rule_ref` are the documents of the references, rule by rule in the order of
the walk. -/
theorem tagged_ruleRef (g : Grammar) :
    g.toJson.tagged "rule_ref"
      = g.rules.flatMap fun r =>
        (r.expression.walk.filter fun e => e.kind = .ruleRef).map Expression.toJson := by
  have hask : AsksObjects (tagged? "rule_ref") := asksObjects_tagged _
  have hrule : ∀ r : Rule, answers (tagged? "rule_ref") none r.toJson
      = (r.expression.walk.filter fun e => e.kind = .ruleRef).map Expression.toJson := by
    intro r
    rw [r.answers_toJson hask]
    exact r.expression.answers_tagged?_toJson .ruleRef (by decide)
  have hinitializer : (g.initializer.toList.flatMap fun i =>
      ownAnswers (tagged? "rule_ref") (some "initializer") i.toJson "initializer") = [] := by
    cases g.initializer <;> rfl
  rw [tagged, g.answers_toJson hask, hinitializer]
  simp only [hrule]
  rfl

/-- **Text and tree agree on kinds and references.** The text of a grammar says one document. Under
`type` it has the names of the kinds of the grammar's nodes, rule by rule in the order of the walk,
and the names in its objects of type `rule_ref` are the references. -/
theorem types_and_references_of_render (g : Grammar) :
    (∀ document, Holds g.render document ↔ document = g.toJson) ∧
      g.toJson.valuesUnder "type"
        = ("grammar" :: (g.initializer.toList.map fun _ => "initializer") ++
            g.rules.flatMap fun r => "rule" :: r.expression.walk.map fun e => e.kind.name).map
          string ∧
      (g.toJson.tagged "rule_ref").map (text? "name") = g.references.map some := by
  refine ⟨fun document => holds_render_iff, g.valuesUnder_type, ?_⟩
  rw [tagged_ruleRef, references, List.map_flatMap, List.map_flatMap]
  exact List.flatMap_congr fun r _ => Expression.map_text?_name r.expression.walk

end Grammar

end Peg
