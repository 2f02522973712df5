import Peg.Proofs.Expression.Fitting
import Peg.Proofs.Grammar.RoundTrip

/-!
# Reading settles a grammar

A text can say a grammar in many ways: objects or arrays, fields in any order or left out, entries
that mean nothing, kinds by name or by number, white space anywhere. The grammar written again is
one text only. Nothing a text can do makes the grammar deeper than the reader has room for
(**`Grammar.depth_le_of_readDraft`**), so that text is read again, and it gives the same grammar:
**`ofText_render_of_ofText`**.
-/

namespace Peg

open Json

/-- A rule that was read fits the room it was read in: only its expression nests. -/
theorem Rule.depth_le_of_readDraft {room : Nat} {d : Draft} {r : Rule}
    (h : record.readDraft room d = .ok r) : r.toJson.depth ≤ room := by
  obtain ⟨inside, p, rfl, hp, hbuild⟩ := Record.exists_readBy_of_readDraft h
  obtain ⟨name, -, hbuild⟩ := Read.bind_eq_ok.mp hbuild
  obtain ⟨body, hbody, hbuild⟩ := Read.bind_eq_ok.mp hbuild
  cases hbuild
  obtain ⟨d, hd⟩ := hp .expression body (Shape.Partial.require_eq_ok.mp hbody)
  have hfit : body.toJson.depth ≤ inside := Expression.depth_le_of_readDraft hd
  rw [body.depth_toJson] at hfit
  rw [depth_toJson]
  show 1 + body.nesting ≤ inside + 1
  omega

namespace Grammar

/-- **A grammar that was read fits the room it was read in.** The initializer fits where the array
of the rules does. -/
theorem depth_le_of_readDraft {room : Nat} {d : Draft} {g : Grammar}
    (h : record.readDraft room d = .ok g) : g.toJson.depth ≤ room := by
  obtain ⟨inside, p, rfl, hp, hbuild⟩ := Record.exists_readBy_of_readDraft h
  obtain ⟨rules, hrules, hbuild⟩ := Read.bind_eq_ok.mp hbuild
  obtain ⟨start, -, hbuild⟩ := Read.bind_eq_ok.mp hbuild
  cases hbuild
  obtain ⟨d, hd⟩ := hp .rules rules (Shape.Partial.require_eq_ok.mp hrules)
  have hfit : (array (rules.map Rule.toJson)).depth ≤ inside :=
    Draft.depth_le_of_readList (fun _ _ => Rule.depth_le_of_readDraft) hd
  rw [depth, depthItems_rules] at hfit
  rw [depth_toJson]
  show 2 + rulesNesting rules ≤ inside + 1
  omega

/-- **What was read reads back from its own text**, however the text looked that it was read from:
reading and writing again changes nothing any more. -/
theorem ofText_render_of_ofText {text : String} {g : Grammar} (h : ofText text = .ok g) :
    g.toJson.depth ≤ maxDepth ∧ ofText g.render = .ok g ∧
      (ofText g.render).map render = .ok g.render := by
  obtain ⟨d, hd⟩ := exists_read_of_readText h
  have hdepth : g.toJson.depth ≤ maxDepth := depth_le_of_readDraft hd
  have hback : ofText g.render = .ok g := by
    rw [ofText, Record.readText, render, readText_render, g.readDraft_toJson]
    exact Read.nested_of_le hdepth g
  refine ⟨hdepth, hback, ?_⟩
  rw [hback]
  rfl

/-- The keys stand in another order, one is unknown and one is left out, the rule and its body are
arrays, and the kind inside the body is a number. -/
theorem ofText_render_of_ofText_arrays :
    let text := "\x7b\"rules\":[[\"a\",null,[\"optional\",[14]]]],\"x\":0,\"startRule\":\"a\"\x7d"
    let g : Grammar := ⟨none, [⟨"a", none, .optional .any⟩], "a"⟩
    ofText text = .ok g ∧ ofText g.render = .ok g := by
  intro text g
  let optional : Json := array [string "optional", array [number ⟨false, 14, [], none⟩]]
  let document : Json := object [("rules", array [array [string "a", null, optional]]),
    ("x", number ⟨false, 0, [], none⟩), ("startRule", string "a")]
  have htext : document.render .compact = text := by rfl
  have hread : ofText text = .ok g := by
    rw [← htext, ofText, Record.readText, readText_render]
    rfl
  exact ⟨hread, (ofText_render_of_ofText hread).2.1⟩

end Grammar

end Peg
