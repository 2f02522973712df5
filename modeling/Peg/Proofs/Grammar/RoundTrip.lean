import Peg.Grammar.Reader
import Peg.Proofs.Expression.RoundTrip

/-!
# Grammars read back from their texts, up to a depth

A grammar is written in full, whatever it holds; the reader takes 127 containers inside each other
and no more. **`ofText_render_eq`** draws the line between the two. The depth of the document is
read off the grammar (**`depth_toJson`**): one for the grammar itself, one for the array of its
rules, one for a rule, and then what the deepest of the bodies takes. Up to 127 the text gives the
grammar back; from 128 on it counts as malformed, and no other grammar ever comes out.

That a text is refused does not make it another grammar's: **`render_eq_iff`**.
-/

namespace Peg

open Json

/-! ## Depth -/

/-- How many containers a rule nests: its own object, and those of its body. -/
def Rule.nesting (r : Rule) : Nat :=
  1 + r.expression.nesting

/-- A rule nests as deep as its document. -/
theorem Rule.depth_toJson (r : Rule) : r.toJson.depth = r.nesting := by
  have hname : (ofOption r.displayName).depth = 0 := by
    cases r.displayName with
    | none => rfl
    | some s => rfl
  have hbody : r.expression.toJson.depth = r.expression.nesting := r.expression.depth_toJson
  simp only [toJson, depth, depthEntries, hname, hbody, nesting]
  omega

namespace Grammar

/-- The deepest of some rules. -/
def rulesNesting (rules : List Rule) : Nat :=
  rules.foldr (fun r deepest => max r.nesting deepest) 0

/-- How many containers a grammar nests: its own object, the array of rules, and those of the rules.
The object of an initializer stands beside the array and is as deep as an empty one. -/
def nesting (g : Grammar) : Nat :=
  2 + rulesNesting g.rules

theorem depthItems_rules (rules : List Rule) :
    depthItems (rules.map Rule.toJson) = rulesNesting rules := by
  induction rules with
  | nil => rfl
  | cons r rules ih =>
    rw [List.map_cons, depthItems, r.depth_toJson, ih]
    rfl

/-- **The nesting of a grammar is the depth of its document.** -/
theorem depth_toJson (g : Grammar) : g.toJson.depth = g.nesting := by
  have hinit : (g.initializer.elim Json.null Initializer.toJson).depth ≤ 1 := by
    cases g.initializer with
    | none => exact Nat.zero_le 1
    | some i => exact Nat.le_refl 1
  simp only [toJson, depth, depthEntries, depthItems_rules, nesting]
  omega

end Grammar

/-! ## Reading -/

theorem Initializer.readDraft_toJson (i : Initializer) (room : Nat) :
    record.readDraft room i.toJson.draft = Read.nested i.toJson.depth room i :=
  Record.readDraft_object (.pass rfl rfl
    (.set (f := Field.code) rfl rfl (readString_draft i.code _) (.nil _))) rfl

/-- A rule is read back where there is room for what it nests. -/
theorem Rule.readDraft_toJson (r : Rule) (room : Nat) :
    record.readDraft room r.toJson.draft = Read.nested r.toJson.depth room r := by
  have hdisplay : Draft.readOption Draft.readString (ofOption r.displayName).draft
      = Read.nested (ofOption r.displayName).depth (room - 1) r.displayName := by
    rw [ofOption_eq_elim]
    exact readOption_draft r.displayName (fun _ => Draft.noConfusion) fun s =>
      readString_draft s (room - 1)
  have hbody := r.expression.readDraft_toJson .outermost (room - 1)
  exact Record.readDraft_object (.pass rfl rfl
    (.set (f := Field.name) rfl rfl (readString_draft r.name _)
      (.set (f := Field.displayName) rfl rfl hdisplay
        (.set (f := Field.expression) rfl rfl hbody (.nil _))))) rfl

namespace Grammar

/-- A grammar is read back where there is room for what it nests. -/
theorem readDraft_toJson (g : Grammar) (room : Nat) :
    record.readDraft room g.toJson.draft = Read.nested g.toJson.depth room g := by
  have hinit : Draft.readOption (Initializer.record.readDraft (room - 1))
        (g.initializer.elim Json.null Initializer.toJson).draft
      = Read.nested (g.initializer.elim Json.null Initializer.toJson).depth (room - 1)
        g.initializer :=
    readOption_draft g.initializer (fun _ => Draft.noConfusion) fun i =>
      i.readDraft_toJson (room - 1)
  have hrules : Draft.readList (Rule.record.readDraft (room - 1 - 1)) (room - 1)
        (array (g.rules.map Rule.toJson)).draft
      = Read.nested (array (g.rules.map Rule.toJson)).depth (room - 1) g.rules :=
    readList_draft fun r _ => r.readDraft_toJson (room - 1 - 1)
  exact Record.readDraft_object (.pass rfl rfl
    (.set (f := Field.initializer) rfl rfl hinit
      (.set (f := Field.rules) rfl rfl hrules
        (.set (f := Field.startRule) rfl rfl (readString_draft g.startRule _) (.nil _))))) rfl

/-- **A grammar reads back from its text exactly if it nests at most 127 containers**, and otherwise
nothing does. -/
theorem ofText_render_eq (g : Grammar) :
    g.toJson.depth = g.nesting ∧
      ofText g.render = if g.nesting ≤ 127 then .ok g else .error (.fault .malformed) := by
  refine ⟨g.depth_toJson, ?_⟩
  rw [ofText, Record.readText, render, readText_render, g.readDraft_toJson, g.depth_toJson]
  rfl

/-- **Grammars are equal exactly if their texts are**, however deep they nest. -/
theorem render_eq_iff (g g' : Grammar) : g.render = g'.render ↔ g = g' := by
  constructor
  · intro h
    exact eq_of_render_eq readDraft_toJson h
  · rintro rfl
    rfl

end Grammar

end Peg
