import Peg.Expression.Document

/-!
# How deep expressions nest

The document of an expression nests containers, and a reader takes only so many. **`nesting`**
counts them off the expression itself: one for its object, one more for a list of operands or of
class parts, one more for a range in it, and then what the deepest operand takes. **`depth_toJson`**
says that this is the depth of the document.

Both go by **`childInduction`**: what holds of an expression whenever it holds of its operands holds
of every expression.
-/

namespace Peg

namespace Expression

/-! ## Induction over operands -/

mutual

/-- The induction for one expression, by its kind. -/
theorem childInduction_one {motive : Expression → Prop}
    (step : ∀ e : Expression, (∀ c ∈ e.children, motive c) → motive e) :
    ∀ e : Expression, motive e
  | choice es => step (choice es) (childInduction_all step es)
  | sequence es => step (sequence es) (childInduction_all step es)
  | labeled l e => step (labeled l e) (List.forall_mem_singleton.mpr (childInduction_one step e))
  | action e c => step (action e c) (List.forall_mem_singleton.mpr (childInduction_one step e))
  | simpleAnd e => step (simpleAnd e) (List.forall_mem_singleton.mpr (childInduction_one step e))
  | simpleNot e => step (simpleNot e) (List.forall_mem_singleton.mpr (childInduction_one step e))
  | optional e => step (optional e) (List.forall_mem_singleton.mpr (childInduction_one step e))
  | zeroOrMore e => step (zeroOrMore e) (List.forall_mem_singleton.mpr (childInduction_one step e))
  | oneOrMore e => step (oneOrMore e) (List.forall_mem_singleton.mpr (childInduction_one step e))
  | semanticAnd c => step (semanticAnd c) (List.forall_mem_nil _)
  | semanticNot c => step (semanticNot c) (List.forall_mem_nil _)
  | ruleRef n => step (ruleRef n) (List.forall_mem_nil _)
  | literal v i => step (literal v i) (List.forall_mem_nil _)
  | charClass v i ps s => step (charClass v i ps s) (List.forall_mem_nil _)
  | any => step any (List.forall_mem_nil _)

theorem childInduction_all {motive : Expression → Prop}
    (step : ∀ e : Expression, (∀ c ∈ e.children, motive c) → motive e) :
    ∀ es : List Expression, ∀ e ∈ es, motive e
  | [] => List.forall_mem_nil _
  | e :: es =>
    List.forall_mem_cons.mpr ⟨childInduction_one step e, childInduction_all step es⟩

end

/-- **Induction over operands.** -/
@[elab_as_elim]
theorem childInduction {motive : Expression → Prop} (e : Expression)
    (step : ∀ e : Expression, (∀ c ∈ e.children, motive c) → motive e) : motive e :=
  childInduction_one step e

/-! ## Counting containers -/

end Expression

/-- How many containers a part of a character class nests. -/
def ClassPart.nesting : ClassPart → Nat
  | char _ => 0
  | range _ _ => 1

namespace Expression

/-- The deepest of some parts. -/
def partsNesting (parts : List ClassPart) : Nat :=
  parts.foldr (fun part deepest => max part.nesting deepest) 0

mutual

/-- How many containers an expression nests, its own object included. -/
def nesting : Expression → Nat
  | choice es | sequence es => 2 + nestingAll es
  | labeled _ e | action e _ | simpleAnd e | simpleNot e | optional e | zeroOrMore e
  | oneOrMore e => 1 + e.nesting
  | charClass _ _ parts _ => 2 + partsNesting parts
  | semanticAnd _ | semanticNot _ | ruleRef _ | literal _ _ | any => 1

/-- The deepest of some expressions. -/
def nestingAll : List Expression → Nat
  | [] => 0
  | e :: es => max e.nesting (nestingAll es)

end

/-! ## The depth of the document -/

theorem documents_eq_map (es : List Expression) : documents es = es.map toJson := by
  induction es with
  | nil => rfl
  | cons e es ih => rw [documents, ih, List.map_cons]

end Expression

/-- A class part nests as deep as its document. -/
@[simp] theorem ClassPart.depth_toJson (part : ClassPart) : part.toJson.depth = part.nesting := by
  cases part <;> rfl

namespace Expression

theorem depthItems_parts (parts : List ClassPart) :
    Json.depthItems (parts.map ClassPart.toJson) = partsNesting parts := by
  induction parts with
  | nil => rfl
  | cons part parts ih =>
    simp [Json.depthItems, partsNesting, ih]

/-- Operands nest as deep as their documents do. -/
theorem depthItems_documents {es : List Expression}
    (h : ∀ e ∈ es, e.toJson.depth = e.nesting) :
    Json.depthItems (documents es) = nestingAll es := by
  induction es with
  | nil => rfl
  | cons e es ih =>
    rw [documents, Json.depthItems, nestingAll, h e (List.mem_cons_self ..),
      ih fun c hc => h c (List.mem_cons_of_mem _ hc)]

/-- **The nesting of an expression is the depth of its document.** -/
theorem depth_toJson (e : Expression) : e.toJson.depth = e.nesting := by
  induction e using childInduction with
  | step e ih =>
    -- An object is one deeper than its deepest field, and a text or a truth value is flat.
    cases e with
    | choice es | sequence es =>
      have hes : Json.depthItems (documents es) = nestingAll es := depthItems_documents ih
      simp only [toJson, node, Json.depth, Json.depthEntries, hes, nesting]
      omega
    | labeled _ e | action e _ | simpleAnd e | simpleNot e | optional e | zeroOrMore e
    | oneOrMore e =>
      have he : e.toJson.depth = e.nesting := ih e (List.mem_singleton_self e)
      simp only [toJson, node, Json.depth, Json.depthEntries, he, nesting]
      omega
    | charClass inverted ignoreCase parts rawText =>
      simp only [toJson, node, Json.depth, Json.depthEntries, depthItems_parts, nesting]
      omega
    | semanticAnd _ | semanticNot _ | ruleRef _ | literal _ _ | any => rfl

end Expression

end Peg
