import Peg.Proofs.Expression.RoundTrip
import Peg.Proofs.Json.Contents

/-!
# What the document of an expression holds

The document of an expression is written field by field, each kind with its fields in an order of
its own; the walk goes from an expression to its operands and knows nothing of fields. Yet whatever
is asked of the objects in the document and of their kinds is answered in the order of the walk:
**`answers_toJson`**. In between stand only texts, truth values and class parts.
-/

namespace Peg

open Json

variable {β : Type} {ask : Option String × Json → Option β}

/-- What an object of the given kind answers itself, whatever is in its fields. -/
def ownAnswers (ask : Option String × Json → Option β) (key? : Option String) (v : Json)
    (kind : String) : List β :=
  (ask (key?, v)).toList ++ (ask (some "type", string kind)).toList

/-- An object with a kind answers for itself, and then its fields do. -/
theorem answers_tagged (key? : Option String) (kind : String) (fields : List (String × Json)) :
    answers ask key? (object (("type", string kind) :: fields))
      = ownAnswers ask key? (object (("type", string kind) :: fields)) kind ++
        answersOfEntries ask fields := by
  simp [answers_object, ownAnswers]

/-- There is no object in a class part. -/
theorem ClassPart.answers_toJson (hask : AsksObjects ask) (part : ClassPart) :
    answers ask none part.toJson = [] := by
  have hkey : none ≠ some "type" := (Option.some_ne_none _).symm
  have hchar : ∀ c, answers ask none (charDocument c) = [] := fun c =>
    answers_scalar hask hkey rfl
  cases part with
  | char c => exact hchar c
  | range first last =>
    rw [toJson, answers_array hask hkey, List.flatMap_cons, List.flatMap_cons, hchar, hchar]
    rfl

namespace Expression

/-- **The tag of a kind is its name.** The tag is the title in snake case, the name stands in a list
of its own. -/
theorem Kind.tag_eq_name (kind : Kind) : kind.tag = kind.name := by
  cases kind <;> rfl

theorem exists_toJson_eq_node (e : Expression) : ∃ fields, e.toJson = node e.kind fields := by
  cases e <;> exact ⟨_, rfl⟩

/-- **An expression answers in the order of the walk.** -/
theorem answers_toJson (hask : AsksObjects ask) {own : Expression → List β}
    (hown : ∀ e key?, key? ≠ some "type" → ownAnswers ask key? e.toJson e.kind.tag = own e)
    (e : Expression) {key? : Option String} (hkey : key? ≠ some "type") :
    answers ask key? e.toJson = e.walk.flatMap own := by
  induction e using childInduction generalizing key? with
  | step e ih =>
    -- it is left to show that the fields answer what the operands do
    suffices hfields : ∀ fields, e.toJson = node e.kind fields →
        answersOfEntries ask fields = e.children.flatMap fun c => c.walk.flatMap own by
      obtain ⟨fields, hnode⟩ := e.exists_toJson_eq_node
      rw [walk_eq_cons, List.flatMap_cons, List.flatMap_assoc, ← hfields fields hnode,
        ← hown e key? hkey, hnode]
      exact answers_tagged key? e.kind.tag fields
    intro fields hnode
    have hnone : none ≠ some "type" := (Option.some_ne_none _).symm
    have hstring : ∀ key s, key ≠ "type" → answers ask (some key) (string s) = [] :=
      fun key s hkey => answers_scalar hask (mt Option.some.inj hkey) rfl
    have hbool : ∀ key b, key ≠ "type" → answers ask (some key) (bool b) = [] :=
      fun key b hkey => answers_scalar hask (mt Option.some.inj hkey) rfl
    cases e with
    | choice es | sequence es =>
      cases hnode
      rw [answersOfEntries_cons, answers_array hask (by decide), documents_eq_map,
        List.flatMap_map, answersOfEntries_nil, List.append_nil]
      exact List.flatMap_congr fun c hc => ih c hc hnone
    | labeled _ e | action e _ | simpleAnd e | simpleNot e | optional e | zeroOrMore e
    | oneOrMore e =>
      cases hnode
      have hkey : some "expression" ≠ some "type" := by decide
      have he := ih e (List.mem_singleton_self e) hkey
      simp [he, hstring, children]
    | charClass inverted ignoreCase parts rawText =>
      cases hnode
      simp [hstring, hbool, children, answers_array hask, ClassPart.answers_toJson hask]
    | semanticAnd _ | semanticNot _ | ruleRef _ | literal _ _ | any =>
      cases hnode
      simp [hstring, hbool, children]

/-! ## Objects of one kind -/

/-- Two kinds have two tags, as a tag is read back as its kind. -/
@[simp] theorem Kind.tag_inj {kind kind' : Kind} : kind.tag = kind'.tag ↔ kind = kind' := by
  constructor
  · intro h
    have hkind : Kind.ofTag kind.tag = .ok kind := kind.ofTag_tag
    rw [h, kind'.ofTag_tag] at hkind
    exact (Except.ok.inj hkind).symm
  · rintro rfl
    rfl

@[simp] theorem text?_type_toJson (e : Expression) : e.toJson.text? "type" = some e.kind.tag := by
  obtain ⟨fields, hnode⟩ := e.exists_toJson_eq_node
  rw [hnode]
  rfl

/-- **The objects of a kind are the documents of the expressions of that kind**, in the order of the
walk. -/
theorem answers_tagged?_toJson (kind : Kind) (e : Expression) {key? : Option String}
    (hkey : key? ≠ some "type") :
    answers (tagged? kind.tag) key? e.toJson
      = (e.walk.filter fun f => f.kind = kind).map toJson := by
  have hown : ∀ f : Expression, ∀ key?, key? ≠ some "type" →
      ownAnswers (tagged? kind.tag) key? f.toJson f.kind.tag
        = if f.kind = kind then [f.toJson] else [] := by
    intro f key? _
    by_cases h : f.kind = kind <;> simp [ownAnswers, tagged?, h]
  rw [e.answers_toJson (asksObjects_tagged kind.tag) hown hkey]
  induction e.walk with
  | nil => rfl
  | cons f walk ih =>
    rw [List.flatMap_cons, ih, List.filter_cons]
    by_cases h : f.kind = kind <;> simp [h]

/-- The name in the document of a reference is the name of the rule. -/
theorem map_text?_name (es : List Expression) :
    ((es.filter fun e => e.kind = .ruleRef).map toJson).map (text? "name")
      = (es.filterMap reference?).map some := by
  induction es with
  | nil => rfl
  | cons e es ih =>
    rw [List.filter_cons, List.filterMap_cons]
    cases e with
    | ruleRef name =>
      rw [if_pos (by rfl), List.map_cons, List.map_cons, ih]
      rfl
    | _ => exact ih

end Expression

end Peg
