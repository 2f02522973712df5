/-!
# Parsing expressions

The fifteen kinds of parsing expressions, their children, and the walk over a tree. Trees are
compared by structure; `Expression.beq_iff_eq` is what makes equality decidable.
-/

namespace Peg

/-- One element of a character class: a character, or all from one character to another. -/
inductive ClassPart
  | char (c : Char)
  | range (first last : Char)
  deriving DecidableEq, Repr

inductive Expression
  /-- Ordered choice, `a / b / c`: the first alternative that succeeds. -/
  | choice (alternatives : List Expression)
  /-- Sequence, `a b c`: all elements in order. -/
  | sequence (elements : List Expression)
  /-- Labeled expression, `label:e`. -/
  | labeled (label : String) (expression : Expression)
  /-- Action, `e { code }`. -/
  | action (expression : Expression) (code : String)
  /-- Lookahead, `&e`. -/
  | simpleAnd (expression : Expression)
  /-- Negative lookahead, `!e`. -/
  | simpleNot (expression : Expression)
  /-- Predicate in code, `&{ code }`. -/
  | semanticAnd (code : String)
  /-- Negative predicate in code, `!{ code }`. -/
  | semanticNot (code : String)
  /-- Option, `e?`. -/
  | optional (expression : Expression)
  /-- Repetition, `e*`. -/
  | zeroOrMore (expression : Expression)
  /-- Repetition at least once, `e+`. -/
  | oneOrMore (expression : Expression)
  /-- Another rule by its name. -/
  | ruleRef (name : String)
  /-- Literal text, `"text"`, or `"text"i` to ignore case. -/
  | literal (value : String) (ignoreCase : Bool)
  /-- Character class, `[a-z]`, with the text it was written as. -/
  | charClass (inverted ignoreCase : Bool) (parts : List ClassPart) (rawText : String)
  /-- Any character, `.`. -/
  | any

namespace Expression

/-- The kinds of expressions, in their numbered order. -/
inductive Kind
  | choice | sequence | labeled | action | simpleAnd | simpleNot | semanticAnd | semanticNot
  | optional | zeroOrMore | oneOrMore | ruleRef | literal | charClass | any
  deriving DecidableEq, Repr

namespace Kind

/-- All kinds, each at its number. -/
def all : List Kind :=
  [choice, sequence, labeled, action, simpleAnd, simpleNot, semanticAnd, semanticNot, optional,
    zeroOrMore, oneOrMore, ruleRef, literal, charClass, any]

/-- The name a kind is shown under. -/
def name : Kind → String
  | choice => "choice"
  | sequence => "sequence"
  | labeled => "labeled"
  | action => "action"
  | simpleAnd => "simple_and"
  | simpleNot => "simple_not"
  | semanticAnd => "semantic_and"
  | semanticNot => "semantic_not"
  | optional => "optional"
  | zeroOrMore => "zero_or_more"
  | oneOrMore => "one_or_more"
  | ruleRef => "rule_ref"
  | literal => "literal"
  | charClass => "class"
  | any => "any"

end Kind

def kind : Expression → Kind
  | choice _ => .choice
  | sequence _ => .sequence
  | labeled _ _ => .labeled
  | action _ _ => .action
  | simpleAnd _ => .simpleAnd
  | simpleNot _ => .simpleNot
  | semanticAnd _ => .semanticAnd
  | semanticNot _ => .semanticNot
  | optional _ => .optional
  | zeroOrMore _ => .zeroOrMore
  | oneOrMore _ => .oneOrMore
  | ruleRef _ => .ruleRef
  | literal _ _ => .literal
  | charClass _ _ _ _ => .charClass
  | any => .any

/-- The expressions directly inside an expression, in order. -/
def children : Expression → List Expression
  | choice es | sequence es => es
  | labeled _ e | action e _ | simpleAnd e | simpleNot e | optional e | zeroOrMore e
  | oneOrMore e => [e]
  | semanticAnd _ | semanticNot _ | ruleRef _ | literal _ _ | charClass _ _ _ _ | any => []

mutual

/-- The expression and all inside it, each before its children. -/
def walk : Expression → List Expression
  -- kind by kind, so that the recursion is structural
  | choice es => choice es :: walkAll es
  | sequence es => sequence es :: walkAll es
  | labeled l e => labeled l e :: e.walk
  | action e c => action e c :: e.walk
  | simpleAnd e => simpleAnd e :: e.walk
  | simpleNot e => simpleNot e :: e.walk
  | optional e => optional e :: e.walk
  | zeroOrMore e => zeroOrMore e :: e.walk
  | oneOrMore e => oneOrMore e :: e.walk
  | semanticAnd c => [semanticAnd c]
  | semanticNot c => [semanticNot c]
  | ruleRef n => [ruleRef n]
  | literal v i => [literal v i]
  | charClass v i ps t => [charClass v i ps t]
  | any => [any]

def walkAll : List Expression → List Expression
  | [] => []
  | e :: es => e.walk ++ walkAll es

end

theorem walkAll_eq_flatMap (es : List Expression) : walkAll es = es.flatMap walk := by
  induction es with
  | nil => rfl
  | cons e es ih => simp [walkAll, ih]

/-- A walk takes the expression first and then goes through what is directly inside it. -/
theorem walk_eq_cons (e : Expression) : e.walk = e :: e.children.flatMap walk := by
  cases e <;> simp [walk, children, walkAll_eq_flatMap]

/-- The rule an expression refers to, if it is a reference. -/
def reference? : Expression → Option String
  | ruleRef name => some name
  | _ => none

/-- The rules referred to anywhere in an expression, in the order of the walk. -/
def references (e : Expression) : List String :=
  e.walk.filterMap reference?

/-! ### Equality -/

mutual

def beq : Expression → Expression → Bool
  | choice as, choice bs => beqAll as bs
  | sequence as, sequence bs => beqAll as bs
  | labeled l a, labeled m b => l == m && beq a b
  | action a c, action b d => beq a b && c == d
  | simpleAnd a, simpleAnd b => beq a b
  | simpleNot a, simpleNot b => beq a b
  | semanticAnd c, semanticAnd d => c == d
  | semanticNot c, semanticNot d => c == d
  | optional a, optional b => beq a b
  | zeroOrMore a, zeroOrMore b => beq a b
  | oneOrMore a, oneOrMore b => beq a b
  | ruleRef n, ruleRef m => n == m
  | literal v i, literal w j => v == w && i == j
  | charClass v i ps s, charClass w j qs t => v == w && i == j && ps == qs && s == t
  | any, any => true
  | _, _ => false

def beqAll : List Expression → List Expression → Bool
  | [], [] => true
  | a :: as, b :: bs => beq a b && beqAll as bs
  | _, _ => false

end

mutual

/-- The comparison decides equality. It is by structure on the first expression, with every kind of
the second. -/
theorem beq_iff_eq : ∀ a b : Expression, beq a b = true ↔ a = b
  | choice as, b => by cases b <;> simp [beq, beqAll_iff_eq as]
  | sequence as, b => by cases b <;> simp [beq, beqAll_iff_eq as]
  | labeled l a, b => by cases b <;> simp [beq, beq_iff_eq a]
  | action a c, b => by cases b <;> simp [beq, beq_iff_eq a]
  | simpleAnd a, b => by cases b <;> simp [beq, beq_iff_eq a]
  | simpleNot a, b => by cases b <;> simp [beq, beq_iff_eq a]
  | semanticAnd c, b => by cases b <;> simp [beq]
  | semanticNot c, b => by cases b <;> simp [beq]
  | optional a, b => by cases b <;> simp [beq, beq_iff_eq a]
  | zeroOrMore a, b => by cases b <;> simp [beq, beq_iff_eq a]
  | oneOrMore a, b => by cases b <;> simp [beq, beq_iff_eq a]
  | ruleRef n, b => by cases b <;> simp [beq]
  | literal v i, b => by cases b <;> simp [beq]
  | charClass v i ps s, b => by cases b <;> simp [beq, and_assoc]
  | any, b => by cases b <;> simp [beq]

theorem beqAll_iff_eq : ∀ as bs : List Expression, beqAll as bs = true ↔ as = bs
  | [], bs => by cases bs <;> simp [beqAll]
  | a :: as, bs => by cases bs <;> simp [beqAll, beq_iff_eq a, beqAll_iff_eq as]

end

instance : DecidableEq Expression := fun a b => decidable_of_iff _ (beq_iff_eq a b)

end Expression

end Peg
