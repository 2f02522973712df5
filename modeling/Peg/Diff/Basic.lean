import Peg.Grammar.Basic

/-!
# Differences between grammars

Two grammars are compared rule by rule. Rules pair up by name, and among rules of one name by
order, so that the second `a` of one grammar is compared with the second `a` of the other. Moving a
rule past rules of other names is no change.
-/

namespace Peg

/-- How a part of a grammar changed. -/
inductive Change.Kind
  /-- Only the new grammar has it. -/
  | added
  /-- Only the old grammar has it. -/
  | removed
  /-- Both have it, and it differs. -/
  | modified
  deriving DecidableEq, Repr

namespace Change.Kind

def all : List Kind := [added, removed, modified]

def name : Kind → String
  | added => "Added"
  | removed => "Removed"
  | modified => "Modified"

end Change.Kind

/-- A part of a grammar that changed: `initializer`, `start_rule` or `rules.` and a name. -/
structure Change where
  path : String
  kind : Change.Kind
  deriving DecidableEq, Repr

namespace Change

/-- What the path of a rule starts with. -/
def ruleRoot : String := "rules."

def rulePath (name : String) : String :=
  ruleRoot ++ name

/-- The rule a path leads to, if it leads to one. -/
def ruleName? (path : String) : Option String :=
  (ruleRoot.toList.isPrefixOf? path.toList).map String.ofList

end Change

/-- The changes from one grammar to another. -/
structure Diff where
  changes : List Change
  deriving DecidableEq, Repr

namespace Diff

/-! ### Comparing grammars -/

/-- Each rule with the number of rules of its name before it; `seen` are the names of rules already
passed. -/
def numbered (seen : List String) : List Rule → List (Rule × Nat)
  | [] => []
  | r :: rules => (r, seen.count r.name) :: numbered (r.name :: seen) rules

def named (rules : List Rule) (name : String) : List Rule :=
  rules.filter fun r => r.name == name

/-- The change of an old rule, the `index`-th of its name. -/
def changeOf (new : List Rule) (rule : Rule) (index : Nat) : Option Change.Kind :=
  match (named new rule.name)[index]? with
  | none => some .removed
  | some partner => if partner = rule then none else some .modified

/-- The changes of rules: the old ones first, then those only the new grammar has. -/
def ofRules (old new : List Rule) : List Change :=
  (numbered [] old).filterMap (fun (r, i) =>
      (changeOf new r i).map fun kind => ⟨Change.rulePath r.name, kind⟩) ++
    (numbered [] new).filterMap fun (r, i) =>
      -- the old grammar has no rule of this name and number
      if (named old r.name)[i]?.isNone then some ⟨Change.rulePath r.name, .added⟩ else none

def ofInitializers : Option Initializer → Option Initializer → List Change
  | none, some _ => [⟨"initializer", .added⟩]
  | some _, none => [⟨"initializer", .removed⟩]
  | some old, some new => if old = new then [] else [⟨"initializer", .modified⟩]
  | none, none => []

def ofStartRules (old new : String) : List Change :=
  if old = new then [] else [⟨"start_rule", .modified⟩]

def between (old new : Grammar) : Diff where
  changes := ofInitializers old.initializer new.initializer ++
    ofStartRules old.startRule new.startRule ++ ofRules old.rules new.rules

/-! ### What a diff says -/

def isEmpty (d : Diff) : Bool := d.changes.isEmpty

def length (d : Diff) : Nat := d.changes.length

/-- The rules added or modified, in the order they are reported. -/
def touched (d : Diff) : List String :=
  (d.changes.filter fun c => c.kind != .removed).filterMap fun c => Change.ruleName? c.path

end Diff

end Peg
