import Peg.Json.Number

/-!
# JSON documents

A document is a tree. Objects keep their entries in order, repeated keys included: what a key means
is for the reader of the object to say.
-/

namespace Peg

inductive Json
  | null
  | bool (b : Bool)
  | number (n : Json.Number)
  | string (s : String)
  | array (items : List Json)
  | object (entries : List (String × Json))
  deriving Inhabited

namespace Json

mutual

/-- How many containers stand around the innermost one, itself included. -/
def depth : Json → Nat
  | .null | .bool _ | .number _ | .string _ => 0
  | .array items => 1 + depthItems items
  | .object entries => 1 + depthEntries entries

def depthItems : List Json → Nat
  | [] => 0
  | item :: items => max item.depth (depthItems items)

def depthEntries : List (String × Json) → Nat
  | [] => 0
  | (_, value) :: entries => max value.depth (depthEntries entries)

end

@[simp] theorem depthItems_le_iff {items : List Json} {room : Nat} :
    depthItems items ≤ room ↔ ∀ item ∈ items, item.depth ≤ room := by
  induction items with
  | nil => simp [depthItems]
  | cons item items ih => rw [depthItems, Nat.max_le, ih, List.forall_mem_cons]

@[simp] theorem depthEntries_le_iff {entries : List (String × Json)} {room : Nat} :
    depthEntries entries ≤ room ↔ ∀ entry ∈ entries, entry.2.depth ≤ room := by
  induction entries with
  | nil => simp [depthEntries]
  | cons entry entries ih =>
    rw [depthEntries, Nat.max_le, ih, List.forall_mem_cons]

/-- A string, or `null` for none. -/
def ofOption : Option String → Json
  | none => .null
  | some s => .string s

end Json

end Peg
