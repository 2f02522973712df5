import Peg.Text.CodeUnit

/-!
# Replacement in passes

A text can be rewritten in passes, one after the other, each of which replaces every occurrence of
some code units in the whole text the passes before it have left. What comes out depends on the
order: a later pass may find units that an earlier one has written.

**`Settled`** says that none does. Then the passes amount to a single one with a table, in which the
first entry for a unit counts: **`replaceAll_of_settled`**.
-/

namespace Peg.Text

/-- One pass: the code units it replaces, and what it puts in their place. -/
structure Replacement where
  applies : CodeUnit → Bool
  code : CodeUnit → List CodeUnit

namespace Replacement

/-- Replaces every occurrence in a text. -/
def replace (r : Replacement) (text : List CodeUnit) : List CodeUnit :=
  text.flatMap fun u => if r.applies u then r.code u else [u]

/-- Makes the passes in their order, each over the whole text produced so far. -/
def replaceAll (passes : List Replacement) (text : List CodeUnit) : List CodeUnit :=
  passes.foldl (fun text r => r.replace text) text

/-- What the first pass that applies puts in the place of a unit. -/
def firstCode : List Replacement → CodeUnit → List CodeUnit
  | [], u => [u]
  | r :: rs, u => if r.applies u then r.code u else firstCode rs u

/-- No pass applies to anything that a pass before it has written. -/
def Settled (passes : List Replacement) : Prop :=
  passes.Pairwise fun earlier later =>
    ∀ u, earlier.applies u = true → ∀ v ∈ earlier.code u, later.applies v = false

variable {passes : List Replacement}

theorem firstCode_of_applies {r : Replacement} {u : CodeUnit} (h : r.applies u = true)
    (rs : List Replacement) : firstCode (r :: rs) u = r.code u :=
  if_pos h

theorem firstCode_of_not_applies {r : Replacement} {u : CodeUnit} (h : ¬ r.applies u = true)
    (rs : List Replacement) : firstCode (r :: rs) u = firstCode rs u :=
  if_neg h

/-- A unit to which no pass applies stays what it is. -/
theorem firstCode_of_untouched {u : CodeUnit} (h : ∀ r ∈ passes, r.applies u = false) :
    firstCode passes u = [u] := by
  induction passes with
  | nil => rfl
  | cons r rs ih =>
    have hr : r.applies u = false := h r (List.mem_cons_self ..)
    rw [firstCode_of_not_applies (by simp [hr])]
    exact ih fun s hs => h s (List.mem_cons_of_mem _ hs)

/-- So does a text to none of whose units a pass applies. -/
theorem flatMap_firstCode_of_untouched {text : List CodeUnit}
    (h : ∀ r ∈ passes, ∀ u ∈ text, r.applies u = false) :
    text.flatMap (firstCode passes) = text := by
  induction text with
  | nil => rfl
  | cons u us ih =>
    have hu : firstCode passes u = [u] :=
      firstCode_of_untouched fun r hr => h r hr u (List.mem_cons_self ..)
    have hus : us.flatMap (firstCode passes) = us :=
      ih fun r hr v hv => h r hr v (List.mem_cons_of_mem _ hv)
    rw [List.flatMap_cons, hu, hus]
    rfl

/-- **Settled passes are one pass with a table.** The induction is on the passes: what the first one
writes, the others leave alone, and what it leaves is theirs. -/
theorem replaceAll_of_settled (h : Settled passes) (text : List CodeUnit) :
    replaceAll passes text = text.flatMap (firstCode passes) := by
  induction passes generalizing text with
  | nil => exact (List.flatMap_singleton' text).symm
  | cons r rs ih =>
    obtain ⟨hr, hrs⟩ := List.pairwise_cons.mp h
    show replaceAll rs (r.replace text) = _
    rw [ih hrs, replace, List.flatMap_assoc]
    congr 1
    funext u
    by_cases hu : r.applies u = true
    · rw [if_pos hu, firstCode_of_applies hu]
      exact flatMap_firstCode_of_untouched fun later hlater v hv => hr later hlater u hu v hv
    · rw [if_neg hu, firstCode_of_not_applies hu]
      exact List.flatMap_singleton ..

/-- Passes that do not apply may be left out in front of others. -/
theorem firstCode_append_of_untouched {u : CodeUnit} (h : ∀ r ∈ passes, r.applies u = false)
    (rs : List Replacement) : firstCode (passes ++ rs) u = firstCode rs u := by
  induction passes with
  | nil => rfl
  | cons r passes ih =>
    have hr : r.applies u = false := h r (List.mem_cons_self ..)
    rw [List.cons_append, firstCode_of_not_applies (by simp [hr])]
    exact ih fun s hs => h s (List.mem_cons_of_mem _ hs)

end Replacement

end Peg.Text
