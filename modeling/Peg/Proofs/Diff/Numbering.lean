import Peg.Diff.Basic

/-!
# Rules of one name, and their numbers

Rules are compared by name, and among rules of one name by number. `numbered` gives every rule the
number of rules of its name before it; `named` selects the rules of one name. The two are views of
the same thing: **`numbered_filter`** says that the numbered rules of one name are the rules of that
name with their positions, so that (**`mem_numbered`**) a rule has the number `i` exactly if it is
the `i`-th of its name.

Along the list the numbers of one name increase (**`numbered_increasing`**), which is why a rule and
its number stand in one place only.
-/

namespace Peg.Diff

/-! ## The rules of one name -/

theorem mem_named {rules : List Rule} {name : String} {r : Rule} :
    r ∈ named rules name ↔ r ∈ rules ∧ r.name = name := by
  unfold named
  rw [List.mem_filter, beq_iff_eq]

@[simp] theorem named_cons_of_eq {r : Rule} {name : String} (h : r.name = name)
    (rules : List Rule) :
    named (r :: rules) name = r :: named rules name := by
  unfold named
  rw [List.filter_cons, if_pos (beq_iff_eq.mpr h)]

@[simp] theorem named_cons_of_ne {r : Rule} {name : String} (h : r.name ≠ name)
    (rules : List Rule) :
    named (r :: rules) name = named rules name := by
  unfold named
  rw [List.filter_cons, if_neg (mt beq_iff_eq.mp h)]

/-! ## Numbered rules -/

/-- Numbering rules keeps them in their order. -/
@[simp] theorem numbered_map_fst (seen : List String) (rules : List Rule) :
    (numbered seen rules).map Prod.fst = rules := by
  induction rules generalizing seen with
  | nil => rfl
  | cons r rules ih => rw [numbered, List.map_cons, ih]

/-- **The numbered rules of one name are the rules of that name, with their positions.** -/
theorem numbered_filter (seen : List String) (rules : List Rule) (name : String) :
    (numbered seen rules).filter (fun x => x.1.name == name)
      = (named rules name).zipIdx (seen.count name) := by
  induction rules generalizing seen with
  | nil => rfl
  | cons r rules ih =>
    rw [numbered]
    by_cases h : r.name = name
    · rw [List.filter_cons, if_pos (beq_iff_eq.mpr h), ih, named_cons_of_eq h, List.zipIdx_cons, h,
        List.count_cons_self]
    · rw [List.filter_cons, if_neg (mt beq_iff_eq.mp h), ih, named_cons_of_ne h,
        List.count_cons_of_ne h]

/-- A rule has number `i` if it is the one at place `i` among the rules of its name. Names already
seen have used up the first numbers. -/
theorem mem_numbered_from {seen : List String} {rules : List Rule} {r : Rule} {i : Nat} :
    (r, i) ∈ numbered seen rules ↔
      seen.count r.name ≤ i ∧ (named rules r.name)[i - seen.count r.name]? = some r := by
  rw [← List.mk_mem_zipIdx_iff_le_and_getElem?_sub, ← numbered_filter, List.mem_filter]
  simp only [beq_self_eq_true, and_true]

/-- **A rule has the number `i` exactly if it is the `i`-th rule of its name.** -/
theorem mem_numbered {rules : List Rule} {r : Rule} {i : Nat} :
    (r, i) ∈ numbered [] rules ↔ (named rules r.name)[i]? = some r := by
  rw [mem_numbered_from, List.count_nil, Nat.sub_zero]
  exact and_iff_right (Nat.zero_le i)

/-- **The numbers of one name increase along the list.** -/
theorem numbered_increasing (seen : List String) (rules : List Rule) :
    (numbered seen rules).Pairwise fun x y => x.1.name = y.1.name → x.2 < y.2 := by
  induction rules generalizing seen with
  | nil => exact List.Pairwise.nil
  | cons r rules ih =>
    rw [numbered]
    refine List.Pairwise.cons ?_ (ih (r.name :: seen))
    rintro ⟨s, i⟩ hmem hname
    -- Behind the first rule, its name has been seen once more.
    have hle : (r.name :: seen).count s.name ≤ i := (mem_numbered_from.mp hmem).1
    have hname : r.name = s.name := hname
    rw [← hname, List.count_cons_self] at hle
    exact hle

/-- No rule is numbered twice, as rules of one name get different numbers. -/
theorem numbered_nodup (rules : List Rule) : (numbered [] rules).Nodup := by
  refine (numbered_increasing [] rules).imp ?_
  intro x y hlt heq
  rw [heq] at hlt
  exact Nat.lt_irrefl _ (hlt rfl)

end Peg.Diff
