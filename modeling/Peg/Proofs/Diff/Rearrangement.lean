import Mathlib.Data.List.NodupEquivFin
import Peg.Proofs.Diff.Pairing

/-!
# What an empty diff means

A diff is empty if initializer and start rule are the same and the rules are the same up to order,
where only rules of different names may change places: **`isEmpty_between_iff`**.

The comparison knows nothing of places. It finds nothing exactly if for every name the rules of that
name are the same, in order (`ofRules_eq_nil_iff`). From there to a permutation of places, the way
is by the numbers: a rule and its number stand in one place of either list
(`numbered_nodup`), and that is how the places correspond. Back from a permutation,
the places of one name go to the places of that name, and since they stay in order, one after the
other.
-/

namespace Peg.Diff

open Change

/-- The new rules are a rearrangement of the old ones that keeps rules of one name in order. -/
def Rearranges (old new : List Rule) : Prop :=
  ∃ σ : Fin old.length ≃ Fin new.length,
    (∀ i, new[σ i] = old[i]) ∧ ∀ i j, i < j → old[i].name = old[j].name → σ i < σ j

/-! ## Nothing reported -/

/-- **The comparison finds nothing exactly if the rules of every name are the same.** -/
theorem ofRules_eq_nil_iff {old new : List Rule} :
    ofRules old new = [] ↔ ∀ name, named old name = named new name := by
  constructor
  · intro h name
    rw [← paired_eq_nil_iff, ← kindsAt_ofRules, h]
    rfl
  · intro h
    refine List.eq_nil_iff_forall_not_mem.mpr fun c hc => ?_
    obtain ⟨name, hpath⟩ := exists_rulePath_of_mem hc
    have hkind : c.kind ∈ kindsAt name (ofRules old new) := by
      rw [mem_kindsAt, ← hpath]
      exact hc
    rw [kindsAt_ofRules, paired_eq_nil_iff.mpr (h name)] at hkind
    cases hkind

theorem ofInitializers_eq_nil_iff {old new : Option Initializer} :
    ofInitializers old new = [] ↔ old = new := by
  unfold ofInitializers
  cases old <;> cases new <;> simp

theorem ofStartRules_eq_nil_iff {old new : String} : ofStartRules old new = [] ↔ old = new := by
  unfold ofStartRules
  simp

/-! ## From equal names to a permutation -/

/-- Lists of the same elements, each in one place, correspond place by place. -/
theorem exists_equiv_of_mem_iff {α : Type} [DecidableEq α] {l l' : List α} (h : l.Nodup)
    (h' : l'.Nodup) (hmem : ∀ a, a ∈ l ↔ a ∈ l') :
    ∃ σ : Fin l.length ≃ Fin l'.length, ∀ i, l'[σ i] = l[i] := by
  let σ := (h.getEquiv l).trans ((Equiv.subtypeEquivRight hmem).trans (h'.getEquiv l').symm)
  refine ⟨σ, fun i => ?_⟩
  have hσ : (h'.getEquiv l') (σ i) = Equiv.subtypeEquivRight hmem (h.getEquiv l i) :=
    Equiv.apply_symm_apply _ _
  exact congrArg Subtype.val hσ

/-- With the same rules at each name there are the same rules with the same numbers. -/
theorem mem_numbered_iff_of_named_eq {old new : List Rule}
    (h : ∀ name, named old name = named new name) (x : Rule × Nat) :
    x ∈ numbered [] old ↔ x ∈ numbered [] new := by
  obtain ⟨r, i⟩ := x
  rw [mem_numbered, mem_numbered, h r.name]

/-- Places that hold the same numbered rules are in order where the names are the same, because the
numbers are. -/
theorem lt_of_numbers_increase {l l' : List (Rule × Nat)} {σ : Fin l.length ≃ Fin l'.length}
    (hσ : ∀ i, l'[σ i] = l[i])
    (h : l.Pairwise fun x y => x.1.name = y.1.name → x.2 < y.2)
    (h' : l'.Pairwise fun x y => x.1.name = y.1.name → x.2 < y.2)
    {i j : Fin l.length} (hij : i < j) (hname : l[i].1.name = l[j].1.name) : σ i < σ j := by
  have hnumber : l[i].2 < l[j].2 := List.pairwise_iff_getElem.mp h i j i.isLt j.isLt hij hname
  rcases Nat.lt_trichotomy (σ i) (σ j) with hlt | heq | hgt
  · exact hlt
  · exact absurd (σ.injective (Fin.ext heq)) (Fin.ne_of_lt hij)
  · have hback : l'[σ j].1.name = l'[σ i].1.name → l'[σ j].2 < l'[σ i].2 :=
      List.pairwise_iff_getElem.mp h' (σ j) (σ i) (σ j).isLt (σ i).isLt hgt
    rw [hσ, hσ] at hback
    exact absurd (hback hname.symm) (Nat.lt_asymm hnumber)

/-- A bijection of numbered rules that keeps them rearranges the rules: numbers increase among the
rules of a name, so it keeps their order too. -/
theorem rearranges_map_fst {l l' : List (Rule × Nat)} (σ : Fin l.length ≃ Fin l'.length)
    (hσ : ∀ i, l'[σ i] = l[i])
    (h : l.Pairwise fun x y => x.1.name = y.1.name → x.2 < y.2)
    (h' : l'.Pairwise fun x y => x.1.name = y.1.name → x.2 < y.2) :
    Rearranges (l.map Prod.fst) (l'.map Prod.fst) := by
  have hlen : (l.map Prod.fst).length = l.length := List.length_map _
  have hlen' : l'.length = (l'.map Prod.fst).length := (List.length_map _).symm
  refine ⟨(finCongr hlen).trans (σ.trans (finCongr hlen')), ?_, ?_⟩
  · intro i
    have hrule := congrArg Prod.fst (hσ (finCongr hlen i))
    simpa using hrule
  · intro i j hij hname
    have hname : l[finCongr hlen i].1.name = l[finCongr hlen j].1.name := by
      simpa using hname
    exact lt_of_numbers_increase hσ h h' hij hname

/-- With the same rules at each name, one list rearranges the other. -/
theorem rearranges_of_named_eq {old new : List Rule}
    (h : ∀ name, named old name = named new name) : Rearranges old new := by
  obtain ⟨σ, hσ⟩ := exists_equiv_of_mem_iff (numbered_nodup old) (numbered_nodup new)
    (mem_numbered_iff_of_named_eq h)
  rw [← numbered_map_fst [] old, ← numbered_map_fst [] new]
  exact rearranges_map_fst σ hσ (numbered_increasing [] old) (numbered_increasing [] new)

/-! ## From a permutation to equal names -/

/-- The places of the rules of one name, in order. -/
def placesOf (rules : List Rule) (name : String) : List (Fin rules.length) :=
  (List.finRange rules.length).filter fun i => rules[i].name == name

theorem mem_placesOf {rules : List Rule} {name : String} {i : Fin rules.length} :
    i ∈ placesOf rules name ↔ rules[i].name = name := by
  unfold placesOf
  rw [List.mem_filter, beq_iff_eq]
  exact and_iff_right (List.mem_finRange i)

/-- The places of a name come in their order. -/
theorem placesOf_increasing (rules : List Rule) (name : String) :
    (placesOf rules name).Pairwise (· < ·) :=
  (List.pairwise_lt_finRange rules.length).filter _

/-- The rules of a name are those at its places. -/
theorem named_eq_map_placesOf (rules : List Rule) (name : String) :
    named rules name = (placesOf rules name).map fun i => rules[i] := by
  unfold named placesOf
  conv => lhs; rw [← List.map_getElem_finRange rules]
  rw [List.filter_map]
  rfl

/-- **The places of a name go to the places of that name, in order.** -/
theorem placesOf_map {old new : List Rule} {σ : Fin old.length ≃ Fin new.length}
    (hσ : ∀ i, new[σ i] = old[i])
    (hmono : ∀ i j, i < j → old[i].name = old[j].name → σ i < σ j) (name : String) :
    (placesOf old name).map σ = placesOf new name := by
  have hincreasing : ((placesOf old name).map σ).Pairwise (· < ·) := by
    rw [List.pairwise_map]
    refine (placesOf_increasing old name).imp_of_mem ?_
    intro i j hi hj hij
    exact hmono i j hij ((mem_placesOf.mp hi).trans (mem_placesOf.mp hj).symm)
  have hmem : ∀ j, j ∈ (placesOf old name).map σ ↔ j ∈ placesOf new name := by
    intro j
    rw [List.mem_map]
    constructor
    · rintro ⟨i, hi, rfl⟩
      rw [mem_placesOf, hσ]
      exact mem_placesOf.mp hi
    · intro hj
      obtain ⟨i, rfl⟩ := σ.surjective j
      refine ⟨i, ?_, rfl⟩
      rw [mem_placesOf, ← hσ]
      exact mem_placesOf.mp hj
  have hperm : ((placesOf old name).map σ).Perm (placesOf new name) :=
    (List.perm_ext_iff_of_nodup (hincreasing.imp Fin.ne_of_lt)
      ((placesOf_increasing new name).imp Fin.ne_of_lt)).mpr hmem
  -- Two increasing lists of the same places are the same list.
  exact hperm.eq_of_pairwise (fun i j _ _ hij hji => absurd hij (Fin.lt_asymm hji)) hincreasing
    (placesOf_increasing new name)

/-- A rearrangement takes the places of a name to the places of that name in their order, so the
rules there are the same. -/
theorem named_eq_of_rearranges {old new : List Rule} (h : Rearranges old new) (name : String) :
    named old name = named new name := by
  obtain ⟨σ, hσ, hmono⟩ := h
  rw [named_eq_map_placesOf old, named_eq_map_placesOf new, ← placesOf_map hσ hmono,
    List.map_map]
  exact List.map_congr_left fun i _ => (hσ i).symm

theorem named_eq_iff_rearranges {old new : List Rule} :
    (∀ name, named old name = named new name) ↔ Rearranges old new :=
  ⟨rearranges_of_named_eq, named_eq_of_rearranges⟩

/-! ## Empty diffs -/

/-- A diff is empty if the initializer, the start rule and the rules of each name are as they
were. -/
theorem isEmpty_iff_named_eq (old new : Grammar) :
    (between old new).isEmpty = true ↔
      old.initializer = new.initializer ∧ old.startRule = new.startRule ∧
        ∀ name, named old.rules name = named new.rules name := by
  unfold isEmpty between
  rw [List.isEmpty_iff, List.append_eq_nil_iff, List.append_eq_nil_iff, and_assoc,
    ofInitializers_eq_nil_iff, ofStartRules_eq_nil_iff, ofRules_eq_nil_iff]

/-- **A diff is empty exactly if only rules of different names have changed places.** -/
theorem isEmpty_between_iff (old new : Grammar) :
    (between old new).isEmpty = true ↔
      old.initializer = new.initializer ∧ old.startRule = new.startRule ∧
        Rearranges old.rules new.rules := by
  rw [isEmpty_iff_named_eq, named_eq_iff_rearranges]

end Peg.Diff
