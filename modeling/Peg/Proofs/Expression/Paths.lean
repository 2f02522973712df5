import Mathlib.Data.List.Basic
import Peg.Proofs.Expression.Nesting

/-!
# Paths in a tree

A path says which child to go to at every step down from an expression; **`at?`** is where it
leads, if it leads anywhere. That has nothing to do with the walk over the tree. **`paths`** lists
the paths that do lead somewhere, child by child, and the two come together there:

* **`map_walk`**: the walk visits what the listed paths lead to, one after the other.
* **`mem_paths`**: every path that leads somewhere is listed, and no other one is.
* **`paths_increasing`**: they are listed in lexicographic order, a path before those that go on
  from it. So none is listed twice (`paths_nodup`).

Equal expressions may stand in many places of a tree, and it is by their paths that they are told
apart.
-/

namespace Peg

namespace Expression

/-! ## Going down -/

/-- The expression a path leads to: at every step, to the child of that number. -/
def at? (e : Expression) (path : List Nat) : Option Expression :=
  path.foldlM (fun f i => f.children[i]?) e

@[simp] theorem at?_nil (e : Expression) : e.at? [] = some e :=
  rfl

/-- A longer path goes on inside a child. -/
theorem at?_cons (e : Expression) (i : Nat) (path : List Nat) :
    e.at? (i :: path) = e.children[i]?.bind fun c => c.at? path :=
  rfl

/-- A path that goes on by `i` leads to the `i`-th child of where it has led so far. -/
theorem at?_append_singleton (e : Expression) (path : List Nat) (i : Nat) :
    e.at? (path ++ [i]) = (e.at? path).bind fun f => f.children[i]? := by
  unfold at?
  rw [List.foldlM_append]
  simp only [List.foldlM_cons, List.foldlM_nil, bind_pure]
  rfl

/-! ## The paths of a tree -/

mutual

/-- The paths from an expression, its own first and then those through each of its children. -/
def paths : Expression → List (List Nat)
  | choice es | sequence es => [] :: pathsFrom 0 es
  | labeled _ e | action e _ | simpleAnd e | simpleNot e | optional e | zeroOrMore e
  | oneOrMore e => [] :: e.paths.map (0 :: ·)
  | semanticAnd _ | semanticNot _ | ruleRef _ | literal _ _ | charClass _ _ _ _ | any => [[]]

/-- The paths through several children, the first of which has the number `i`. -/
def pathsFrom (i : Nat) : List Expression → List (List Nat)
  | [] => []
  | e :: es => e.paths.map (i :: ·) ++ pathsFrom (i + 1) es

end

/-- The paths through children start with the number of a child, counted from `i`. -/
theorem pathsFrom_eq_flatMap (i : Nat) (es : List Expression) :
    pathsFrom i es = (es.zipIdx i).flatMap fun x => x.1.paths.map (x.2 :: ·) := by
  induction es generalizing i with
  | nil => rfl
  | cons e es ih => rw [pathsFrom, ih, List.zipIdx_cons, List.flatMap_cons]

/-- The first path is the empty one, and the others go through the children in their order. -/
theorem paths_eq_cons (e : Expression) :
    e.paths = [] :: e.children.zipIdx.flatMap fun x => x.1.paths.map (x.2 :: ·) := by
  cases e <;> simp [paths, children, pathsFrom_eq_flatMap]

/-- A path is one of the expression if it goes on as one of the child it starts with. -/
theorem mem_paths_cons {e : Expression} {i : Nat} {path : List Nat} :
    i :: path ∈ e.paths ↔ ∃ c, e.children[i]? = some c ∧ path ∈ c.paths := by
  rw [paths_eq_cons, List.mem_cons, List.mem_flatMap, or_iff_right (List.cons_ne_nil i path)]
  constructor
  · rintro ⟨⟨c, j⟩, hc, hpath⟩
    obtain ⟨rest, hrest, heq⟩ := List.mem_map.mp hpath
    obtain ⟨rfl, rfl⟩ := List.cons.inj heq
    exact ⟨c, List.mk_mem_zipIdx_iff_getElem?.mp hc, hrest⟩
  · rintro ⟨c, hc, hpath⟩
    exact ⟨(c, i), List.mk_mem_zipIdx_iff_getElem?.mpr hc, List.mem_map_of_mem hpath⟩

/-- **The paths listed are those that lead somewhere.** -/
theorem mem_paths {e : Expression} {path : List Nat} : path ∈ e.paths ↔ (e.at? path).isSome := by
  induction path generalizing e with
  | nil =>
    rw [paths_eq_cons]
    exact iff_of_true (List.mem_cons_self ..) rfl
  | cons i path ih =>
    rw [mem_paths_cons, at?_cons]
    cases e.children[i]? with
    | none => exact iff_of_false nofun nofun
    | some c => simp [ih]

/-! ## The order of the paths -/

/-- Numbers in a row increase. -/
theorem zipIdx_increasing {α : Type} (l : List α) : l.zipIdx.Pairwise fun x y => x.2 < y.2 := by
  rw [← List.pairwise_map, List.zipIdx_map_snd]
  exact List.pairwise_lt_range' 1

/-- **The paths are listed in lexicographic order**, each before those that go on from it. -/
theorem paths_increasing (e : Expression) : e.paths.Pairwise (List.Lex (· < ·)) := by
  induction e using childInduction with
  | step e ih =>
    rw [paths_eq_cons]
    refine List.Pairwise.cons (fun path hpath => ?_) (List.pairwise_flatMap.mpr ⟨?_, ?_⟩)
    · -- any path goes on from the empty one
      obtain ⟨x, -, hpath⟩ := List.mem_flatMap.mp hpath
      obtain ⟨rest, -, rfl⟩ := List.mem_map.mp hpath
      exact .nil
    · rintro x hx
      rw [List.pairwise_map]
      exact (ih x.1 (List.fst_mem_of_mem_zipIdx hx)).imp .cons
    · -- through different children, the numbers of the children decide
      refine (zipIdx_increasing e.children).imp fun hlt path hpath path' hpath' => ?_
      obtain ⟨rest, -, rfl⟩ := List.mem_map.mp hpath
      obtain ⟨rest', -, rfl⟩ := List.mem_map.mp hpath'
      exact .rel hlt

/-- No path comes twice, as they come in increasing order. -/
theorem paths_nodup (e : Expression) : e.paths.Nodup := by
  refine e.paths_increasing.imp ?_
  intro path path' hlt heq
  rw [heq] at hlt
  exact List.lex_irrefl Nat.lt_irrefl path' hlt

/-! ## The walk along the paths -/

/-- **The walk visits what the paths lead to**, in their order. -/
theorem map_walk (e : Expression) : e.walk.map some = e.paths.map e.at? := by
  induction e using childInduction with
  | step e ih =>
    have hchildren : (e.children.flatMap walk).map some
        = (e.children.zipIdx.flatMap fun x => x.1.paths.map (x.2 :: ·)).map e.at? := by
      conv => lhs; rw [← List.zipIdx_map_fst 0 e.children]
      rw [List.flatMap_map, List.map_flatMap, List.map_flatMap]
      refine List.flatMap_congr fun x hx => ?_
      have hchild : e.children[x.2]? = some x.1 := List.mem_zipIdx_iff_getElem?.mp hx
      rw [ih x.1 (List.fst_mem_of_mem_zipIdx hx), List.map_map]
      refine List.map_congr_left fun path _ => ?_
      rw [Function.comp_apply, at?_cons, hchild, Option.bind_some]
    rw [walk_eq_cons, paths_eq_cons, List.map_cons, List.map_cons, hchildren, at?_nil]

example : (choice [sequence [ruleRef "a", any], optional (ruleRef "b")]).paths
    = [[], [0], [0, 0], [0, 1], [1], [1, 0]] := by
  decide

theorem mem_walk {e f : Expression} : f ∈ e.walk ↔ ∃ path, e.at? path = some f := by
  have hmem : f ∈ e.walk ↔ some f ∈ e.paths.map e.at? := by
    rw [← map_walk, List.mem_map]
    simp
  rw [hmem, List.mem_map]
  constructor
  · rintro ⟨path, -, hpath⟩
    exact ⟨path, hpath⟩
  · rintro ⟨path, hpath⟩
    refine ⟨path, mem_paths.mpr ?_, hpath⟩
    rw [hpath]
    rfl

/-- **The references of an expression are those its paths lead to**, in their order. -/
theorem references_eq (e : Expression) :
    e.references = e.paths.filterMap fun path => (e.at? path).bind reference? := by
  have hwalk : e.references = (e.walk.map some).filterMap fun f? => f?.bind reference? := by
    rw [List.filterMap_map]
    rfl
  rw [hwalk, map_walk, List.filterMap_map]
  rfl

theorem reference?_eq_some {e : Expression} {name : String} :
    e.reference? = some name ↔ e = ruleRef name := by
  cases e <;> simp [reference?]

/-- A name is referred to if a reference to it stands at some path. -/
theorem mem_references {e : Expression} {name : String} :
    name ∈ e.references ↔ ∃ path, e.at? path = some (ruleRef name) := by
  unfold references
  rw [List.mem_filterMap]
  constructor
  · rintro ⟨f, hf, hname⟩
    rw [reference?_eq_some] at hname
    rw [hname] at hf
    exact mem_walk.mp hf
  · intro hpath
    exact ⟨ruleRef name, mem_walk.mpr hpath, rfl⟩

end Expression

end Peg
