import Peg.Contract.Document
import Peg.Diff.Document
import Peg.Proofs.Json.Origins
import Peg.Proofs.Json.Records

/-!
# Diffs and violations read back from their texts

What a pass reports, a diff or a violated contract, is written as a flat document: a diff nests
three containers however many changes it has (**`depth_toJson_le`**), a violation one. So there is
always room for it, and since a path or a message is written as one string, whatever is in it, the
text holds the report and no other: **`ofText_render`**.
-/

namespace Peg

open Json

/-! ## Violations -/

namespace Violation

/-- A violation is read back where there is room for one object. -/
theorem readDraft_toJson (v : Violation) (room : Nat) :
    record.readDraft room v.toJson.draft = Read.nested v.toJson.depth room v :=
  Record.readDraft_object
    (.set (f := Field.message) rfl rfl (readString_draft v.message _) (.nil _)) rfl

theorem ofText_render (v : Violation) : ofText v.render = .ok v := by
  have hdepth : v.toJson.depth = 1 := rfl
  apply Record.readText_render (v.readDraft_toJson maxDepth)
  rw [hdepth]
  decide

end Violation

/-! ## Changes -/

namespace Change

@[simp] theorem Kind.ofName_name (kind : Kind) : Kind.ofName kind.name = .ok kind := by
  cases kind <;> rfl

/-- A kind is written as a string, which is one of the forms it can be read from. -/
theorem Kind.readName_draft (kind : Kind) (room : Nat) :
    Draft.readName Kind.ofName room (string kind.name).draft
      = Read.nested (string kind.name).depth room kind := by
  have hname : Draft.readName Kind.ofName room (string kind.name).draft
      = Kind.ofName kind.name := by
    cases room <;> rfl
  simp [hname, depth, Read.nested]

/-- A change is read back where there is room for one object. -/
theorem readDraft_toJson (c : Change) (room : Nat) :
    record.readDraft room c.toJson.draft = Read.nested c.toJson.depth room c :=
  Record.readDraft_object
    (.set (f := Field.path) rfl rfl (readString_draft c.path _)
      (.set (f := Field.kind) rfl rfl (c.kind.readName_draft _) (.nil _))) rfl

end Change

/-! ## Diffs -/

namespace Diff

/-- A diff is read back where there is room for what it nests. -/
theorem readDraft_toJson (d : Diff) (room : Nat) :
    record.readDraft room d.toJson.draft = Read.nested d.toJson.depth room d := by
  have hchanges : Draft.readList (Change.record.readDraft (room - 1 - 1)) (room - 1)
        (array (d.changes.map Change.toJson)).draft
      = Read.nested (array (d.changes.map Change.toJson)).depth (room - 1) d.changes :=
    readList_draft fun c _ => c.readDraft_toJson (room - 1 - 1)
  -- a change is read inside the array, which is inside the object of the diff
  exact Record.readDraft_object (.set (f := Field.changes) rfl rfl hchanges (.nil _)) rfl

/-- The object of the diff, the array of its changes, and the object of each of them. -/
theorem depth_toJson_le (d : Diff) : d.toJson.depth ≤ 3 := by
  have hchanges : depthItems (d.changes.map Change.toJson) ≤ 1 := by
    rw [depthItems_le_iff, List.forall_mem_map]
    exact fun _ _ => Nat.le_refl 1
  simp only [toJson, depth, depthEntries]
  omega

/-- What a diff nests is well within the limit, so it is always read back. -/
theorem ofText_render (d : Diff) : ofText d.render = .ok d := by
  apply Record.readText_render (d.readDraft_toJson maxDepth)
  exact Nat.le_trans d.depth_toJson_le (by decide)

/-- **Diffs and violations survive their texts.** A diff with any changes, whatever the paths hold
and whether or not two grammars have it, reads back as it was; so it is as empty and as long as
before, and touches the same rules. A violation reads back with its message. -/
theorem reports_read_back (d : Diff) (v : Violation) :
    (ofText d.render = .ok d ∧
        (ofText d.render).map isEmpty = .ok d.isEmpty ∧
        (ofText d.render).map length = .ok d.length ∧
        (ofText d.render).map touched = .ok d.touched) ∧
      Violation.ofText v.render = .ok v := by
  refine ⟨?_, v.ofText_render⟩
  rw [ofText_render]
  exact ⟨rfl, rfl, rfl, rfl⟩

end Diff

end Peg
