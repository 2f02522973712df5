import Peg.Json.Record
import Peg.Proofs.Json.Documents

/-!
# Reading a record from the object that was written for it

**`Shape.Fills`** follows the reader through the entries of an object: an entry nobody asks for is
passed over, any other gives its field a value that was missing. What the relation fixes is the
assignment at the end, and **`Fills.readEntries`** says that the reader finds it, unless a value
nests too deep. A record is then a matter of its fields one by one: **`Record.readDraft_object`**.
-/

namespace Peg.Json

namespace Shape

variable {S : Shape}

/-- Reading the entries takes the assignment `p` to the assignment `q`, where the values may nest
`room` containers. -/
inductive Fills (declared : List S.Field) (read : (f : S.Field) → Draft → Read (S.Value f))
    (room : Nat) : S.Partial → List (String × Json) → S.Partial → Prop
  | nil (p : S.Partial) : Fills declared read room p [] p
  /-- An entry under another key. It is not taken apart, so it had better be flat. -/
  | pass {p q : S.Partial} {key : String} {value : Json} {entries : List (String × Json)}
    (hkey : field? declared key = none) (hflat : value.depth = 0)
    (hrest : Fills declared read room p entries q) :
    Fills declared read room p ((key, value) :: entries) q
  /-- The entry of a field. -/
  | set {p q : S.Partial} {key : String} {value : Json} {entries : List (String × Json)}
    {f : S.Field} {a : S.Value f}
    (hkey : field? declared key = some f) (hnew : p f = none)
    (hread : read f value.draft = Read.nested value.depth room a)
    (hrest : Fills declared read room (p.set f a) entries q) :
    Fills declared read room p ((key, value) :: entries) q

variable {declared : List S.Field} {read : (f : S.Field) → Draft → Read (S.Value f)} {room : Nat}

/-- **The reader ends with the assignment the entries fill in.** -/
theorem Fills.readEntries {p q : S.Partial} {entries : List (String × Json)}
    (h : Fills declared read room p entries q) :
    Shape.readEntries declared read p (draftEntries entries)
      = Read.nested (depthEntries entries) room q := by
  induction h with
  | nil p => rfl
  | @pass p q key value entries hkey hflat hrest ih =>
    rw [draftEntries, Shape.readEntries, hkey, depthEntries, hflat, Nat.zero_max]
    show (Read.check value.draft.pass >>= fun _ => Shape.readEntries declared read p
      (draftEntries entries)) = _
    rw [pass_draft, ih]
    rfl
  | @set p q key value entries f a hkey hnew hread hrest ih =>
    rw [draftEntries, Shape.readEntries, hkey, depthEntries]
    simp only [hnew, Option.isSome_none, Bool.false_eq_true, if_false]
    rw [hread]
    -- What remains is read with the field filled in, if its value fits at all.
    show (Read.nested value.depth room a >>= fun a => Shape.readEntries declared read (p.set f a)
      (draftEntries entries)) = _
    exact Read.nested_bind ih

end Shape

namespace Record

variable {α : Type} {R : Record α} {room : Nat} {entries : List (String × Json)}

/-- **A record reads back from an object that fills in its fields.** -/
theorem readDraft_object {p : R.toShape.Partial} {a : α}
    (hfills : Shape.Fills R.fields (R.read (room - 1)) (room - 1) (Shape.Partial.empty R.toShape)
      entries p)
    (hbuild : R.build p = .ok a) :
    R.readDraft room (object entries).draft = Read.nested (object entries).depth room a := by
  cases room with
  | zero => simp [draft, readDraft, depth]
  | succ room =>
    rw [Nat.add_sub_cancel] at hfills
    rw [draft, readDraft, readObject, hfills.readEntries, depth, Read.nested_succ]
    have hfields : (Read.nested (depthEntries entries) room p >>= fun p => do
          Read.close ((none : Option Stop).map Stop.reading)
          return p)
        = Read.nested (depthEntries entries) room p :=
      Read.nested_then rfl
    rw [hfields]
    exact Read.nested_then hbuild

/-- **A record reads back from the text of its document**, if that has room for it. -/
theorem readText_render {j : Json} {layout : Layout} {a : α}
    (h : R.readDraft maxDepth j.draft = Read.nested j.depth maxDepth a)
    (hdepth : j.depth ≤ maxDepth) : R.readText (j.render layout) = .ok a := by
  rw [readText, Json.readText_render, h]
  exact Read.nested_of_le hdepth a

end Record

end Peg.Json
