import Peg.Json.Record

/-!
# Where values that were read come from

A reader that succeeds has taken every part of its value from a part of the draft, and from inside a
container only if there was room for one. Nothing is said here of the draft itself: whatever
the text looked like, keys in any order, entries passed over, fields by position, the value is made
of values that were read, each with the room that was left to it.

* **`Draft.depth_le_of_readList`**: what was read in some room fits that room, for lists.
* **`Partial.ReadBy`**: the fields assigned have been read. Entries and items keep it
  (**`ReadBy.readEntries`**, **`ReadBy.readItems`**).
* **`Record.exists_readBy_of_readDraft`**: so a record is built from fields that have been read.
-/

namespace Peg.Json

/-! ## Steps of reading -/

/-- Two steps succeed when the first does and the second does on its result. -/
theorem Read.bind_eq_ok {ε α β : Type} {x : Except ε α} {f : α → Except ε β} {b : β} :
    (x >>= f) = .ok b ↔ ∃ a, x = .ok a ∧ f a = .ok b := by
  cases x with
  | ok a =>
    constructor
    · intro h
      exact ⟨a, rfl, h⟩
    · rintro ⟨_, ⟨⟩, h⟩
      exact h
  | error e =>
    constructor
    · intro h
      cases h
    · rintro ⟨_, ha, -⟩
      cases ha

theorem Draft.refuse_ne_ok {α : Type} (expected : Expected) (d : Draft) (a : α) :
    d.refuse expected ≠ .ok a := by
  intro h
  unfold Draft.refuse at h
  split at h
  · cases h
  · cases h

/-- Each of the values that were read in a row was read from something. -/
theorem exists_read_of_mapM {α : Type} {read : Draft → Read α} {items : List Draft} {as : List α}
    (h : items.mapM read = .ok as) : ∀ a ∈ as, ∃ d, read d = .ok a := by
  induction items generalizing as with
  | nil =>
    cases h
    exact List.forall_mem_nil _
  | cons item items ih =>
    rw [List.mapM_cons] at h
    obtain ⟨a, ha, h⟩ := Read.bind_eq_ok.mp h
    obtain ⟨rest, hrest, h⟩ := Read.bind_eq_ok.mp h
    cases h
    exact List.forall_mem_cons.mpr ⟨⟨item, ha⟩, ih hrest⟩

/-- An array takes a place of its own, and its items are read inside. -/
theorem Draft.exists_read_of_readList {α : Type} {read : Draft → Read α} {room : Nat} {d : Draft}
    {as : List α} (h : Draft.readList read room d = .ok as) :
    0 < room ∧ ∀ a ∈ as, ∃ d, read d = .ok a := by
  unfold Draft.readList at h
  split at h
  · cases h
  · obtain ⟨values, hvalues, h⟩ := Read.bind_eq_ok.mp h
    obtain ⟨_, -, h⟩ := Read.bind_eq_ok.mp h
    cases h
    exact ⟨Nat.succ_pos _, exists_read_of_mapM hvalues⟩
  · exact absurd h (Draft.refuse_ne_ok _ _ _)

/-- **A list that was read fits the room it was read in**, if what was read inside fits the room
there. -/
theorem Draft.depth_le_of_readList {α : Type} {read : Draft → Read α} {toJson : α → Json}
    {room : Nat} {d : Draft} {as : List α}
    (hread : ∀ d a, read d = .ok a → (toJson a).depth ≤ room - 1)
    (h : Draft.readList read room d = .ok as) :
    (Json.array (as.map toJson)).depth ≤ room := by
  obtain ⟨hpos, hall⟩ := Draft.exists_read_of_readList h
  have hitems : depthItems (as.map toJson) ≤ room - 1 := by
    rw [depthItems_le_iff, List.forall_mem_map]
    intro a ha
    obtain ⟨d, hd⟩ := hall a ha
    exact hread d a hd
  rw [depth]
  omega

/-- What was read from a text was read from its draft. -/
theorem exists_read_of_readText {α : Type} {read : Nat → Draft → Read α} {text : String} {a : α}
    (h : readText read text = .ok a) : ∃ d, read maxDepth d = .ok a := by
  unfold readText at h
  generalize scan text.toList = found at h
  obtain ⟨value, hvalue, h⟩ := Read.bind_eq_ok.mp h
  split at h
  · cases h
    exact ⟨_, hvalue⟩
  · cases h

/-! ## Fields -/

namespace Shape

variable {S : Shape} {read : (f : S.Field) → Draft → Read (S.Value f)}

/-- Every value assigned has been read from some draft. -/
def Partial.ReadBy (read : (f : S.Field) → Draft → Read (S.Value f)) (p : S.Partial) : Prop :=
  ∀ f value, p f = some value → ∃ d, read f d = .ok value

/-- A field that is required is one that has been assigned. -/
@[simp] theorem Partial.require_eq_ok {p : S.Partial} {f : S.Field} {value : S.Value f} :
    p.require f = .ok value ↔ p f = some value := by
  unfold Partial.require
  cases p f with
  | none => exact iff_of_false nofun nofun
  | some a =>
    constructor
    · rintro ⟨⟩
      rfl
    · rintro ⟨⟩
      rfl

theorem Partial.readBy_empty : (Partial.empty S).ReadBy read := by
  intro f value h
  cases h

/-- A value that was read may be assigned. -/
theorem Partial.ReadBy.set {p : S.Partial} (hp : p.ReadBy read) {f : S.Field} {d : Draft}
    {value : S.Value f} (h : read f d = .ok value) : (p.set f value).ReadBy read := by
  intro g a hg
  unfold Partial.set at hg
  split at hg
  · next heq =>
    subst heq
    cases hg
    exact ⟨d, h⟩
  · exact hp g a hg

/-- Entries assign only what they have read. Those that are no fields assign nothing. -/
theorem Partial.ReadBy.readEntries {declared : List S.Field} {p q : S.Partial}
    {entries : List (Option String × Draft)} (hp : p.ReadBy read)
    (h : Shape.readEntries declared read p entries = .ok q) : q.ReadBy read := by
  induction entries generalizing p with
  | nil =>
    cases h
    exact hp
  | cons entry entries ih =>
    obtain ⟨key, d⟩ := entry
    cases key with
    | none => cases h
    | some key =>
      rw [Shape.readEntries] at h
      split at h
      · -- nobody asks for the entry: it is passed over, and the assignment stays
        obtain ⟨_, -, h⟩ := Read.bind_eq_ok.mp h
        exact ih hp h
      · -- the field is read, unless it has a value already
        split at h
        · cases h
        · obtain ⟨value, hvalue, h⟩ := Read.bind_eq_ok.mp h
          exact ih (hp.set hvalue) h

/-- Items assign only what they have read, each to the next field. -/
theorem Partial.ReadBy.readItems {p q : S.Partial} {fields left : List S.Field}
    {items rest : List Draft} (hp : p.ReadBy read)
    (h : Shape.readItems read p fields items = .ok (q, left, rest)) : q.ReadBy read := by
  induction items generalizing p fields with
  | nil =>
    cases fields <;> cases h <;> exact hp
  | cons item items ih =>
    cases fields with
    | nil =>
      cases h
      exact hp
    | cons f fields =>
      rw [Shape.readItems] at h
      obtain ⟨value, hvalue, h⟩ := Read.bind_eq_ok.mp h
      exact ih (hp.set hvalue) h

end Shape

/-! ## Records -/

namespace Record

variable {α : Type} {R : Record α}

/-- **A record is built from fields read inside it**, and takes a place for itself. -/
theorem exists_readBy_of_readDraft {room : Nat} {d : Draft} {a : α}
    (h : R.readDraft room d = .ok a) :
    ∃ inside p, room = inside + 1 ∧ p.ReadBy (R.read inside) ∧ R.build p = .ok a := by
  unfold readDraft at h
  split at h
  · cases h
  · cases h
  · next inside entries stop =>
    obtain ⟨p, hp, h⟩ := Read.bind_eq_ok.mp h
    unfold readObject at hp
    obtain ⟨q, hq, hp⟩ := Read.bind_eq_ok.mp hp
    obtain ⟨_, -, hp⟩ := Read.bind_eq_ok.mp hp
    cases hp
    exact ⟨inside, p, rfl, Shape.Partial.readBy_empty.readEntries hq, h⟩
  · next inside items stop =>
    obtain ⟨p, hp, h⟩ := Read.bind_eq_ok.mp h
    unfold readArray at hp
    obtain ⟨⟨q, left, rest⟩, hq, hp⟩ := Read.bind_eq_ok.mp hp
    have hread := Shape.Partial.readBy_empty.readItems hq
    dsimp only at hp
    split at hp
    · obtain ⟨_, -, hp⟩ := Read.bind_eq_ok.mp hp
      split at hp
      · cases hp
        exact ⟨inside, p, rfl, hread, h⟩
      · cases hp
    · cases hp
  · exact absurd h (Draft.refuse_ne_ok _ _ _)

end Record

end Peg.Json
