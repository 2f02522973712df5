import Mathlib.Data.List.Forall2
import Peg.Proofs.Json.Fitting

/-!
# Objects in another order

The entries of an object can stand in any order, and there can be entries nobody asks for. A reader
goes through them one by one, and how far it has got is all it carries from one to the next. So
reading is a run of steps, and it is enough to look at one step and at two: an entry nobody asks for
leaves the state as it is, and two entries that can be read one after the other can be read the
other way round. **`RearrangedEntries.foldlM`** is what follows for whole objects.

**`Respects`** says it of a reader: what it reads from one document it also reads from another one
that is related to it. The readers of lists, options and records respect a relation if the readers
of their parts do (**`respects_readList`**, **`respects_readOption`**,
**`Record.respects_readDraft`**).
-/

namespace Peg.Json

/-! ## Steps in any order -/

section Steps

variable {σ α : Type} {step : σ → α → Read σ} {s t : σ}

theorem Read.foldlM_cons_eq_ok {a : α} {as : List α} :
    (a :: as).foldlM step s = .ok t ↔ ∃ u, step s a = .ok u ∧ as.foldlM step u = .ok t := by
  rw [List.foldlM_cons]
  exact Read.bind_eq_ok

/-- **Steps of which any two can change places may be taken in any order.** -/
theorem Read.foldlM_perm
    (hswap : ∀ s a b u t, step s a = .ok u → step u b = .ok t →
      ∃ u', step s b = .ok u' ∧ step u' a = .ok t)
    {as bs : List α} (hperm : as.Perm bs) (h : as.foldlM step s = .ok t) :
    bs.foldlM step s = .ok t := by
  induction hperm generalizing s t with
  | nil => exact h
  | cons a _ ih =>
    obtain ⟨u, ha, h⟩ := Read.foldlM_cons_eq_ok.mp h
    exact Read.foldlM_cons_eq_ok.mpr ⟨u, ha, ih h⟩
  | swap a b as =>
    obtain ⟨u, hb, h⟩ := Read.foldlM_cons_eq_ok.mp h
    obtain ⟨v, ha, h⟩ := Read.foldlM_cons_eq_ok.mp h
    obtain ⟨u', ha', hb'⟩ := hswap s b a u v hb ha
    have hrest : (b :: as).foldlM step u' = .ok t := Read.foldlM_cons_eq_ok.mpr ⟨v, hb', h⟩
    exact Read.foldlM_cons_eq_ok.mpr ⟨u', ha', hrest⟩
  | trans _ _ ih ih' => exact ih' (ih h)

/-- Steps that change nothing may be left out. -/
theorem Read.foldlM_skip {as : List α} (h : ∀ a ∈ as, step s a = .ok s) :
    as.foldlM step s = .ok s := by
  induction as with
  | nil => rfl
  | cons a as ih =>
    have hrest : as.foldlM step s = .ok s := ih fun b hb => h b (List.mem_cons_of_mem _ hb)
    exact Read.foldlM_cons_eq_ok.mpr ⟨s, h a (List.mem_cons_self ..), hrest⟩

/-- Steps may be exchanged for others that do the same, one by one. -/
theorem Read.foldlM_forall₂ {rel : α → α → Prop}
    (hstep : ∀ s t a b, rel a b → step s a = .ok t → step s b = .ok t)
    {as bs : List α} (hrel : List.Forall₂ rel as bs) (h : as.foldlM step s = .ok t) :
    bs.foldlM step s = .ok t := by
  induction hrel generalizing s with
  | nil => exact h
  | cons hab _ ih =>
    obtain ⟨u, ha, h⟩ := Read.foldlM_cons_eq_ok.mp h
    exact Read.foldlM_cons_eq_ok.mpr ⟨u, hstep _ _ _ _ hab ha, ih h⟩

end Steps

/-! ## Rearranged entries -/

/-- The entries of one object and of another that differs from it in this way: the value under a
key has been changed as `alike` says for that key, `extra` entries have been added, and all of them
have been put in any order. -/
inductive RearrangedEntries (alike : String → Json → Json → Prop) (extra : String → Json → Prop)
    (entries : List (String × Json)) : List (String × Json) → Prop
  | intro (added changed : List (String × Json)) {entries' : List (String × Json)}
      (hadded : ∀ e ∈ added, extra e.1 e.2)
      (hchanged : List.Forall₂ (fun e e' => e.1 = e'.1 ∧ alike e.1 e.2 e'.2) entries changed)
      (hperm : (added ++ changed).Perm entries') :
      RearrangedEntries alike extra entries entries'

namespace RearrangedEntries

variable {alike : String → Json → Json → Prop} {extra : String → Json → Prop}
  {entries entries' : List (String × Json)}

/-- **Going through rearranged entries comes to the same state.** -/
theorem foldlM {σ : Type} {step : σ → String × Json → Read σ} {s t : σ}
    (h : RearrangedEntries alike extra entries entries')
    (hswap : ∀ s a b u t, step s a = .ok u → step u b = .ok t →
      ∃ u', step s b = .ok u' ∧ step u' a = .ok t)
    (hskip : ∀ s key value, extra key value → step s (key, value) = .ok s)
    (hchange : ∀ s t key value value', alike key value value' →
      step s (key, value) = .ok t → step s (key, value') = .ok t)
    (hread : entries.foldlM step s = .ok t) : entries'.foldlM step s = .ok t := by
  obtain ⟨added, changed, hadded, hchanged, hperm⟩ := h
  have hold : changed.foldlM step s = .ok t := by
    refine Read.foldlM_forall₂ ?_ hchanged hread
    rintro s t ⟨key, value⟩ ⟨key', value'⟩ ⟨rfl, halike⟩ hstep
    exact hchange s t key value value' halike hstep
  have hnew : added.foldlM step s = .ok s :=
    Read.foldlM_skip fun e he => hskip s e.1 e.2 (hadded e he)
  apply Read.foldlM_perm hswap hperm
  rw [List.foldlM_append, hnew]
  exact hold

end RearrangedEntries

/-! ## Readers that do not see a difference -/

/-- What is read from one document is also read from any other one related to it. -/
def Respects {α : Type} (read : Draft → Read α) (rel : Json → Json → Prop) : Prop :=
  ∀ v v' a, rel v v' → read v.draft = .ok a → read v'.draft = .ok a

variable {α : Type} {read : Draft → Read α} {rel : Json → Json → Prop}

theorem respects_eq (read : Draft → Read α) : Respects read Eq := by
  rintro v v' a rfl h
  exact h

/-- Only `null` has the draft of `null`. -/
theorem draft_eq_null {v : Json} : v.draft = .null ↔ v = .null := by
  cases v <;> simp [draft]

/-- A value that may be left out is there on both sides or on neither. -/
theorem respects_readOption (hread : Respects read rel)
    (hnull : ∀ v v', rel v v' → (v = .null ↔ v' = .null)) :
    Respects (Draft.readOption read) rel := by
  intro v v' a hrel h
  unfold Draft.readOption at h ⊢
  split at h
  · next hv =>
    have hv' : v'.draft = .null := draft_eq_null.mpr ((hnull v v' hrel).mp (draft_eq_null.mp hv))
    rw [hv']
    exact h
  · next hv =>
    have hv' : v'.draft ≠ .null := fun hv' =>
      hv (draft_eq_null.mpr ((hnull v v' hrel).mpr (draft_eq_null.mp hv')))
    obtain ⟨b, hb, h⟩ := Read.bind_eq_ok.mp ((map_eq_pure_bind some (read v.draft)).symm.trans h)
    split
    · next hlater => exact absurd hlater hv'
    · rw [hread v v' b hrel hb]
      exact h

/-- Arrays whose items are related one by one. -/
inductive RearrangedList (rel : Json → Json → Prop) : Json → Json → Prop
  | same (v : Json) : RearrangedList rel v v
  | array {items items' : List Json} (h : List.Forall₂ rel items items') :
      RearrangedList rel (array items) (array items')

theorem mapM_draftItems_forall₂ (hread : Respects read rel) {items items' : List Json}
    {as : List α} (h : List.Forall₂ rel items items')
    (hitems : (draftItems items).mapM read = .ok as) : (draftItems items').mapM read = .ok as := by
  induction h generalizing as with
  | nil => exact hitems
  | cons hrel _ ih =>
    rw [draftItems, List.mapM_cons] at hitems ⊢
    obtain ⟨a, ha, hitems⟩ := Read.bind_eq_ok.mp hitems
    obtain ⟨rest, hrest, hitems⟩ := Read.bind_eq_ok.mp hitems
    rw [hread _ _ a hrel ha, ih hrest]
    exact hitems

/-- The reader of a list sees no difference if that of its items sees none. -/
theorem respects_readList (hread : Respects read rel) (room : Nat) :
    Respects (Draft.readList read room) (RearrangedList rel) := by
  intro v v' as hrel h
  cases hrel with
  | same => exact h
  | array hitems =>
    cases room with
    | zero => cases h
    | succ room =>
      obtain ⟨values, hvalues, h⟩ := Read.bind_eq_ok.mp h
      rw [draft, Draft.readList, mapM_draftItems_forall₂ hread hitems hvalues]
      exact h

/-! ## Changes that take no room -/

/-- A change by which a document that fits still fits. -/
def KeepsFit (room : Nat) (rel : Json → Json → Prop) : Prop :=
  ∀ v v', rel v v' → Fits room v → Fits room v'

variable {room : Nat}

theorem keepsFit_eq (room : Nat) : KeepsFit room Eq := by
  rintro v v' rfl h
  exact h

theorem KeepsFit.forall_mem {α : Type} {value : α → Json} {rel : α → α → Prop}
    (h : ∀ a b, rel a b → Fits room (value a) → Fits room (value b)) {as bs : List α}
    (hrel : List.Forall₂ rel as bs) (hfits : ∀ a ∈ as, Fits room (value a)) :
    ∀ b ∈ bs, Fits room (value b) := by
  induction hrel with
  | nil => exact List.forall_mem_nil _
  | cons hab _ ih =>
    obtain ⟨hfirst, hrest⟩ := List.forall_mem_cons.mp hfits
    exact List.forall_mem_cons.mpr ⟨h _ _ hab hfirst, ih hrest⟩

/-- A list fits if it did before, when its items are changed one by one. -/
theorem KeepsFit.list (h : KeepsFit room rel) : KeepsFit (room + 1) (RearrangedList rel) := by
  intro v v' hrel hfits
  cases hrel with
  | same => exact hfits
  | array hitems =>
    rw [fits_array] at hfits ⊢
    exact KeepsFit.forall_mem h hitems hfits

/-- Entries that are moved, changed or added fit as those did that were there before. -/
theorem RearrangedEntries.fits {alike : String → Json → Json → Prop}
    {extra : String → Json → Prop} {entries entries' : List (String × Json)}
    (h : RearrangedEntries alike extra entries entries')
    (hextra : ∀ key value, extra key value → Fits room value)
    (halike : ∀ key, KeepsFit room (alike key)) (hfits : ∀ e ∈ entries, Fits room e.2) :
    ∀ e ∈ entries', Fits room e.2 := by
  obtain ⟨added, changed, hadded, hchanged, hperm⟩ := h
  have hold := KeepsFit.forall_mem (fun e e' hee' => halike e.1 e.2 e'.2 hee'.2) hchanged hfits
  intro e he
  rcases List.mem_append.mp (hperm.mem_iff.mpr he) with hmem | hmem
  · exact hextra e.1 e.2 (hadded e hmem)
  · exact hold e hmem

/-! ## Fields by their keys -/

namespace Shape

variable {S : Shape}

@[simp] theorem Partial.set_of_ne (p : S.Partial) {f g : S.Field} (h : f ≠ g) (a : S.Value f) :
    p.set f a g = p g :=
  dif_neg h

@[simp] theorem Partial.set_self (p : S.Partial) (f : S.Field) (a : S.Value f) :
    p.set f a f = some a :=
  dif_pos rfl

/-- Two fields may be assigned in either order. -/
theorem Partial.set_comm (p : S.Partial) {f g : S.Field} (h : f ≠ g) (a : S.Value f)
    (b : S.Value g) : (p.set f a).set g b = (p.set g b).set f a := by
  funext k
  by_cases hf : f = k
  · subst hf
    simp [h.symm]
  · by_cases hg : g = k
    · subst hg
      simp [h]
    · simp [hf, hg]

variable {declared : List S.Field} {read : (f : S.Field) → Draft → Read (S.Value f)}
  {p q : S.Partial}

/-- Fills in one entry of a document. -/
def takeEntry (declared : List S.Field) (read : (f : S.Field) → Draft → Read (S.Value f))
    (p : S.Partial) (entry : String × Json) : Read S.Partial :=
  match field? declared entry.1 with
  | none => .ok p
  | some f =>
    if (p f).isSome then Read.mismatch (.duplicateField entry.1)
    else do return p.set f (← read f entry.2.draft)

theorem readEntries_draftEntries (p : S.Partial) (entries : List (String × Json)) :
    readEntries declared read p (draftEntries entries)
      = entries.foldlM (takeEntry declared read) p := by
  induction entries generalizing p with
  | nil => rfl
  | cons entry entries ih =>
    obtain ⟨key, value⟩ := entry
    rw [draftEntries, readEntries, List.foldlM_cons, takeEntry]
    cases field? declared key with
    | none =>
      show (Read.check value.draft.pass >>= fun _ =>
        readEntries declared read p (draftEntries entries)) = _
      rw [pass_draft, ih]
      rfl
    | some f =>
      by_cases hnew : (p f).isSome = true
      · simp only [hnew, if_true]
        rfl
      · simp only [hnew, Bool.false_eq_true, if_false]
        show (read f value.draft >>= fun a =>
          readEntries declared read (p.set f a) (draftEntries entries)) = _
        simp only [ih, bind_assoc, pure_bind]

/-- **What one entry does**: it is passed over, or it gives its field a value that was missing. -/
theorem takeEntry_eq_ok {entry : String × Json} :
    takeEntry declared read p entry = .ok q ↔
      (field? declared entry.1 = none ∧ q = p) ∨
        ∃ f a, field? declared entry.1 = some f ∧ p f = none ∧
          read f entry.2.draft = .ok a ∧ q = p.set f a := by
  unfold takeEntry
  cases hfield : field? declared entry.1 with
  | none => simp [eq_comm]
  | some f =>
    cases hp : p f with
    | some b => simp [hp, Read.mismatch]
    | none =>
      simp only [hp, Option.isSome_none, Bool.false_eq_true, if_false, Read.bind_eq_ok]
      constructor
      · rintro ⟨a, ha, ⟨⟩⟩
        exact .inr ⟨f, a, rfl, hp, ha, rfl⟩
      · rintro (⟨⟨⟩, -⟩ | ⟨_, a, ⟨⟩, -, ha, rfl⟩)
        exact ⟨a, ha, rfl⟩

/-- Two entries that are read one after the other are of different fields, if both are of any. -/
theorem takeEntry_swap (p : S.Partial) (e e' : String × Json) (q r : S.Partial)
    (h : takeEntry declared read p e = .ok q) (h' : takeEntry declared read q e' = .ok r) :
    ∃ q', takeEntry declared read p e' = .ok q' ∧ takeEntry declared read q' e = .ok r := by
  rcases takeEntry_eq_ok.mp h with ⟨hkey, rfl⟩ | ⟨f, a, hkey, hnew, ha, rfl⟩
  · exact ⟨r, h', takeEntry_eq_ok.mpr (.inl ⟨hkey, rfl⟩)⟩
  · rcases takeEntry_eq_ok.mp h' with ⟨hkey', rfl⟩ | ⟨g, b, hkey', hnew', hb, rfl⟩
    · exact ⟨p, takeEntry_eq_ok.mpr (.inl ⟨hkey', rfl⟩), h⟩
    · have hne : f ≠ g := by
        rintro rfl
        simp at hnew'
      rw [Partial.set_of_ne p hne] at hnew'
      refine ⟨p.set g b, takeEntry_eq_ok.mpr (.inr ⟨g, b, hkey', hnew', hb, rfl⟩), ?_⟩
      have hmissing : p.set g b f = none := by simp [hne.symm, hnew]
      exact takeEntry_eq_ok.mpr (.inr ⟨f, a, hkey, hmissing, ha, Partial.set_comm p hne a b⟩)

/-- How the value under a key may be changed, if `rel` says it for the fields. What stands under
another key stays. -/
def keyed (declared : List S.Field) (rel : S.Field → Json → Json → Prop) (key : String) :
    Json → Json → Prop :=
  match field? declared key with
  | some f => rel f
  | none => Eq

variable {rel : S.Field → Json → Json → Prop}

/-- **The entries of an object fill in the same fields in any order**, whatever stands between
them under other keys. -/
theorem readEntries_rearranged (hread : ∀ f, Respects (read f) (rel f))
    {extra : String → Json → Prop}
    (hextra : ∀ key value, extra key value → field? declared key = none)
    {entries entries' : List (String × Json)}
    (h : RearrangedEntries (keyed declared rel) extra entries entries')
    (hentries : readEntries declared read p (draftEntries entries) = .ok q) :
    readEntries declared read p (draftEntries entries') = .ok q := by
  rw [readEntries_draftEntries] at hentries ⊢
  refine h.foldlM takeEntry_swap ?_ ?_ hentries
  · intro p key value hkey
    exact takeEntry_eq_ok.mpr (.inl ⟨hextra key value hkey, rfl⟩)
  · intro p q key value value' halike hstep
    unfold keyed at halike
    rcases takeEntry_eq_ok.mp hstep with ⟨hkey, rfl⟩ | ⟨f, a, hkey, hnew, ha, rfl⟩
    · exact takeEntry_eq_ok.mpr (.inl ⟨hkey, rfl⟩)
    · dsimp only at hkey ha
      rw [hkey] at halike
      exact takeEntry_eq_ok.mpr (.inr ⟨f, a, hkey, hnew, hread f value value' a halike ha, rfl⟩)

/-- The value under a key fits after a change, be it a field or not. -/
theorem keepsFit_keyed {room : Nat} (h : ∀ f, KeepsFit room (rel f)) (key : String) :
    KeepsFit room (keyed declared rel key) := by
  unfold keyed
  cases field? declared key with
  | some f => exact h f
  | none => exact keepsFit_eq room

/-! ## Fields by their places -/

/-- The items of one array and of another, each changed as `rel` says for the field in its place. -/
inductive RearrangedItems (rel : S.Field → Json → Json → Prop) :
    List S.Field → List Json → List Json → Prop
  | nil (fields : List S.Field) : RearrangedItems rel fields [] []
  | cons {f : S.Field} {fields : List S.Field} {item item' : Json} {items items' : List Json}
      (hitem : rel f item item') (hitems : RearrangedItems rel fields items items') :
      RearrangedItems rel (f :: fields) (item :: items) (item' :: items')

/-- Fields by position are read alike if each item is. -/
theorem readItems_rearranged (hread : ∀ f, Respects (read f) (rel f)) {fields : List S.Field}
    {items items' : List Json} (h : RearrangedItems rel fields items items')
    {result : S.Partial × List S.Field × List Draft}
    (hitems : readItems read p fields (draftItems items) = .ok result) :
    readItems read p fields (draftItems items') = .ok result := by
  induction h generalizing p with
  | nil fields => exact hitems
  | cons hitem _ ih =>
    rw [draftItems, readItems] at hitems ⊢
    obtain ⟨a, ha, hitems⟩ := Read.bind_eq_ok.mp hitems
    rw [hread _ _ _ a hitem ha]
    exact ih hitems

/-- Items changed one by one fit if they did before. -/
theorem RearrangedItems.fits {room : Nat} (hrel : ∀ f, KeepsFit room (rel f))
    {fields : List S.Field} {items items' : List Json} (h : RearrangedItems rel fields items items')
    (hfits : ∀ item ∈ items, Fits room item) : ∀ item ∈ items', Fits room item := by
  induction h with
  | nil fields => exact List.forall_mem_nil _
  | cons hitem _ ih =>
    obtain ⟨hfirst, hrest⟩ := List.forall_mem_cons.mp hfits
    exact List.forall_mem_cons.mpr ⟨hrel _ _ _ hitem hfirst, ih hrest⟩

theorem RearrangedItems.length_eq {fields : List S.Field} {items items' : List Json}
    (h : RearrangedItems rel fields items items') :
    (draftItems items).length = (draftItems items').length := by
  induction h with
  | nil fields => rfl
  | cons _ _ ih => rw [draftItems, draftItems, List.length_cons, List.length_cons, ih]

end Shape

/-! ## Records -/

namespace Record

variable {R : Record α}

/-- A record in two documents. As an object it may have its entries in another order and entries
that are nobody's field; as an array it has its fields in their places. -/
inductive Rearranged (R : Record α) (rel : R.Field → Json → Json → Prop) : Json → Json → Prop
  | same (v : Json) : Rearranged R rel v v
  | object {entries entries' : List (String × Json)}
      (h : RearrangedEntries (Shape.keyed R.fields rel)
        (fun key _ => Shape.field? R.fields key = none) entries entries') :
      Rearranged R rel (object entries) (object entries')
  | array {items items' : List Json} (h : Shape.RearrangedItems rel R.fields items items') :
      Rearranged R rel (array items) (array items')

/-- A record is not mistaken for `null`, nor the other way. -/
theorem Rearranged.eq_null_iff {rel : R.Field → Json → Json → Prop} {v v' : Json}
    (h : R.Rearranged rel v v') : v = .null ↔ v' = .null := by
  cases h with
  | same => exact Iff.rfl
  | object h => exact iff_of_false nofun nofun
  | array h => exact iff_of_false nofun nofun

/-- **A record is read alike from rearranged documents**, if its fields are. -/
theorem respects_readDraft {room : Nat} {rel : R.Field → Json → Json → Prop}
    (hread : ∀ f, Respects (R.read (room - 1) f) (rel f)) :
    Respects (R.readDraft room) (R.Rearranged rel) := by
  intro v v' a hrel h
  cases room with
  | zero =>
    cases hrel with
    | same => exact h
    | object _ => cases h
    | array _ => cases h
  | succ room =>
    rw [Nat.add_sub_cancel] at hread
    cases hrel with
    | same => exact h
    | object hentries =>
      obtain ⟨p, hp, hbuild⟩ := Read.bind_eq_ok.mp h
      obtain ⟨q, hq, hp⟩ := Read.bind_eq_ok.mp hp
      have hq' := Shape.readEntries_rearranged hread (fun _ _ hkey => hkey) hentries hq
      rw [draft, readDraft, readObject, hq']
      exact Read.bind_eq_ok.mpr ⟨p, hp, hbuild⟩
    | array hitems =>
      obtain ⟨p, hp, hbuild⟩ := Read.bind_eq_ok.mp h
      obtain ⟨result, hresult, hp⟩ := Read.bind_eq_ok.mp hp
      have hresult' := Shape.readItems_rearranged hread hitems hresult
      rw [draft, readDraft, readArray, hresult', ← hitems.length_eq]
      exact Read.bind_eq_ok.mpr ⟨p, hp, hbuild⟩

end Record

/-! ## Texts -/

/-- The text says the document and nothing else. -/
def Holds (text : String) (v : Json) : Prop :=
  ∃ rest, scan text.toList = (v.draft, rest) ∧ skipSpace rest = []

theorem holds_render (v : Json) (layout : Layout) : Holds (v.render layout) v :=
  ⟨[], scan_render layout v, rfl⟩

end Peg.Json
