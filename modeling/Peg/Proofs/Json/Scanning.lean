import Peg.Proofs.Json.Fuel
import Peg.Proofs.Json.Tokens

/-!
# Scanning a document that is written

**`scan_render`**: the scanner takes back, as a draft with nothing missing, any document the printer
writes, in either layout. The printer runs on levels of indentation, so the statement that goes
through the induction (**`ScansBack`**) is about any level, and about any text behind the document
that cannot continue a number. It says nothing of fuel: inside a container there is less of it than
`scan` has, but enough for what is left of the text.

**`readText_render`** is what the readers need: reading the text of a document is reading its draft.
-/

namespace Peg.Json

/-! ## Induction over documents -/

/-- What holds of scalars, of an array when it holds of its items, and of an object when it holds of
its values, holds of all documents. -/
@[elab_as_elim]
theorem memberInduction {motive : Json → Prop} (null : motive .null) (bool : ∀ b, motive (.bool b))
    (number : ∀ n, motive (.number n)) (string : ∀ s, motive (.string s))
    (array : ∀ items, (∀ item ∈ items, motive item) → motive (.array items))
    (object : ∀ entries, (∀ entry ∈ entries, motive entry.2) → motive (.object entries)) :
    ∀ j, motive j
  | .null => null
  | .bool b => bool b
  | .number n => number n
  | .string s => string s
  | .array items => array items fun item _ =>
    memberInduction null bool number string array object item
  | .object entries => object entries fun entry _ =>
    memberInduction null bool number string array object entry.2
termination_by j => sizeOf j
decreasing_by
  · next hmem =>
    have := List.sizeOf_lt_of_mem hmem
    simp only [Json.array.sizeOf_spec]
    omega
  · next hmem =>
    have := List.sizeOf_lt_of_mem hmem
    obtain ⟨key, value⟩ := entry
    simp only [Json.object.sizeOf_spec, Prod.mk.sizeOf_spec] at *
    omega

/-! ## What stands around a value -/

theorem isSpace_of_mem_newline {layout : Layout} {level : Nat} :
    ∀ c ∈ layout.newline level, isSpace c = true := by
  intro c hc
  cases layout with
  | compact => cases hc
  | pretty =>
    rcases List.mem_cons.mp hc with rfl | hmem
    · rfl
    · rw [List.eq_of_mem_replicate hmem]
      rfl

/-- The colon comes first, and white space may come behind it. -/
theorem colon_eq (layout : Layout) :
    ∃ ws, layout.colon = ':' :: ws ∧ ∀ c ∈ ws, isSpace c = true := by
  cases layout with
  | compact => exact ⟨[], rfl, by simp⟩
  | pretty => exact ⟨[' '], rfl, List.forall_mem_singleton.mpr rfl⟩

/-- Neither a comma nor a line break nor a bracket continues a number. -/
theorem ends_cons {c : Char} (h : c.isDigit = false ∧ c ≠ '.' ∧ c ≠ 'e' ∧ c ≠ 'E')
    (rest : List Char) : Ends (c :: rest) := by
  intro d hd
  cases hd
  exact h

/-- A value ends at a line break, and in compact layout at what comes next. -/
theorem ends_newline {layout : Layout} {level : Nat} {rest : List Char} (h : Ends rest) :
    Ends (layout.newline level ++ rest) := by
  cases layout with
  | compact => exact h
  | pretty => exact ends_cons (by decide) _

theorem skipSpace_newline (layout : Layout) (level : Nat) {c : Char} (h : isSpace c = false)
    (cs : List Char) : skipSpace (layout.newline level ++ c :: cs) = c :: cs := by
  rw [skipSpace_append isSpace_of_mem_newline, skipSpace_cons_of_not_space h]

/-- White space in front of a value is passed over. -/
theorem scanValue_append {ws : List Char} (h : ∀ c ∈ ws, isSpace c = true) (fuel : Nat)
    (cs : List Char) : scanValue fuel (ws ++ cs) = scanValue fuel cs := by
  cases fuel with
  | zero => rfl
  | succ fuel => rw [scanValue, scanValue, skipSpace_append h]

theorem scanItems_append {ws : List Char} (h : ∀ c ∈ ws, isSpace c = true) (fuel : Nat)
    (cs : List Char) : scanItems fuel (ws ++ cs) = scanItems fuel cs := by
  cases fuel with
  | zero => rfl
  | succ fuel => rw [scanItems, scanItems, scanValue_append h]

theorem scanEntries_append {ws : List Char} (h : ∀ c ∈ ws, isSpace c = true) (fuel : Nat)
    (cs : List Char) : scanEntries fuel (ws ++ cs) = scanEntries fuel cs := by
  cases fuel with
  | zero => rfl
  | succ fuel => rw [scanEntries, scanEntries, skipSpace_append h]

/-! ## How a value starts -/

/-- A number starts with a sign or a digit. -/
theorem Number.write_head (n : Number) :
    ∃ c cs, n.write = c :: cs ∧ (c = '-' ∨ c.isDigit = true) := by
  unfold Number.write
  cases n.negative with
  | true => exact ⟨'-', _, rfl, .inl rfl⟩
  | false =>
    obtain ⟨d, ds, hds, hd⟩ := toDigits_eq_cons n.whole
    rw [hds]
    exact ⟨d, _, rfl, .inr hd⟩

/-- A sign or a digit is no white space, and starts nothing but a number. -/
theorem number_start {c : Char} (h : c = '-' ∨ c.isDigit = true) :
    isSpace c = false ∧ c ≠ ']' ∧ c ≠ 'n' ∧ c ≠ 't' ∧ c ≠ 'f' ∧ c ≠ '"' ∧ c ≠ '[' ∧ c ≠ '\x7b' := by
  rcases h with rfl | h
  · decide
  · refine ⟨?_, ?_, ?_, ?_, ?_, ?_, ?_, ?_⟩
    · cases hspace : isSpace c with
      | false => rfl
      | true =>
        have hcases : ((c = ' ' ∨ c = '\t') ∨ c = '\n') ∨ c = '\r' := by
          simpa [isSpace] using hspace
        rcases hcases with ((rfl | rfl) | rfl) | rfl <;> exact absurd h (by decide)
    all_goals
      rintro rfl
      exact absurd h (by decide)

/-- A written value starts with a character that is neither white space nor a closing bracket. -/
theorem write_head (layout : Layout) (level : Nat) (j : Json) :
    ∃ c cs, j.write layout level = c :: cs ∧ isSpace c = false ∧ c ≠ ']' := by
  cases j with
  | null => exact ⟨'n', _, rfl, rfl, by decide⟩
  | bool b => cases b <;> exact ⟨_, _, rfl, rfl, by decide⟩
  | number n =>
    obtain ⟨c, cs, hwrite, hc⟩ := n.write_head
    exact ⟨c, cs, hwrite, (number_start hc).1, (number_start hc).2.1⟩
  | string s => exact ⟨'"', _, rfl, rfl, by decide⟩
  | array items => cases items <;> exact ⟨'[', _, rfl, rfl, by decide⟩
  | object entries =>
    cases entries with
    | nil => exact ⟨'\x7b', _, rfl, rfl, by decide⟩
    | cons entry entries => exact ⟨'\x7b', _, rfl, rfl, by decide⟩

theorem scanValue_number {c : Char} (h : c = '-' ∨ c.isDigit = true) (fuel : Nat)
    (cs : List Char) : scanValue (fuel + 1) (c :: cs) = numberValue (c :: cs) := by
  obtain ⟨hspace, hclose, hn, ht, hf, hquote, hopen, hbrace⟩ := number_start h
  rw [scanValue, skipSpace_cons_of_not_space hspace]
  simp [h]

/-! ## Steps of the scanner -/

/-- An item with the bracket behind it is the last. -/
theorem scanItems_close {fuel : Nat} {cs rest after : List Char} {d : Draft}
    (hitem : scanValue fuel cs = (d, rest)) (hclose : skipSpace rest = ']' :: after) :
    scanItems (fuel + 1) cs = ([d], none, after) := by
  rw [scanItems, hitem]
  simp only [hclose]

/-- An item with a comma behind it is followed by others. -/
theorem scanItems_comma {fuel : Nat} {cs rest more after : List Char} {d : Draft}
    {ds : List Draft} {stop : Option Fault} (hitem : scanValue fuel cs = (d, rest))
    (hcomma : skipSpace rest = ',' :: more) (hmore : scanItems fuel more = (ds, stop, after)) :
    scanItems (fuel + 1) cs = (d :: ds, stop, after) := by
  rw [scanItems, hitem]
  simp only [hcomma, hmore]

/-- An entry with the brace behind it is the last. -/
theorem scanEntries_close {fuel : Nat} {cs key value after : List Char}
    {units : List Text.CodeUnit} {rest : List Char} {d : Draft}
    (hquote : skipSpace cs = '"' :: key) (hkey : scanString key = (units, .ok rest))
    (hcolon : skipSpace rest = ':' :: value) {last : List Char}
    (hvalue : scanValue fuel value = (d, last)) (hclose : skipSpace last = '\x7d' :: after) :
    scanEntries (fuel + 1) cs = ([(textOf units, d)], none, after) := by
  rw [scanEntries]
  simp only [hquote, hkey, hcolon, hvalue, hclose]

/-- An entry with a comma behind it is followed by others. -/
theorem scanEntries_comma {fuel : Nat} {cs key value more after : List Char}
    {units : List Text.CodeUnit} {rest : List Char} {d : Draft}
    {ds : List (Option String × Draft)} {stop : Option Stop}
    (hquote : skipSpace cs = '"' :: key) (hkey : scanString key = (units, .ok rest))
    (hcolon : skipSpace rest = ':' :: value) {last : List Char}
    (hvalue : scanValue fuel value = (d, last)) (hcomma : skipSpace last = ',' :: more)
    (hmore : scanEntries fuel more = (ds, stop, after)) :
    scanEntries (fuel + 1) cs = ((textOf units, d) :: ds, stop, after) := by
  rw [scanEntries]
  simp only [hquote, hkey, hcolon, hvalue, hcomma, hmore]

/-- An array that is not empty is scanned item by item from its first item on. -/
theorem scanValue_array {fuel : Nat} {cs after : List Char} {c : Char} {more : List Char}
    {ds : List Draft} {stop : Option Fault} (hfirst : skipSpace cs = c :: more) (hc : c ≠ ']')
    (hitems : scanItems fuel (c :: more) = (ds, stop, after)) :
    scanValue (fuel + 1) ('[' :: cs) = (.array ds stop, after) := by
  rw [scanValue, skipSpace_cons_of_not_space (by decide)]
  simp [hfirst, hc, hitems]

/-- An object that is not empty is scanned entry by entry from its first key on. -/
theorem scanValue_object {fuel : Nat} {cs after more : List Char}
    {ds : List (Option String × Draft)} {stop : Option Stop} (hfirst : skipSpace cs = '"' :: more)
    (hentries : scanEntries fuel ('"' :: more) = (ds, stop, after)) :
    scanValue (fuel + 1) ('\x7b' :: cs) = (.object ds stop, after) := by
  rw [scanValue, skipSpace_cons_of_not_space (by decide)]
  simp [hfirst, hentries]

/-! ## The scanner takes a written document back -/

/-- Written at any level, in front of anything that cannot continue it, the document is taken
back. -/
def ScansBack (layout : Layout) (j : Json) : Prop :=
  ∀ level rest, Ends rest → scan (j.write layout level ++ rest) = (j.draft, rest)

/-- Inside a container a document is taken back on the fuel there is for the rest of the text. -/
theorem ScansBack.scanValue {layout : Layout} {j : Json} (h : ScansBack layout j) {level fuel : Nat}
    {rest : List Char} (hends : Ends rest)
    (hfuel : 2 * (j.write layout level ++ rest).length < fuel) :
    scanValue fuel (j.write layout level ++ rest) = (j.draft, rest) := by
  rw [scanValue_eq_scan hfuel]
  exact h level rest hends

/-- Items, from the first one on, are taken back if each is. The induction is on the items behind
the first: each of them stands behind a comma, which ends the one before it. -/
theorem scanItems_write {layout : Layout} (level outer : Nat) (rest : List Char)
    (items : List Json) :
    ∀ (item : Json) (fuel : Nat), (∀ j ∈ item :: items, ScansBack layout j) →
      2 * (item.write layout level ++ (writeItems layout level items ++
          (layout.newline outer ++ ']' :: rest))).length + 1 < fuel →
      scanItems fuel (item.write layout level ++
          (writeItems layout level items ++ (layout.newline outer ++ ']' :: rest)))
        = (draftItems (item :: items), none, rest) := by
  induction items with
  | nil =>
    intro item fuel hback hfuel
    obtain ⟨fuel, rfl⟩ := Nat.exists_eq_add_one_of_ne_zero (Nat.ne_zero_of_lt hfuel)
    rw [writeItems, List.nil_append] at hfuel ⊢
    have hclose : skipSpace (layout.newline outer ++ ']' :: rest) = ']' :: rest :=
      skipSpace_newline layout outer (by decide) rest
    have hitem : ScansBack layout item := hback item (List.mem_cons_self ..)
    exact scanItems_close (hitem.scanValue (ends_newline (ends_cons (by decide) rest)) (by omega))
      hclose
  | cons next items ih =>
    intro item fuel hback hfuel
    obtain ⟨fuel, rfl⟩ := Nat.exists_eq_add_one_of_ne_zero (Nat.ne_zero_of_lt hfuel)
    have htext : writeItems layout level (next :: items) ++ (layout.newline outer ++ ']' :: rest)
        = ',' :: (layout.newline level ++ (next.write layout level ++
          (writeItems layout level items ++ (layout.newline outer ++ ']' :: rest)))) := by
      rw [writeItems]
      simp only [List.cons_append, List.append_assoc]
    rw [htext] at hfuel ⊢
    have hnext := ih next fuel (fun j hj => hback j (List.mem_cons_of_mem _ hj))
      (by simp only [List.length_append, List.length_cons] at hfuel ⊢; omega)
    have hmore : scanItems fuel (layout.newline level ++ (next.write layout level ++
        (writeItems layout level items ++ (layout.newline outer ++ ']' :: rest))))
        = (draftItems (next :: items), none, rest) := by
      rw [scanItems_append isSpace_of_mem_newline, hnext]
    have hitem : ScansBack layout item := hback item (List.mem_cons_self ..)
    exact scanItems_comma (hitem.scanValue (ends_cons (by decide) _) (by omega))
      (skipSpace_cons_of_not_space (by decide) _) hmore

theorem writeString_append (s : String) (tail : List Char) :
    writeString s ++ tail = '"' :: (s.toList.flatMap escapeChar ++ '"' :: tail) := by
  rw [writeString]
  simp only [List.cons_append, List.append_assoc, List.nil_append]

/-- No white space stands in front of a key. -/
theorem skipSpace_writeString (key : String) (tail : List Char) :
    skipSpace (writeString key ++ tail)
      = '"' :: (key.toList.flatMap escapeChar ++ '"' :: tail) := by
  rw [writeString_append]
  exact skipSpace_cons_of_not_space (by decide) _

/-- Entries, from the first one on, are taken back if each value is. -/
theorem scanEntries_write {layout : Layout} (level outer : Nat) (rest : List Char)
    (entries : List (String × Json)) :
    ∀ (key : String) (value : Json) (fuel : Nat),
      (∀ entry ∈ (key, value) :: entries, ScansBack layout entry.2) →
      2 * (writeString key ++ (layout.colon ++ (value.write layout level ++
          (writeEntries layout level entries ++
            (layout.newline outer ++ '\x7d' :: rest))))).length + 1 < fuel →
      scanEntries fuel (writeString key ++ (layout.colon ++ (value.write layout level ++
          (writeEntries layout level entries ++ (layout.newline outer ++ '\x7d' :: rest)))))
        = (draftEntries ((key, value) :: entries), none, rest) := by
  obtain ⟨ws, hcolon, hspace⟩ := colon_eq layout
  -- behind the colon the value is found past white space
  have hafter : ∀ tail, skipSpace (layout.colon ++ tail) = ':' :: (ws ++ tail) := by
    intro tail
    rw [hcolon]
    exact skipSpace_cons_of_not_space (by decide) _
  induction entries with
  | nil =>
    intro key value fuel hback hfuel
    obtain ⟨fuel, rfl⟩ := Nat.exists_eq_add_one_of_ne_zero (Nat.ne_zero_of_lt hfuel)
    rw [writeEntries, List.nil_append] at hfuel ⊢
    have hself : ScansBack layout value := hback (key, value) (List.mem_cons_self ..)
    have hvalue : scanValue fuel (ws ++ (value.write layout level ++
        (layout.newline outer ++ '\x7d' :: rest)))
        = (value.draft, layout.newline outer ++ '\x7d' :: rest) := by
      rw [scanValue_append hspace]
      exact hself.scanValue (ends_newline (ends_cons (by decide) rest))
        (by simp only [List.length_append] at hfuel ⊢; omega)
    have hclose : skipSpace (layout.newline outer ++ '\x7d' :: rest) = '\x7d' :: rest :=
      skipSpace_newline layout outer (by decide) rest
    rw [scanEntries_close (skipSpace_writeString key _) (scanString_write _ _) (hafter _) hvalue
      hclose, textOf_encode]
    rfl
  | cons entry entries ih =>
    obtain ⟨nextKey, next⟩ := entry
    intro key value fuel hback hfuel
    obtain ⟨fuel, rfl⟩ := Nat.exists_eq_add_one_of_ne_zero (Nat.ne_zero_of_lt hfuel)
    have htext : writeEntries layout level ((nextKey, next) :: entries) ++
        (layout.newline outer ++ '\x7d' :: rest)
        = ',' :: (layout.newline level ++ (writeString nextKey ++ (layout.colon ++
          (next.write layout level ++ (writeEntries layout level entries ++
            (layout.newline outer ++ '\x7d' :: rest)))))) := by
      rw [writeEntries]
      simp only [List.cons_append, List.append_assoc]
    rw [htext] at hfuel ⊢
    have hnext := ih nextKey next fuel (fun entry hmem => hback entry (List.mem_cons_of_mem _ hmem))
      (by simp only [List.length_append, List.length_cons] at hfuel ⊢; omega)
    have hmore : scanEntries fuel (layout.newline level ++ (writeString nextKey ++ (layout.colon ++
        (next.write layout level ++ (writeEntries layout level entries ++
          (layout.newline outer ++ '\x7d' :: rest))))))
        = (draftEntries ((nextKey, next) :: entries), none, rest) := by
      rw [scanEntries_append isSpace_of_mem_newline, hnext]
    have hself : ScansBack layout value := hback (key, value) (List.mem_cons_self ..)
    have hvalue : ∀ tail, 2 * (value.write layout level ++ ',' :: tail).length < fuel →
        scanValue fuel (ws ++ (value.write layout level ++ ',' :: tail))
          = (value.draft, ',' :: tail) := by
      intro tail htail
      rw [scanValue_append hspace]
      exact hself.scanValue (ends_cons (by decide) tail) htail
    rw [scanEntries_comma (skipSpace_writeString key _) (scanString_write _ _) (hafter _)
      (hvalue _ (by simp only [List.length_append] at hfuel ⊢; omega))
      (skipSpace_cons_of_not_space (by decide) _) hmore, textOf_encode]
    rfl

/-- **The scanner takes back any document the printer writes.** -/
theorem scansBack (layout : Layout) (j : Json) : ScansBack layout j := by
  induction j using memberInduction with
  | null => exact fun _ _ _ => rfl
  | bool b =>
    intro level rest _
    cases b with
    | true => rfl
    | false => rfl
  | number n =>
    intro level rest hends
    obtain ⟨c, cs, hwrite, hc⟩ := n.write_head
    have hscan := scanNumber_write n hends
    rw [hwrite, List.cons_append] at hscan
    rw [write, hwrite, List.cons_append, scan, scanValue_number hc, numberValue, hscan]
    rfl
  | string s =>
    intro level rest _
    rw [write, writeString_append]
    exact stringValue_write s rest
  | array items ih =>
    intro level rest _
    cases items with
    | nil => rfl
    | cons item items =>
      obtain ⟨c, cs, hhead, hspace, hclose⟩ := write_head layout (level + 1) item
      have hfirst := skipSpace_newline layout (level + 1) hspace
        (cs ++ (writeItems layout (level + 1) items ++ (layout.newline level ++ ']' :: rest)))
      have hitems := fun fuel => scanItems_write (level + 1) level rest items item fuel ih
      rw [write]
      simp only [List.cons_append, List.append_assoc, List.nil_append, hhead] at hitems ⊢
      refine scanValue_array hfirst hclose (hitems _ ?_)
      simp only [List.length_append, List.length_cons]
      omega
  | object entries ih =>
    intro level rest _
    cases entries with
    | nil => rfl
    | cons entry entries =>
      obtain ⟨key, value⟩ := entry
      -- the first key is found past the line break
      have hfirst : ∀ tail, skipSpace (layout.newline (level + 1) ++ (writeString key ++ tail))
          = '"' :: (key.toList.flatMap escapeChar ++ '"' :: tail) := by
        intro tail
        rw [skipSpace_append isSpace_of_mem_newline, skipSpace_writeString]
      have hentries := fun fuel =>
        scanEntries_write (level + 1) level rest entries key value fuel ih
      rw [write]
      simp only [List.cons_append, List.append_assoc, List.nil_append]
      refine scanValue_object (hfirst _) ?_
      rw [← writeString_append]
      refine hentries _ ?_
      simp only [List.length_append, List.length_cons]
      omega

/-! ## Whole texts -/

/-- **The text of a document scans to its draft**, and nothing is left. -/
theorem scan_render (layout : Layout) (j : Json) :
    scan (j.render layout).toList = (j.draft, []) := by
  have hends : Ends [] := fun c hc => by cases hc
  have hback := scansBack layout j 0 [] hends
  rw [List.append_nil] at hback
  rw [render, String.toList_ofList, hback]

/-- Reading the text of a document is reading its draft. -/
theorem readText_render {α : Type} (read : Nat → Draft → Read α) (layout : Layout) (j : Json) :
    readText read (j.render layout) = read maxDepth j.draft := by
  rw [readText, scan_render]
  show (read maxDepth j.draft >>= pure) = read maxDepth j.draft
  exact bind_pure _

end Peg.Json
