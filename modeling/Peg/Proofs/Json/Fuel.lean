import Peg.Proofs.Json.Origins

/-!
# Fuel that is enough for any text

The scanner runs on fuel, and would give up where there is none left. It never comes to that: what
is left behind anything it has scanned is an end of the text (**`scan_suffix`**), and every item,
every entry and everything inside a bracket starts behind a character of its own. So a text cannot
use more fuel than twice its length, and more of it changes nothing (**`scanValue_eq_scan`**).
-/

namespace Peg.Json

open Text

/-! ## What is left of a text -/

theorem skipSpace_suffix (cs : List Char) : skipSpace cs <:+ cs :=
  List.dropWhile_suffix isSpace

/-- Behind the first token of a text. -/
theorem suffix_of_token {cs rest : List Char} {c : Char} (h : skipSpace cs = c :: rest) :
    rest <:+ cs :=
  (List.suffix_cons c rest).trans (h ▸ skipSpace_suffix cs)

theorem scanWord_suffix {word cs rest : List Char} (h : scanWord word cs = .ok rest) :
    rest <:+ cs := by
  induction word generalizing cs with
  | nil =>
    cases h
    exact List.suffix_refl _
  | cons w word ih =>
    cases cs with
    | nil => cases h
    | cons c cs =>
      rw [scanWord] at h
      split at h
      · exact (ih h).trans (List.suffix_cons c cs)
      · cases h

/-- Digits are taken off the front. Everything in a number is made of them and of single marks. -/
theorem scanDigits_suffix {cs digits rest : List Char} (h : scanDigits cs = .ok (digits, rest)) :
    rest <:+ cs := by
  simp only [scanDigits] at h
  split at h
  · cases h
  · cases h
    exact List.dropWhile_suffix Char.isDigit

theorem scanWhole_suffix {cs rest : List Char} {n : Nat} (h : scanWhole cs = .ok (n, rest)) :
    rest <:+ cs := by
  obtain ⟨⟨digits, after⟩, hdigits, h⟩ := Read.bind_eq_ok.mp h
  simp only at h
  split at h
  · cases h
  · cases h
    exact scanDigits_suffix hdigits

theorem scanFraction_suffix {cs rest : List Char} {ds : List (Fin 10)}
    (h : scanFraction cs = .ok (ds, rest)) : rest <:+ cs := by
  unfold scanFraction at h
  split at h
  · next cs =>
    obtain ⟨⟨digits, after⟩, hdigits, h⟩ := Read.bind_eq_ok.mp h
    cases h
    exact (scanDigits_suffix hdigits).trans (List.suffix_cons '.' cs)
  · cases h
    exact List.suffix_refl _

theorem scanMagnitude_suffix {negative : Bool} {cs rest : List Char} {e : Option Int}
    (h : scanMagnitude negative cs = .ok (e, rest)) : rest <:+ cs := by
  obtain ⟨⟨digits, after⟩, hdigits, h⟩ := Read.bind_eq_ok.mp h
  cases h
  exact scanDigits_suffix hdigits

theorem scanExponent_suffix {cs rest : List Char} {e : Option Int}
    (h : scanExponent cs = .ok (e, rest)) : rest <:+ cs := by
  unfold scanExponent at h
  split at h
  · next c cs =>
    have hcs : cs <:+ c :: cs := List.suffix_cons c cs
    split at h
    · split at h
      · next cs => exact ((scanMagnitude_suffix h).trans (List.suffix_cons '-' cs)).trans hcs
      · next cs => exact ((scanMagnitude_suffix h).trans (List.suffix_cons '+' cs)).trans hcs
      · exact (scanMagnitude_suffix h).trans hcs
    · cases h
      exact List.suffix_refl _
  · cases h
    exact List.suffix_refl _

theorem scanUnsigned_suffix {negative : Bool} {cs rest : List Char} {n : Number}
    (h : scanUnsigned negative cs = .ok (n, rest)) : rest <:+ cs := by
  obtain ⟨⟨whole, behindWhole⟩, hwhole, h⟩ := Read.bind_eq_ok.mp h
  obtain ⟨⟨fraction, behindFraction⟩, hfraction, h⟩ := Read.bind_eq_ok.mp h
  obtain ⟨⟨exponent, after⟩, hexponent, h⟩ := Read.bind_eq_ok.mp h
  cases h
  exact ((scanExponent_suffix hexponent).trans (scanFraction_suffix hfraction)).trans
    (scanWhole_suffix hwhole)

/-- What is left behind a number. The other parts of a text leave an end of it as well. -/
theorem scanNumber_suffix {cs rest : List Char} {n : Number} (h : scanNumber cs = .ok (n, rest)) :
    rest <:+ cs := by
  unfold scanNumber at h
  split at h
  · next cs => exact (scanUnsigned_suffix h).trans (List.suffix_cons '-' cs)
  · exact scanUnsigned_suffix h

/-- What is left behind a string that is closed. Each code of a character takes what it is made of
off the front. -/
theorem scanString_suffix {cs rest : List Char} (h : (scanString cs).2 = .ok rest) :
    rest <:+ cs := by
  fun_induction scanString cs with
  | case2 cs =>
    cases h
    exact List.suffix_cons ..
  | case3 a b c d cs _ _ _ _ hcs ih =>
    rw [hcs] at ih
    exact (ih h).trans (List.suffix_append ['\\', 'u', a, b, c, d] cs)
  | case6 c cs _ _ _ _ _ _ hcs ih =>
    rw [hcs] at ih
    exact (ih h).trans (List.suffix_append ['\\', c] cs)
  | case10 c cs _ _ _ _ _ _ _ _ hcs ih =>
    rw [hcs] at ih
    exact (ih h).trans (List.suffix_cons c cs)
  | _ => cases h

/-- A word leaves an end of the text, and so does one that is broken, which leaves nothing. -/
theorem wordValue_suffix (value : Draft) (word cs : List Char) :
    (wordValue value word cs).2 <:+ cs := by
  unfold wordValue
  split
  · next h => exact scanWord_suffix h
  · exact List.nil_suffix

theorem stringValue_suffix (cs : List Char) : (stringValue cs).2 <:+ cs := by
  unfold stringValue
  split
  · next h => exact scanString_suffix (congrArg Prod.snd h)
  · exact List.nil_suffix

theorem numberValue_suffix (cs : List Char) : (numberValue cs).2 <:+ cs := by
  unfold numberValue
  split
  · next h => exact scanNumber_suffix h
  · exact List.nil_suffix

/-! ## What is left behind a value -/

variable {fuel : Nat}

/-- A value leaves an end of the text if what is inside it does. -/
theorem scanValue_suffix_step (hitems : ∀ cs, (scanItems fuel cs).2.2 <:+ cs)
    (hentries : ∀ cs, (scanEntries fuel cs).2.2 <:+ cs) (cs : List Char) :
    (scanValue (fuel + 1) cs).2 <:+ cs := by
  rw [scanValue]
  split
  · exact List.nil_suffix
  · next h => exact (wordValue_suffix ..).trans (suffix_of_token h)
  · next h => exact (wordValue_suffix ..).trans (suffix_of_token h)
  · next h => exact (wordValue_suffix ..).trans (suffix_of_token h)
  · next h => exact (stringValue_suffix _).trans (suffix_of_token h)
  · next inside h =>
    refine List.IsSuffix.trans ?_ (suffix_of_token h)
    split
    · exact List.nil_suffix
    · next hclose => exact suffix_of_token hclose
    · exact (hitems _).trans (skipSpace_suffix inside)
  · next inside h =>
    refine List.IsSuffix.trans ?_ (suffix_of_token h)
    split
    · next hclose => exact suffix_of_token hclose
    · exact (hentries _).trans (skipSpace_suffix inside)
  · next c rest _ _ _ _ _ _ h =>
    have hcs : c :: rest <:+ cs := h ▸ skipSpace_suffix cs
    split
    · exact (numberValue_suffix _).trans hcs
    · exact List.nil_suffix

/-- Items leave an end of the text if the first of them does and those behind its comma do. -/
theorem scanItems_suffix_step (hvalue : ∀ cs, (scanValue fuel cs).2 <:+ cs)
    (hitems : ∀ cs, (scanItems fuel cs).2.2 <:+ cs) (cs : List Char) :
    (scanItems (fuel + 1) cs).2.2 <:+ cs := by
  rw [scanItems]
  refine List.IsSuffix.trans ?_ (hvalue cs)
  simp only
  split
  · exact List.nil_suffix
  · next h => exact suffix_of_token h
  · next h => exact (hitems _).trans (suffix_of_token h)
  · exact List.nil_suffix

/-- Entries leave an end of the text if the first value does and those behind its comma do. -/
theorem scanEntries_suffix_step (hvalue : ∀ cs, (scanValue fuel cs).2 <:+ cs)
    (hentries : ∀ cs, (scanEntries fuel cs).2.2 <:+ cs) (cs : List Char) :
    (scanEntries (fuel + 1) cs).2.2 <:+ cs := by
  rw [scanEntries]
  split
  · next key hquote =>
    refine List.IsSuffix.trans ?_ (suffix_of_token hquote)
    split
    · exact List.nil_suffix
    · next hkey =>
      refine List.IsSuffix.trans ?_ (scanString_suffix (congrArg Prod.snd hkey))
      split
      · exact List.nil_suffix
      · next value hcolon =>
        refine List.IsSuffix.trans ?_ ((hvalue value).trans (suffix_of_token hcolon))
        simp only
        split
        · exact List.nil_suffix
        · next h => exact suffix_of_token h
        · next h => exact (hentries _).trans (suffix_of_token h)
        · exact List.nil_suffix
      · exact List.nil_suffix
  · exact List.nil_suffix
  · exact List.nil_suffix

/-- **What is left is an end of the text**, on any fuel. -/
theorem scan_suffix (fuel : Nat) :
    (∀ cs, (scanValue fuel cs).2 <:+ cs) ∧ (∀ cs, (scanItems fuel cs).2.2 <:+ cs) ∧
      ∀ cs, (scanEntries fuel cs).2.2 <:+ cs := by
  induction fuel with
  | zero => exact ⟨fun _ => List.nil_suffix, fun _ => List.nil_suffix, fun _ => List.nil_suffix⟩
  | succ fuel ih =>
    obtain ⟨hvalue, hitems, hentries⟩ := ih
    exact ⟨scanValue_suffix_step hitems hentries, scanItems_suffix_step hvalue hitems,
      scanEntries_suffix_step hvalue hentries⟩

/-! ## More fuel changes nothing -/

/-- A token takes at least its first character off the text. -/
theorem length_lt_of_token {cs rest : List Char} {c : Char} (h : skipSpace cs = c :: rest) :
    rest.length < cs.length := by
  have hlength : (c :: rest).length ≤ cs.length := h ▸ (skipSpace_suffix cs).length_le
  exact Nat.lt_of_succ_le hlength

/-- A value depends on the fuel only through what stands behind its bracket. -/
theorem scanValue_congr {fuel' : Nat} {cs : List Char}
    (hitems : ∀ after, after.length < cs.length → scanItems fuel after = scanItems fuel' after)
    (hentries : ∀ after, after.length < cs.length →
      scanEntries fuel after = scanEntries fuel' after) :
    scanValue (fuel + 1) cs = scanValue (fuel' + 1) cs := by
  rw [scanValue, scanValue]
  have hinside : ∀ {inside : List Char} {c}, skipSpace cs = c :: inside →
      (skipSpace inside).length < cs.length := by
    intro inside c h
    have := (skipSpace_suffix inside).length_le
    have := length_lt_of_token h
    omega
  split
  · rfl
  · rfl
  · rfl
  · rfl
  · rfl
  · next h =>
    split
    · rfl
    · rfl
    · rw [hitems _ (hinside h)]
  · next h =>
    split
    · rfl
    · rw [hentries _ (hinside h)]
  · rfl

/-- Items depend on the fuel only through the first of them and what stands behind its comma. -/
theorem scanItems_congr {fuel' : Nat} {cs : List Char}
    (hvalue : scanValue fuel cs = scanValue fuel' cs)
    (hitems : ∀ after, after.length < cs.length → scanItems fuel after = scanItems fuel' after) :
    scanItems (fuel + 1) cs = scanItems (fuel' + 1) cs := by
  rw [scanItems, scanItems, hvalue]
  simp only
  split
  · rfl
  · rfl
  · next h =>
    have hrest := length_lt_of_token h
    have hle := ((scan_suffix fuel').1 cs).length_le
    rw [hitems _ (by omega)]
  · rfl

/-- Entries depend on the fuel only through what stands behind the first key. -/
theorem scanEntries_congr {fuel' : Nat} {cs : List Char}
    (hvalue : ∀ after, after.length < cs.length → scanValue fuel after = scanValue fuel' after)
    (hentries : ∀ after, after.length < cs.length →
      scanEntries fuel after = scanEntries fuel' after) :
    scanEntries (fuel + 1) cs = scanEntries (fuel' + 1) cs := by
  rw [scanEntries, scanEntries]
  split
  · next key hquote =>
    split
    · rfl
    · next rest hkey =>
      split
      · rfl
      · next value hcolon =>
        have hkey := (scanString_suffix (congrArg Prod.snd hkey)).length_le
        have hquote := length_lt_of_token hquote
        have hcolon := length_lt_of_token hcolon
        rw [hvalue _ (by omega)]
        simp only
        split
        · rfl
        · rfl
        · next h =>
          have hlast := length_lt_of_token h
          have hle := ((scan_suffix fuel').1 value).length_le
          rw [hentries _ (by omega)]
        · rfl
      · rfl
  · rfl
  · rfl

/-- **Two fuels that are enough scan alike.** The induction is on one of them. Twice the length is
counted so that a bracket, which takes one character, may use two: one for the value it opens and
one for the item behind it. -/
theorem scan_congr (fuel fuel' : Nat) :
    (∀ cs, 2 * cs.length < fuel → 2 * cs.length < fuel' → scanValue fuel cs = scanValue fuel' cs) ∧
      (∀ cs, 2 * cs.length + 1 < fuel → 2 * cs.length + 1 < fuel' →
        scanItems fuel cs = scanItems fuel' cs) ∧
      ∀ cs, 2 * cs.length + 1 < fuel → 2 * cs.length + 1 < fuel' →
        scanEntries fuel cs = scanEntries fuel' cs := by
  induction fuel generalizing fuel' with
  | zero => refine ⟨?_, ?_, ?_⟩ <;> intro cs h <;> omega
  | succ fuel ih =>
    cases fuel' with
    | zero => refine ⟨?_, ?_, ?_⟩ <;> intro cs _ h <;> omega
    | succ fuel' =>
      obtain ⟨hvalue, hitems, hentries⟩ := ih fuel'
      refine ⟨fun cs h h' => ?_, fun cs h h' => ?_, fun cs h h' => ?_⟩
      · exact scanValue_congr (fun after _ => hitems after (by omega) (by omega))
          fun after _ => hentries after (by omega) (by omega)
      · exact scanItems_congr (hvalue cs (by omega) (by omega))
          fun after _ => hitems after (by omega) (by omega)
      · exact scanEntries_congr (fun after _ => hvalue after (by omega) (by omega))
          fun after _ => hentries after (by omega) (by omega)

/-- **Any fuel above twice the length gives what `scan` finds.** -/
theorem scanValue_eq_scan {fuel : Nat} {cs : List Char} (h : 2 * cs.length < fuel) :
    scanValue fuel cs = scan cs :=
  (scan_congr fuel _).1 cs h (by omega)

end Peg.Json
