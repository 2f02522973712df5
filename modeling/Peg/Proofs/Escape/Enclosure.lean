import Peg.Proofs.Escape.Codes

/-!
# Escaped text stays inside its literal

What closes a literal in generated source is found by a scanner that knows no codes: it skips the
character behind a backslash, whatever it is, and ends at the first stop character it meets
otherwise (**`Scan.split?`**). Text put between the delimiters must not let it end early, nor leave
it on a backslash that takes the closing delimiter along.

**`Enclosed`** is what this comes to for a piece of text. It holds of the code of every character,
and of pieces behind each other, so it holds of escaped text (**`enclosed_escape`**), and the
scanner ends behind the text: **`Enclosed.split?`**.
-/

namespace Peg.Escape

open Text

/-- Where the scanner stands between two characters. -/
inductive Scan
  | atRest
  /-- Behind a backslash. -/
  | skipping
  deriving DecidableEq, Repr

namespace Scan

/-- The scanner after one character. -/
def next : Scan → Char → Scan
  | atRest, c => if c = '\\' then skipping else atRest
  | skipping, _ => atRest

/-- The scanner after a text. -/
def after (scan : Scan) (text : List Char) : Scan :=
  text.foldl next scan

/-- The characters of a text that are neither skipped nor a backslash that has the next one
skipped. -/
def bare : Scan → List Char → List Char
  | _, [] => []
  | skipping, _ :: cs => bare atRest cs
  | atRest, c :: cs => if c = '\\' then bare skipping cs else c :: bare atRest cs

/-- The text in front of the first bare `stop`, and the text behind it. -/
def split? (stop : Char) : Scan → List Char → Option (List Char × List Char)
  | _, [] => none
  | skipping, c :: cs => (split? stop atRest cs).map fun (front, rest) => (c :: front, rest)
  | atRest, c :: cs =>
    if c = '\\' then (split? stop skipping cs).map fun (front, rest) => (c :: front, rest)
    else if c = stop then some ([], cs)
    else (split? stop atRest cs).map fun (front, rest) => (c :: front, rest)

/-- A scan goes on where it has stopped. -/
theorem after_append (scan : Scan) (xs ys : List Char) :
    scan.after (xs ++ ys) = (scan.after xs).after ys :=
  List.foldl_append

/-- Bare characters are found piece by piece. -/
theorem bare_append (scan : Scan) (xs ys : List Char) :
    scan.bare (xs ++ ys) = scan.bare xs ++ (scan.after xs).bare ys := by
  induction xs generalizing scan with
  | nil => cases scan <;> rfl
  | cons c xs ih =>
    show scan.bare (c :: (xs ++ ys)) = scan.bare (c :: xs) ++ ((scan.next c).after xs).bare ys
    cases scan with
    | skipping =>
      rw [bare, bare, ih]
      rfl
    | atRest =>
      by_cases hc : c = '\\'
      · rw [bare, bare, if_pos hc, if_pos hc, ih, next, if_pos hc]
      · rw [bare, bare, if_neg hc, if_neg hc, ih, next, if_neg hc, List.cons_append]

/-- **The scanner ends behind a text that holds no bare stop and leaves it at rest.** -/
theorem split?_append {stop : Char} (hstop : stop ≠ '\\') {scan : Scan} {text : List Char}
    (hrest : scan.after text = atRest) (hbare : stop ∉ scan.bare text) (rest : List Char) :
    split? stop scan (text ++ stop :: rest) = some (text, rest) := by
  -- the induction is on the text from any state: what is skipped may be a stop character itself
  induction text generalizing scan with
  | nil =>
    obtain rfl : scan = atRest := hrest
    simp [split?, hstop]
  | cons c text ih =>
    rw [List.cons_append]
    cases scan with
    | skipping =>
      have hafter : atRest.after text = atRest := hrest
      rw [split?, ih hafter hbare, Option.map_some]
    | atRest =>
      have hafter : (atRest.next c).after text = atRest := hrest
      rw [next] at hafter
      rw [bare] at hbare
      by_cases hc : c = '\\'
      · rw [if_pos hc] at hbare hafter
        rw [split?, if_pos hc, ih hafter hbare, Option.map_some]
      · rw [if_neg hc] at hbare hafter
        rw [List.mem_cons, not_or] at hbare
        rw [split?, if_neg hc, if_neg (Ne.symm hbare.1), ih hafter hbare.2, Option.map_some]

end Scan

/-! ## Pieces of escaped text -/

/-- Text that the scanner leaves at rest, in which it meets no delimiter, and which is printable. -/
structure Enclosed (delimiters text : List Char) : Prop where
  atRest : Scan.atRest.after text = .atRest
  bare : ∀ c ∈ Scan.atRest.bare text, c ∉ delimiters
  printable : ∀ c ∈ text, isPrintable c = true

theorem Enclosed.nil (delimiters : List Char) : Enclosed delimiters [] :=
  ⟨rfl, List.forall_mem_nil _, List.forall_mem_nil _⟩

/-- Enclosed texts can be put behind each other, since each leaves the scan outside of an escape. -/
theorem Enclosed.append {delimiters xs ys : List Char} (hxs : Enclosed delimiters xs)
    (hys : Enclosed delimiters ys) : Enclosed delimiters (xs ++ ys) := by
  refine ⟨?_, ?_, ?_⟩
  · rw [Scan.after_append, hxs.atRest, hys.atRest]
  · intro c hc
    rw [Scan.bare_append, hxs.atRest] at hc
    rcases List.mem_append.mp hc with hc | hc
    · exact hxs.bare c hc
    · exact hys.bare c hc
  · intro c hc
    rcases List.mem_append.mp hc with hc | hc
    · exact hxs.printable c hc
    · exact hys.printable c hc

/-- A text is enclosed if all its pieces are. -/
theorem Enclosed.flatMap {α : Type} {delimiters : List Char} {f : α → List Char} {as : List α}
    (h : ∀ a ∈ as, Enclosed delimiters (f a)) : Enclosed delimiters (as.flatMap f) := by
  induction as with
  | nil => exact .nil delimiters
  | cons a as ih =>
    rw [List.flatMap_cons]
    exact (h a (List.mem_cons_self ..)).append (ih fun b hb => h b (List.mem_cons_of_mem _ hb))

/-- A backslash and a printable character. -/
theorem Enclosed.pair (delimiters : List Char) {c : Char} (h : isPrintable c = true) :
    Enclosed delimiters ['\\', c] := by
  refine ⟨rfl, List.forall_mem_nil _, ?_⟩
  exact List.forall_mem_cons.mpr ⟨by decide, List.forall_mem_singleton.mpr h⟩

/-- A printable character that is no delimiter, the backslash being one. -/
theorem Enclosed.singleton {delimiters : List Char} (hbackslash : '\\' ∈ delimiters) {c : Char}
    (hmem : c ∉ delimiters) (h : isPrintable c = true) : Enclosed delimiters [c] := by
  have hne : c ≠ '\\' := by
    rintro rfl
    exact hmem hbackslash
  have hbare : Scan.atRest.bare [c] = [c] := by simp [Scan.bare, hne]
  refine ⟨?_, ?_, List.forall_mem_singleton.mpr h⟩
  · show Scan.atRest.next c = .atRest
    rw [Scan.next, if_neg hne]
  · rw [hbare]
    exact List.forall_mem_singleton.mpr hmem

variable {literal : Literal}

theorem enclosed_upperDigit (h : literal.IsAccepted) {d : Nat} (hd : d < 16) :
    Enclosed literal.delimiters [Hex.upperDigit d] := by
  have hall : ∀ d : Fin 16, isPrintable (Hex.upperDigit d) = true
      ∧ (Hex.upperDigit d).isAlphanum = true := by decide
  obtain ⟨hprint, halnum⟩ := hall ⟨d, hd⟩
  exact .singleton (backslash_mem_delimiters literal) (h.not_mem_of_isAlphanum halnum) hprint

/-- In a code by number the letter is skipped and the digits are bare. -/
theorem enclosed_numeric (h : literal.IsAccepted) (u : CodeUnit) :
    Enclosed literal.delimiters (numeric u) := by
  have hlt := u.toNat_lt
  have hdigit : ∀ n, Enclosed literal.delimiters [Hex.upperDigit (n % 16)] :=
    fun n => enclosed_upperDigit h (Nat.mod_lt n (by decide))
  by_cases hbyte : u.toNat < 0x100
  · have hfirst : Enclosed literal.delimiters [Hex.upperDigit (u.toNat / 16)] :=
      enclosed_upperDigit h (by omega)
    rw [numeric_of_lt hbyte]
    exact (Enclosed.pair _ (by decide)).append (hfirst.append (hdigit _))
  · have hfirst : Enclosed literal.delimiters [Hex.upperDigit (u.toNat / 4096)] :=
      enclosed_upperDigit h (by omega)
    rw [numeric_of_le (by omega)]
    exact (Enclosed.pair _ (by decide)).append
      (hfirst.append ((hdigit _).append ((hdigit _).append (hdigit _))))

/-- **The code of a character is enclosed.** -/
theorem enclosed_code (h : literal.IsAccepted) (c : Char) :
    Enclosed literal.delimiters (code literal.delimiters c) := by
  have hform := code_form literal.delimiters c
  generalize code literal.delimiters c = text at hform ⊢
  cases hform with
  | delimiter hmem => exact .pair _ (h.delimiter hmem).1
  | control letter _ hletter =>
    have hcontrols : ∀ p ∈ controls, isPrintable p.2 = true := by decide
    exact .pair _ (hcontrols _ hletter)
  | plain hmem hprint => exact .singleton (backslash_mem_delimiters literal) hmem hprint
  | number _ _ _ => exact .flatMap fun u _ => enclosed_numeric h u

/-! ## Whole texts -/

/-- What is escaped for a literal holds no bare delimiter, and no escape in it stays open. -/
theorem enclosed_escape (h : literal.IsAccepted) (s : String) :
    Enclosed literal.delimiters (literal.escape s).toList := by
  rw [Literal.escape, String.toList_ofList]
  exact .flatMap fun c _ => enclosed_code h c

/-- **Behind enclosed text the scanner ends at the delimiter that is put there.** -/
theorem Enclosed.split? {delimiters text : List Char} (h : Enclosed delimiters text) {stop : Char}
    (hmem : stop ∈ delimiters) (hstop : stop ≠ '\\') (rest : List Char) :
    Scan.atRest.split? stop (text ++ stop :: rest) = some (text, rest) :=
  Scan.split?_append hstop h.atRest (fun hbare => h.bare stop hbare hmem) rest

/-- What scanning for a closing delimiter finds in a text. -/
def closed? (stop : Char) (text : String) : Option (String × String) :=
  (Scan.atRest.split? stop text.toList).map fun (front, rest) =>
    (String.ofList front, String.ofList rest)

/-- So the literal ends right behind it, at the delimiter that was put there. -/
theorem closed?_escape (h : literal.IsAccepted) {stop : Char} (hmem : stop ∈ literal.delimiters)
    (hstop : stop ≠ '\\') (s rest : String) :
    closed? stop (literal.escape s ++ String.singleton stop ++ rest)
      = some (literal.escape s, rest) := by
  have htext : (literal.escape s ++ String.singleton stop ++ rest).toList
      = (literal.escape s).toList ++ stop :: rest.toList := by
    simp
  rw [closed?, htext, (enclosed_escape h s).split? hmem hstop]
  simp

/-- What is escaped is printable ASCII. -/
theorem ascii_escape (h : literal.IsAccepted) (s : String) :
    ∀ c ∈ (literal.escape s).toList, 0x20 ≤ c.toNat ∧ c.toNat ≤ 0x7E :=
  fun c hc => isPrintable_iff.mp ((enclosed_escape h s).printable c hc)

/-- **Escaped text cannot end its literal.** Whatever follows, a scanner that skips the character
behind a backslash finds the closing delimiter right behind the text: the quote behind a string, the
bracket behind a class. In a class it meets no bare delimiter of any kind. And escaped text is
printable ASCII. -/
theorem closed?_escaped (s rest : String) :
    (∀ quote, isQuote quote = true → ∃ text, stringWith s quote = .ok text ∧
        closed? quote (text ++ String.singleton quote ++ rest) = some (text, rest) ∧
          ∀ c ∈ text.toList, 0x20 ≤ c.toNat ∧ c.toNat ≤ 0x7E) ∧
      closed? ']' (charClass s ++ "]" ++ rest) = some (charClass s, rest) ∧
      (∀ c ∈ Scan.atRest.bare (charClass s).toList, c ∉ ['/', ']', '^', '-']) ∧
      (∀ c ∈ (charClass s).toList, 0x20 ≤ c.toNat ∧ c.toNat ≤ 0x7E) ∧
      ∀ c ∈ (string s).toList, 0x20 ≤ c.toNat ∧ c.toNat ≤ 0x7E := by
  have hclass : Literal.charClass.IsAccepted := trivial
  refine ⟨?_, closed?_escape hclass (by decide) (by decide) s rest, ?_, ascii_escape hclass s,
    ascii_escape isAccepted_standardQuote s⟩
  · intro quote hquote
    have hquoted : (Literal.quoted quote).IsAccepted := hquote
    have hmem : quote ∈ (Literal.quoted quote).delimiters :=
      List.mem_cons_of_mem _ (List.mem_singleton_self quote)
    have hstop : quote ≠ '\\' := ne_backslash_of_isQuote hquote
    exact ⟨_, stringWith_of_isQuote hquote s, closed?_escape hquoted hmem hstop s rest,
      ascii_escape hquoted s⟩
  · intro c hc hmem
    exact (enclosed_escape hclass s).bare c hc (List.mem_cons_of_mem '\\' hmem)

/-- Text for single quotes with a backslash and a single quote in it, in front of another single
quote. -/
theorem closed?_escaped_apostrophe :
    isQuote '\'' = true ∧ ∃ text, stringWith "\\'" '\'' = .ok text ∧
      closed? '\'' (text ++ String.singleton '\'' ++ "'") = some (text, "'") ∧
        ∀ c ∈ text.toList, 0x20 ≤ c.toNat ∧ c.toNat ≤ 0x7E :=
  ⟨by decide, (closed?_escaped "\\'" "'").1 '\'' (by decide)⟩

end Peg.Escape
