import Peg.Proofs.Escape.Codes
import Peg.Proofs.Text.Replacement

/-!
# Escaping as replacement in passes

Escaping is described as a chain of replacements, made one after the other in the code units of the
text: the backslash first, then the delimiters of the literal, then the controls that have a letter,
and last everything outside printable ASCII, by number in four buckets (**`Literal.passes`**). What
is run instead goes through the text once, a character at a time.

The two agree, for two reasons. The chain is settled (**`settled_passes`**): what a pass writes is
printable, and of the backslash and the letter in it no later pass takes note. And the code of a
character is that of its code units, also where a character is two of them (**`encode_code`**).
-/

namespace Peg.Escape

open Text Replacement

/-! ## The passes -/

/-- `c` becomes a backslash and `letter`. -/
def named (c letter : Char) : Replacement where
  applies u := u.toNat == c.toNat
  code _ := CodeUnit.encode ['\\', letter]

/-- The last `count` hexadecimal digits of `n`. -/
def hexDigits : (count n : Nat) → List Char
  | 0, _ => []
  | count + 1, n => hexDigits count (n / 16) ++ [Hex.upperDigit (n % 16)]

/-- The units in some ranges become `head` and `digits` hexadecimal digits. -/
def numbered (ranges : List (Nat × Nat)) (head : List Char) (digits : Nat) : Replacement where
  applies u := ranges.any fun range => decide (range.1 ≤ u.toNat) && decide (u.toNat ≤ range.2)
  code u := CodeUnit.encode (head ++ hexDigits digits u.toNat)

/-- The passes by number. -/
def numbers : List Replacement :=
  [numbered [(0x00, 0x0F)] ['\\', 'x', '0'] 1, numbered [(0x10, 0x1F), (0x7F, 0xFF)] ['\\', 'x'] 2,
    numbered [(0x0100, 0x0FFF)] ['\\', 'u', '0'] 3, numbered [(0x1000, 0xFFFF)] ['\\', 'u'] 4]

namespace Literal

/-- The delimiters besides the backslash. -/
def marks : Literal → List Char
  | quoted quote => [quote]
  | charClass => ['/', ']', '^', '-']

/-- The passes for a literal, in order. -/
def passes (literal : Literal) : List Replacement :=
  named '\\' '\\' :: literal.marks.map (fun c => named c c) ++
    [named '\x00' '0', named '\x08' 'b', named '\t' 't', named '\n' 'n', named '\x0B' 'v',
      named '\x0C' 'f', named '\r' 'r'] ++ numbers

/-- The characters that become a backslash and a letter, in the order of their passes. -/
def letters (literal : Literal) : List (Char × Char) :=
  literal.delimiters.map (fun c => (c, c)) ++ controls

end Literal

variable {literal : Literal}

/-- The passes are one for each character with a letter, and then those by number. -/
theorem passes_eq (literal : Literal) :
    literal.passes = literal.letters.map (fun p => named p.1 p.2) ++ numbers := by
  cases literal with
  | quoted quote => rfl
  | charClass => rfl

/-- The characters that have letters are ASCII, and the letters are printable. -/
theorem isAscii_letters (h : literal.IsAccepted) :
    ∀ p ∈ literal.letters, p.1.toNat ≤ 0x7E ∧ isPrintable p.2 = true := by
  intro p hp
  rcases List.mem_append.mp hp with hmem | hmem
  · obtain ⟨d, hd, rfl⟩ := List.mem_map.mp hmem
    have hprint := (h.delimiter hd).1
    exact ⟨(isPrintable_iff.mp hprint).2, hprint⟩
  · have hall : ∀ p ∈ controls, p.1.toNat ≤ 0x7E ∧ isPrintable p.2 = true := by decide
    exact hall p hmem

/-! ## No pass touches what another has written -/

/-- No character that gets a letter is a backslash, or a letter given before. -/
theorem letters_apart (h : literal.IsAccepted) :
    literal.letters.Pairwise fun earlier later => later.1 ≠ '\\' ∧ later.1 ≠ earlier.2 := by
  cases literal with
  | charClass => decide
  | quoted quote =>
    have hprint := (h.delimiter (List.mem_cons_of_mem _ (List.mem_singleton_self quote))).1
    have hbackslash : quote ≠ '\\' := ne_backslash_of_isQuote h
    have hcontrols : ∀ p ∈ controls, isPrintable p.1 = false ∧ p.1 ≠ '\\' := by decide
    show List.Pairwise _ (('\\', '\\') :: (quote, quote) :: controls)
    rw [List.pairwise_cons, List.pairwise_cons]
    refine ⟨?_, ?_, by decide⟩
    · intro p hp
      rcases List.mem_cons.mp hp with rfl | hp
      · exact ⟨hbackslash, hbackslash⟩
      · exact ⟨(hcontrols p hp).2, (hcontrols p hp).2⟩
    · -- a control is not printable, and the quote is
      intro p hp
      refine ⟨(hcontrols p hp).2, ?_⟩
      rintro heq
      have hcontrol := (hcontrols p hp).1
      rw [heq, hprint] at hcontrol
      cases hcontrol

/-- A unit of a printable text is one of its characters. -/
theorem toNat_of_mem_encode {cs : List Char} (h : ∀ c ∈ cs, isPrintable c = true) {v : CodeUnit}
    (hv : v ∈ CodeUnit.encode cs) : ∃ c ∈ cs, v.toNat = c.toNat := by
  obtain ⟨c, hc, hunit⟩ := List.mem_flatMap.mp hv
  have hrange := isPrintable_iff.mp (h c hc)
  rw [CodeUnit.ofChar_of_lt (by omega), List.mem_singleton] at hunit
  exact ⟨c, hc, by rw [hunit, CodeUnit.toNat_toUInt16 (by omega)]⟩

theorem isPrintable_of_mem_hexDigits {count n : Nat} {c : Char} (h : c ∈ hexDigits count n) :
    isPrintable c = true := by
  induction count generalizing n with
  | zero => cases h
  | succ count ih =>
    rcases List.mem_append.mp h with hmem | hmem
    · exact ih hmem
    · have hall : ∀ d : Fin 16, isPrintable (Hex.upperDigit d) = true := by decide
      rw [List.mem_singleton.mp hmem]
      exact hall ⟨n % 16, Nat.mod_lt _ (by decide)⟩

/-- A pass for one character writes a backslash and a letter. -/
theorem mem_code_named {c letter : Char} (h : isPrintable letter = true) {u v : CodeUnit}
    (hv : v ∈ (named c letter).code u) : v.toNat = '\\'.toNat ∨ v.toNat = letter.toNat := by
  have hall : ∀ d ∈ ['\\', letter], isPrintable d = true :=
    List.forall_mem_cons.mpr ⟨by decide, List.forall_mem_singleton.mpr h⟩
  obtain ⟨d, hd, heq⟩ := toNat_of_mem_encode hall hv
  rcases List.mem_cons.mp hd with rfl | hd
  · exact .inl heq
  · rw [List.mem_singleton.mp hd] at heq
    exact .inr heq

theorem mem_code_numbers {r : Replacement} (hr : r ∈ numbers) {u v : CodeUnit}
    (hv : v ∈ r.code u) : 0x20 ≤ v.toNat ∧ v.toNat ≤ 0x7E := by
  have hhead : ∃ ranges head digits, r = numbered ranges head digits
      ∧ ∀ c ∈ head, isPrintable c = true := by
    simp only [numbers, List.mem_cons, List.not_mem_nil, or_false] at hr
    rcases hr with rfl | rfl | rfl | rfl
    all_goals exact ⟨_, _, _, rfl, List.all_eq_true.mp (by decide)⟩
  obtain ⟨ranges, head, digits, rfl, hhead⟩ := hhead
  have hall : ∀ c ∈ head ++ hexDigits digits u.toNat, isPrintable c = true := by
    intro c hc
    rcases List.mem_append.mp hc with hc | hc
    · exact hhead c hc
    · exact isPrintable_of_mem_hexDigits hc
  obtain ⟨c, hc, heq⟩ := toNat_of_mem_encode hall hv
  rw [heq]
  exact isPrintable_iff.mp (hall c hc)

/-- A pass by number applies in the ranges it is for. -/
theorem applies_numbered {ranges : List (Nat × Nat)} {head : List Char} {digits : Nat}
    {u : CodeUnit} : (numbered ranges head digits).applies u = true
      ↔ ∃ range ∈ ranges, range.1 ≤ u.toNat ∧ u.toNat ≤ range.2 := by
  simp [numbered]

/-- No pass by number applies to what is printable. -/
theorem applies_numbers {u : CodeUnit} (h : 0x20 ≤ u.toNat ∧ u.toNat ≤ 0x7E) :
    ∀ r ∈ numbers, r.applies u = false := by
  intro r hr
  rw [← Bool.not_eq_true]
  simp only [numbers, List.mem_cons, List.not_mem_nil, or_false] at hr
  rcases hr with rfl | rfl | rfl | rfl
  all_goals
    rw [applies_numbered]
    simp
    omega

/-- **The passes of an accepted literal are settled.** -/
theorem settled_passes (h : literal.IsAccepted) : Settled literal.passes := by
  rw [passes_eq, Settled, List.pairwise_append, List.pairwise_map]
  refine ⟨?_, ?_, ?_⟩
  · -- a character that gets its letter later is neither of the two an earlier pass writes
    refine List.Pairwise.imp_of_mem ?_ (letters_apart h)
    intro earlier later hearlier _ hapart u _ v hv
    have hne : v.toNat ≠ later.1.toNat := by
      rcases mem_code_named (isAscii_letters h earlier hearlier).2 hv with heq | heq
      · rw [heq, ne_eq, Char.toNat_inj]
        exact Ne.symm hapart.1
      · rw [heq, ne_eq, Char.toNat_inj]
        exact Ne.symm hapart.2
    exact beq_false_of_ne hne
  · -- the passes by number write what none of them applies to
    apply List.pairwise_of_forall_mem_list
    intro earlier hearlier later hlater u _ v hv
    exact applies_numbers (mem_code_numbers hearlier hv) later hlater
  · -- nor do they apply to a backslash and a letter
    intro earlier hearlier later hlater u _ v hv
    obtain ⟨p, hp, rfl⟩ := List.mem_map.mp hearlier
    have hletter := (isAscii_letters h p hp).2
    apply applies_numbers _ later hlater
    rcases mem_code_named hletter hv with heq | heq
    · rw [heq]
      decide
    · rw [heq]
      exact isPrintable_iff.mp hletter

/-! ## The code of a character -/

@[simp] theorem lookup_map_self (delimiters : List Char) (c : Char) :
    (delimiters.map fun d => (d, d)).lookup c = if c ∈ delimiters then some c else none := by
  induction delimiters with
  | nil => rfl
  | cons d ds ih =>
    rw [List.map_cons, List.lookup_cons, ih]
    by_cases h : c = d
    · simp [h]
    · simp [h, beq_false_of_ne h]

/-- Delimiters and controls together are one table. -/
theorem code_eq_lookup (literal : Literal) (c : Char) :
    code literal.delimiters c =
      match literal.letters.lookup c with
      | some letter => ['\\', letter]
      | none => if isPrintable c then [c] else (CodeUnit.ofChar c).flatMap numeric := by
  rw [code, Literal.letters, List.lookup_append, lookup_map_self]
  by_cases h : c ∈ literal.delimiters
  · rw [if_pos h, if_pos h]
    rfl
  · rw [if_neg h, if_neg h]
    rfl

/-- Of the passes with letters the one whose character it is applies; if there is none, those behind
them decide. -/
theorem firstCode_named {letters : List (Char × Char)} {u : CodeUnit} {c : Char}
    (h : u.toNat = c.toNat) (rs : List Replacement) :
    firstCode (letters.map (fun p => named p.1 p.2) ++ rs) u =
      match letters.lookup c with
      | some letter => CodeUnit.encode ['\\', letter]
      | none => firstCode rs u := by
  induction letters with
  | nil => rfl
  | cons p letters ih =>
    obtain ⟨d, letter⟩ := p
    have happlies : (named d letter).applies u = (c == d) := by
      show (u.toNat == d.toNat) = (c == d)
      rw [h, Bool.eq_iff_iff, beq_iff_eq, beq_iff_eq, Char.toNat_inj]
    rw [List.map_cons, List.cons_append, firstCode, happlies, List.lookup_cons, ih]
    cases c == d with
    | true => rfl
    | false => rfl

/-- Of the passes by number the one that applies gives the code of the unit. -/
theorem firstCode_numbers {u : CodeUnit} (h : ¬ (0x20 ≤ u.toNat ∧ u.toNat ≤ 0x7E)) :
    firstCode numbers u = CodeUnit.encode (numeric u) := by
  have hlt := u.toNat_lt
  -- a pass with a zero in its head writes one digit less, and the digit left out is zero
  by_cases hbyte : u.toNat < 0x100
  · rw [numeric_of_lt hbyte, numbers]
    by_cases hnibble : u.toNat < 0x10
    · have hzero : u.toNat / 16 = 0 := by omega
      rw [firstCode_of_applies (by rw [applies_numbered]; simp; omega), hzero]
      simp [numbered, hexDigits]
      rfl
    · have hdiv : u.toNat / 16 % 16 = u.toNat / 16 := by omega
      rw [firstCode_of_not_applies (by rw [applies_numbered]; simp; omega),
        firstCode_of_applies (by rw [applies_numbered]; simp; omega)]
      simp [numbered, hexDigits, hdiv]
  · rw [numeric_of_le (by omega), numbers,
      firstCode_of_not_applies (by rw [applies_numbered]; simp; omega),
      firstCode_of_not_applies (by rw [applies_numbered]; simp; omega)]
    by_cases hthree : u.toNat < 0x1000
    · have hzero : u.toNat / 4096 = 0 := by omega
      rw [firstCode_of_applies (by rw [applies_numbered]; simp; omega), hzero]
      simp [numbered, hexDigits, Nat.div_div_eq_div_mul]
      rfl
    · have hmod : u.toNat / 4096 % 16 = u.toNat / 4096 := by omega
      rw [firstCode_of_not_applies (by rw [applies_numbered]; simp; omega),
        firstCode_of_applies (by rw [applies_numbered]; simp; omega)]
      simp [numbered, hexDigits, Nat.div_div_eq_div_mul, hmod]

/-- Beyond ASCII only the passes by number count. -/
theorem firstCode_passes_of_le (h : literal.IsAccepted) {u : CodeUnit} (hu : 0x7F ≤ u.toNat) :
    firstCode literal.passes u = CodeUnit.encode (numeric u) := by
  have hnamed : ∀ r ∈ literal.letters.map fun p => named p.1 p.2, r.applies u = false := by
    intro r hr
    obtain ⟨p, hp, rfl⟩ := List.mem_map.mp hr
    have hascii := (isAscii_letters h p hp).1
    show (u.toNat == p.1.toNat) = false
    exact beq_false_of_ne (by omega)
  rw [passes_eq, firstCode_append_of_untouched hnamed, firstCode_numbers (by omega)]

/-- Past ASCII, every character is coded by number. -/
theorem code_of_le (h : literal.IsAccepted) {c : Char} (hc : 0x7F ≤ c.toNat) :
    code literal.delimiters c = (CodeUnit.ofChar c).flatMap numeric := by
  have hlookup : literal.letters.lookup c = none := by
    apply List.lookup_eq_none_iff.mpr
    intro p hp
    have hascii := (isAscii_letters h p hp).1
    rw [bne_iff_ne]
    rintro rfl
    omega
  have hprint : ¬ isPrintable c = true := by
    rw [isPrintable_iff]
    omega
  rw [code_eq_lookup, hlookup]
  exact if_neg hprint

/-- **The code of a character is what the passes make of its code units.** -/
theorem encode_code (h : literal.IsAccepted) (c : Char) :
    CodeUnit.encode (code literal.delimiters c)
      = (CodeUnit.ofChar c).flatMap (firstCode literal.passes) := by
  by_cases hc : c.toNat < 0x10000
  · have hu : c.toNat.toUInt16.toNat = c.toNat := CodeUnit.toNat_toUInt16 hc
    rw [code_eq_lookup, passes_eq, CodeUnit.ofChar_of_lt hc]
    show _ = firstCode _ c.toNat.toUInt16 ++ []
    rw [firstCode_named hu, List.append_nil]
    cases literal.letters.lookup c with
    | some letter => rfl
    | none =>
      by_cases hprint : isPrintable c = true
      · have hrange := isPrintable_iff.mp hprint
        simp only [hprint, if_true]
        rw [firstCode_of_untouched (applies_numbers (by omega)), CodeUnit.encode,
          List.flatMap_singleton, CodeUnit.ofChar_of_lt hc]
      · have hrange := mt isPrintable_iff.mpr hprint
        simp only [hprint]
        rw [firstCode_numbers (by omega)]
        simp
  · -- both surrogates are beyond ASCII
    have hvalid := CodeUnit.toNat_char c
    rw [code_of_le h (by omega), CodeUnit.ofChar_of_le (by omega)]
    simp only [List.flatMap_cons, List.flatMap_nil, List.append_nil, CodeUnit.encode,
      List.flatMap_append]
    rw [firstCode_passes_of_le h, firstCode_passes_of_le h]
    · rfl
    · rw [CodeUnit.toNat_toUInt16 (by omega)]
      omega
    · rw [CodeUnit.toNat_toUInt16 (by omega)]
      omega

/-! ## Whole texts -/

/-- Escaping and running the passes agree, for any kind of literal. -/
theorem encode_escape (h : literal.IsAccepted) (s : String) :
    CodeUnit.encode (literal.escape s).toList
      = replaceAll literal.passes (CodeUnit.encode s.toList) := by
  have hcode : (fun c => CodeUnit.encode (code literal.delimiters c))
      = fun c => (CodeUnit.ofChar c).flatMap (firstCode literal.passes) :=
    funext (encode_code h)
  rw [replaceAll_of_settled (settled_passes h), Literal.escape, String.toList_ofList,
    CodeUnit.encode, CodeUnit.encode, List.flatMap_assoc, List.flatMap_assoc]
  exact congrArg s.toList.flatMap hcode

/-- **Escaping is the chain of replacements**, for a string in double quotes, for a string closed by
any accepted quote, and for a class. -/
theorem encode_escaped_eq_replaceAll (s : String) :
    CodeUnit.encode (string s).toList
        = replaceAll (Literal.quoted '"').passes (CodeUnit.encode s.toList) ∧
      (∀ quote, isQuote quote = true → ∃ text, stringWith s quote = .ok text ∧
        CodeUnit.encode text.toList
          = replaceAll (Literal.quoted quote).passes (CodeUnit.encode s.toList)) ∧
      CodeUnit.encode (charClass s).toList
        = replaceAll Literal.charClass.passes (CodeUnit.encode s.toList) := by
  have hclass : Literal.charClass.IsAccepted := trivial
  refine ⟨encode_escape isAccepted_standardQuote s, ?_, encode_escape hclass s⟩
  intro quote hquote
  have hquoted : (Literal.quoted quote).IsAccepted := hquote
  exact ⟨_, stringWith_of_isQuote hquote s, encode_escape hquoted s⟩

/-- A single quote and a line feed, in text for single quotes. -/
theorem encode_escaped_eq_replaceAll_apostrophe :
    isQuote '\'' = true ∧ ∃ text, stringWith "it's\n" '\'' = .ok text ∧
      CodeUnit.encode text.toList
        = replaceAll (Literal.quoted '\'').passes (CodeUnit.encode "it's\n".toList) :=
  ⟨by decide, (encode_escaped_eq_replaceAll "it's\n").2.1 '\'' (by decide)⟩

end Peg.Escape
