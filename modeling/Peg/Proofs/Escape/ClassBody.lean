import Peg.Expression.Basic
import Peg.Proofs.Escape.Reading

/-!
# Bodies of character classes

A class is written part by part: a caret if it is inverted, the code of a character, the codes of a
first and a last one with a dash between them. Only that caret and these dashes stand bare, and
nothing keeps the parts apart. **`ClassBody.read?`** goes the other way. It takes one character
after another, however each is written, and looks for a dash behind it.

That it finds the same parts again rests on two facts. The code of a character is read as the
character, whatever comes behind it (**`char?_code`**), so no code runs into the next part. And no
code begins with a dash or a caret (**`head?_code`**), so a character is not taken for the middle of
a range, nor the first part for an inversion. **`part?_write`** says it of one part and
**`read?_write`** of a class.
-/

namespace Peg

open Text Escape

/-- A part of a class as it is written between the brackets. -/
def ClassPart.write : ClassPart → String
  | char c => charClass (String.singleton c)
  | range first last =>
    charClass (String.singleton first) ++ "-" ++ charClass (String.singleton last)

namespace ClassBody

/-- What is written between the brackets of a class. -/
def write (inverted : Bool) (parts : List ClassPart) : String :=
  (if inverted then "^" else "") ++ String.join (parts.map ClassPart.write)

/-! ## Reading -/

/-- A code unit that is written by number, and the text behind it. -/
def unit? : List Char → Option (CodeUnit × List Char)
  | '\\' :: 'x' :: a :: b :: rest => (Hex.unit? '0' '0' a b).map (·, rest)
  | '\\' :: 'u' :: a :: b :: c :: d :: rest => (Hex.unit? a b c d).map (·, rest)
  | _ => none

/-- A character that is written by number: one code unit, or a surrogate pair. -/
def numbered? (text : List Char) : Option (Char × List Char) := do
  let (u, rest) ← unit? text
  if u.isLead then
    let (v, rest) ← unit? rest
    if v.isTrail then return (CodeUnit.joinPair u v, rest) else none
  else if u.isTrail then none
  else return (Char.ofNat u.toNat, rest)

/-- A character that is written by a backslash and what the table has for it, or that stands for
itself and is no delimiter. -/
def named? : List Char → Option (Char × List Char)
  | '\\' :: c :: rest => (meaning? Literal.charClass.delimiters c).map (·, rest)
  | c :: rest => if c ∈ Literal.charClass.delimiters then none else some (c, rest)
  | [] => none

/-- A character, and the text behind it. -/
def char? (text : List Char) : Option (Char × List Char) :=
  numbered? text <|> named? text

/-- A part, and the text behind it. A bare dash behind a character makes a range with the next. -/
def part? (text : List Char) : Option (ClassPart × List Char) := do
  match ← char? text with
  | (first, '-' :: rest) =>
    let (last, rest) ← char? rest
    return (.range first last, rest)
  | (c, rest) => return (.char c, rest)

/-- The parts of a text, of which there are at most `limit`. -/
def parts? : (limit : Nat) → List Char → Option (List ClassPart)
  | _, [] => some []
  | 0, _ :: _ => none
  | limit + 1, c :: cs => do
    let (part, rest) ← part? (c :: cs)
    return part :: (← parts? limit rest)

/-- Whether a class is inverted, and its parts, of which there are no more than characters. -/
def read? (body : String) : Option (Bool × List ClassPart) :=
  match body.toList with
  | '^' :: text => (parts? text.length text).map (true, ·)
  | text => (parts? text.length text).map (false, ·)

/-! ## One character -/

/-- One code by number gives its unit and leaves the rest. -/
theorem unit?_numeric (u : CodeUnit) (rest : List Char) :
    unit? (numeric u ++ rest) = some (u, rest) := by
  by_cases h : u.toNat < 0x100
  · rw [numeric_of_lt h]
    show unit? ('\\' :: 'x' :: _ :: _ :: rest) = _
    rw [unit?, unit?_two h]
    rfl
  · rw [numeric_of_le (by omega)]
    show unit? ('\\' :: 'u' :: _ :: _ :: _ :: _ :: rest) = _
    rw [unit?, unit?_four]
    rfl

/-- A unit that is no surrogate gives a character of its own. -/
theorem numbered?_of_not_surrogate {u : CodeUnit} (hlead : u.isLead = false)
    (htrail : u.isTrail = false) (rest : List Char) :
    numbered? (numeric u ++ rest) = some (Char.ofNat u.toNat, rest) := by
  rw [numbered?, unit?_numeric]
  simp [hlead, htrail]

/-- Two units that are a pair of surrogates give one character. -/
theorem numbered?_of_surrogates {u v : CodeUnit} (hlead : u.isLead = true)
    (htrail : v.isTrail = true) (rest : List Char) :
    numbered? (numeric u ++ (numeric v ++ rest)) = some (CodeUnit.joinPair u v, rest) := by
  rw [numbered?, unit?_numeric]
  simp [hlead, htrail, unit?_numeric]

/-- A character is written by one number or by two, and as many are read. -/
theorem numbered?_ofChar (c : Char) (rest : List Char) :
    numbered? ((CodeUnit.ofChar c).flatMap numeric ++ rest) = some (c, rest) := by
  by_cases h : c.toNat < 0x10000
  · obtain ⟨hlead, htrail⟩ := CodeUnit.not_surrogate_of_lt h
    rw [CodeUnit.ofChar_of_lt h, List.flatMap_singleton, numbered?_of_not_surrogate hlead htrail,
      CodeUnit.ofNat_toNat_toUInt16 h]
  · have hle : 0x10000 ≤ c.toNat := by omega
    rw [CodeUnit.ofChar_of_le hle, List.flatMap_cons, List.flatMap_singleton, List.append_assoc,
      numbered?_of_surrogates (CodeUnit.isLead_of_le hle) (CodeUnit.isTrail_of_le c),
      CodeUnit.joinPair_surrogates hle]

/-- A character that is not given by number is given by name. -/
theorem char?_of_unit?_eq_none {text : List Char} (h : unit? text = none) :
    char? text = named? text := by
  rw [char?, numbered?, h]
  rfl

/-- A backslash and a letter give what the letter stands for. -/
theorem char?_letter {c meant : Char} (hx : c ≠ 'x') (hu : c ≠ 'u')
    (h : meaning? Literal.charClass.delimiters c = some meant) (rest : List Char) :
    char? ('\\' :: c :: rest) = some (meant, rest) := by
  have hunit : unit? ('\\' :: c :: rest) = none := by
    unfold unit?
    split <;> simp_all
  rw [char?_of_unit?_eq_none hunit, named?, h]
  rfl

/-- A character that needs no escape gives itself. -/
theorem char?_plain {c : Char} (h : c ∉ Literal.charClass.delimiters) (rest : List Char) :
    char? (c :: rest) = some (c, rest) := by
  have hbackslash : c ≠ '\\' := by
    rintro rfl
    exact h (backslash_mem_delimiters .charClass)
  have hunit : unit? (c :: rest) = none := by
    unfold unit?
    split <;> simp_all
  rw [char?_of_unit?_eq_none hunit, named?, if_neg h]
  intro d rest' hc
  exact absurd hc hbackslash

/-- **The code of a character is read as the character**, whatever comes behind it. -/
@[simp] theorem char?_code (c : Char) (rest : List Char) :
    char? (code Literal.charClass.delimiters c ++ rest) = some (c, rest) := by
  have hform := code_form Literal.charClass.delimiters c
  generalize code Literal.charClass.delimiters c = text at hform ⊢
  cases hform with
  | delimiter hmem =>
    -- no delimiter is a letter that begins an escape by number
    have hx : c ≠ 'x' := by
      rintro rfl
      exact absurd hmem (by decide)
    have hu : c ≠ 'u' := by
      rintro rfl
      exact absurd hmem (by decide)
    exact char?_letter hx hu (if_pos hmem) rest
  | control letter _ hletter =>
    have hcontrols : ∀ p ∈ controls, p.2 ≠ 'x' ∧ p.2 ≠ 'u' ∧
        meaning? Literal.charClass.delimiters p.2 = some p.1 := by decide
    obtain ⟨hx, hu, hmeaning⟩ := hcontrols _ hletter
    exact char?_letter hx hu hmeaning rest
  | plain hmem _ => exact char?_plain hmem rest
  | number _ _ _ =>
    rw [char?, numbered?_ofChar]
    rfl

/-- Of the delimiters, a code begins with none but the backslash. -/
theorem head?_code {d : Char} (hmem : d ∈ Literal.charClass.delimiters) (hne : d ≠ '\\') (c : Char)
    (rest : List Char) : (code Literal.charClass.delimiters c ++ rest).head? ≠ some d := by
  obtain ⟨cs, hcode | hcode⟩ := code_head Literal.charClass.delimiters c
  · rw [hcode]
    intro hd
    exact hne (Option.some_inj.mp hd).symm
  · rw [hcode]
    rintro ⟨⟩
    -- a delimiter has a code of two characters
    rw [code, if_pos hmem] at hcode
    cases hcode

/-! ## One part -/

@[simp] theorem toList_charClass_singleton (c : Char) :
    (charClass (String.singleton c)).toList = code Literal.charClass.delimiters c := by
  rw [charClass, Literal.escape, String.toList_ofList, String.toList_singleton,
    List.flatMap_singleton]

@[simp] theorem toList_write_char (c : Char) :
    (ClassPart.char c).write.toList = code Literal.charClass.delimiters c :=
  toList_charClass_singleton c

@[simp] theorem toList_write_range (first last : Char) :
    (ClassPart.range first last).write.toList
      = code Literal.charClass.delimiters first
        ++ '-' :: code Literal.charClass.delimiters last := by
  simp [ClassPart.write]

/-- A part begins with the code of a character. -/
theorem exists_code (part : ClassPart) :
    ∃ c rest, part.write.toList = code Literal.charClass.delimiters c ++ rest := by
  cases part with
  | char c => exact ⟨c, [], by simp⟩
  | range first last => exact ⟨first, _, toList_write_range first last⟩

/-- **A part is read as it was written**, unless a dash comes behind it. -/
theorem part?_write (part : ClassPart) {rest : List Char} (h : rest.head? ≠ some '-') :
    part? (part.write.toList ++ rest) = some (part, rest) := by
  cases part with
  | char c =>
    rw [toList_write_char, part?, char?_code]
    -- what is left is what comes behind the part, and that decides whether it is a range
    cases rest with
    | nil => rfl
    | cons d rest =>
      have hd : d ≠ '-' := fun hd => h (congrArg some hd)
      simp [hd]
  | range first last =>
    simp [part?]

/-! ## Whole classes -/

/-- No delimiter but a backslash is in front of parts. -/
theorem head?_flatMap_write {d : Char} (hmem : d ∈ Literal.charClass.delimiters) (hne : d ≠ '\\')
    (parts : List ClassPart) :
    (parts.flatMap fun part => part.write.toList).head? ≠ some d := by
  cases parts with
  | nil => nofun
  | cons part parts =>
    obtain ⟨c, rest, hpart⟩ := exists_code part
    rw [List.flatMap_cons, hpart, List.append_assoc]
    exact head?_code hmem hne c _

theorem toList_write_ne_nil (part : ClassPart) : part.write.toList ≠ [] := by
  intro hnil
  have hpart : part? (part.write.toList ++ []) = some (part, []) := part?_write part nofun
  rw [hnil] at hpart
  cases hpart

/-- The parts of a text are its first part and those of the rest. -/
theorem parts?_of_part? {text rest : List Char} {part : ClassPart} (hne : text ≠ [])
    (h : part? text = some (part, rest)) (limit : Nat) :
    parts? (limit + 1) text = (parts? limit rest).map (part :: ·) := by
  cases text with
  | nil => exact absurd rfl hne
  | cons c cs =>
    rw [parts?, h]
    cases hrest : parts? limit rest <;> simp [hrest]

/-- **Parts behind each other are read as they were written.** -/
theorem parts?_flatMap_write {parts : List ClassPart} {limit : Nat}
    (h : (parts.flatMap fun part => part.write.toList).length ≤ limit) :
    parts? limit (parts.flatMap fun part => part.write.toList) = some parts := by
  induction parts generalizing limit with
  | nil => cases limit <;> rfl
  | cons part parts ih =>
    have hdash := head?_flatMap_write (d := '-') (by decide) (by decide) parts
    have hne := toList_write_ne_nil part
    have hpos : 0 < part.write.toList.length := List.length_pos_iff.mpr hne
    rw [List.flatMap_cons] at h ⊢
    rw [List.length_append] at h
    -- the part takes a character, so what is behind it stays in the limit
    obtain ⟨limit, rfl⟩ : ∃ n, limit = n + 1 := ⟨limit - 1, by omega⟩
    rw [parts?_of_part? (List.append_ne_nil_of_left_ne_nil hne _) (part?_write part hdash),
      ih (by omega)]
    rfl

/-- A class body is a caret, if it is inverted, and its parts one by one. -/
theorem toList_write (inverted : Bool) (parts : List ClassPart) :
    (write inverted parts).toList
      = (if inverted then ['^'] else []) ++ parts.flatMap fun part => part.write.toList := by
  rw [write, String.toList_append, String.toList_join, List.flatMap_map]
  cases inverted <;> rfl

/-- A caret in front inverts the class, and the parts come behind it. -/
theorem read?_caret {body : String} {text : List Char} (h : body.toList = '^' :: text) :
    read? body = (parts? text.length text).map (true, ·) := by
  rw [read?, h]
  rfl

/-- Without a caret in front all of the body is parts. -/
theorem read?_of_head?_ne {body : String} (h : body.toList.head? ≠ some '^') :
    read? body = (parts? body.toList.length body.toList).map (false, ·) := by
  unfold read?
  split
  · next heq =>
    rw [heq] at h
    exact absurd rfl h
  · rfl

/-- Parts start with no bare caret, so the flag is told apart from them. -/
theorem read?_write_eq (inverted : Bool) (parts : List ClassPart) :
    read? (write inverted parts) = some (inverted, parts) := by
  have hparts := parts?_flatMap_write (Nat.le_refl (parts.flatMap fun p => p.write.toList).length)
  have hbody := toList_write inverted parts
  cases inverted with
  | true =>
    rw [read?_caret hbody]
    exact congrArg (Option.map (true, ·)) hparts
  | false =>
    -- a caret at the front of a class that is not inverted has a backslash
    have hcaret := head?_flatMap_write (d := '^') (by decide) (by decide) parts
    have hplain : (write false parts).toList = parts.flatMap fun part => part.write.toList := hbody
    rw [← hplain] at hparts hcaret
    rw [read?_of_head?_ne hcaret, hparts]
    rfl

/-- **A class is read as it was written**: inverted or not, and with the same parts in order. So no
two classes are written alike. -/
theorem read?_write :
    (∀ inverted parts, read? (write inverted parts) = some (inverted, parts)) ∧
      ∀ inverted parts inverted' parts',
        write inverted parts = write inverted' parts' ↔ inverted = inverted' ∧ parts = parts' := by
  refine ⟨read?_write_eq, fun inverted parts inverted' parts' => ⟨fun h => ?_, ?_⟩⟩
  · have hread := read?_write_eq inverted parts
    rw [h, read?_write_eq] at hread
    obtain ⟨rfl, rfl⟩ := Prod.mk.inj (Option.some_inj.mp hread)
    exact ⟨rfl, rfl⟩
  · rintro ⟨rfl, rfl⟩
    rfl

end ClassBody

end Peg
