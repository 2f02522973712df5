import Peg.Proofs.Escape.Codes

/-!
# The value of a string literal in generated source

Generated source is ECMAScript. What a string literal stands for there is a sequence of UTF-16 code
units, found by reading the literal from left to right (non-strict code, so that octal escapes
count). `value?` is that reading; it is `none` for a text that is no string literal.

The reader stands in a `Phase` between two characters, and `step` takes one character. An octal
escape is the one construct with no end of its own: it goes on for as long as an octal digit
follows, up to three digits and the value 0o377, so its unit is produced only when the next
character is known.

* **`run_append`**: reading a text in two parts.
* **`run_numeric`**: a code unit written by number is read as that unit.
* **`run_octal_of_next_none`**: a character by which an octal escape does not go on ends it, and is
  read as if it stood alone.
-/

namespace Peg.Script

open Text

/-- Where the reader of a string literal stands. -/
inductive Phase
  /-- Between two characters of the body. -/
  | body
  /-- After a backslash. -/
  | escape
  /-- After a backslash and a carriage return, where a line feed still belongs to the line break. -/
  | lineBreak
  /-- In an octal escape of some value, that may take up to `left` digits more. -/
  | octal (value left : Nat)
  /-- In an escape by number, with `due + 1` hexadecimal digits still due. -/
  | hex (value due : Nat)
  /-- After `\u`. -/
  | unicode
  /-- In an escape by number between braces, with the value of the digits so far. -/
  | braced (value : Option Nat)
  /-- After the closing quote. -/
  | closed
  deriving DecidableEq, Repr

/-- The value of an octal digit. -/
def octalDigit? (c : Char) : Option Nat :=
  if '0' ≤ c ∧ c ≤ '7' then some (c.toNat - 48) else none

/-- The characters a backslash and a letter stand for. -/
def letterEscapes : List (Char × Char) :=
  [('b', '\x08'), ('t', '\t'), ('n', '\n'), ('v', '\x0B'), ('f', '\x0C'), ('r', '\r')]

/-- The code units of a code point, which may be a surrogate. -/
def codePointUnits (n : Nat) : List CodeUnit :=
  if n < 0x10000 then [n.toUInt16]
  else [(0xD800 + (n - 0x10000) / 0x400).toUInt16, (0xDC00 + (n - 0x10000) % 0x400).toUInt16]

/-- A character of the body. A line feed or carriage return ends the line, and with it the
literal. -/
def bodyStep (quote c : Char) : Option (List CodeUnit × Phase) :=
  if c = quote then some ([], .closed)
  else if c = '\\' then some ([], .escape)
  else if c = '\n' ∨ c = '\r' then none
  else some (CodeUnit.ofChar c, .body)

/-- A character after a backslash. One that starts no escape stands for itself; a line break stands
for nothing. -/
def escapeStep (c : Char) : Option (List CodeUnit × Phase) :=
  if c = 'x' then some ([], .hex 0 1)
  else if c = 'u' then some ([], .unicode)
  else if c = '\r' then some ([], .lineBreak)
  else if c = '\n' ∨ c = '\u2028' ∨ c = '\u2029' then some ([], .body)
  else
    match octalDigit? c with
    | some d => some ([], .octal d 2)
    | none => some (CodeUnit.ofChar ((letterEscapes.lookup c).getD c), .body)

/-- A hexadecimal digit of an escape with `due` more digits after it. -/
def hexStep (value due : Nat) (c : Char) : Option (List CodeUnit × Phase) := do
  let d ← Hex.value? c
  match due with
  | 0 => return ([(value * 16 + d).toUInt16], .body)
  | due + 1 => return ([], .hex (value * 16 + d) due)

/-- A character between the braces of an escape. -/
def bracedStep (value : Option Nat) (c : Char) : Option (List CodeUnit × Phase) :=
  if c = '\x7d' then value.map fun n => (codePointUnits n, .body)
  else do
    let n := value.getD 0 * 16 + (← Hex.value? c)
    if n ≤ 0x10FFFF then return ([], .braced (some n)) else none

/-- The digit by which an octal escape of the given value goes on, if `c` is one. -/
def octalNext? (value left : Nat) (c : Char) : Option Nat :=
  match octalDigit? c with
  | some d => if 0 < left ∧ value * 8 + d ≤ 0o377 then some (value * 8 + d) else none
  | none => none

/-- One character: the code units it completes and the phase after it. -/
def step (quote : Char) : Phase → Char → Option (List CodeUnit × Phase)
  | .body, c => bodyStep quote c
  | .escape, c => escapeStep c
  | .lineBreak, c => if c = '\n' then some ([], .body) else bodyStep quote c
  | .octal value left, c =>
    match octalNext? value left c with
    | some value => some ([], .octal value (left - 1))
    | none => (bodyStep quote c).map fun (units, phase) => (value.toUInt16 :: units, phase)
  | .hex value due, c => hexStep value due c
  | .unicode, c => if c = '\x7b' then some ([], .braced none) else hexStep 0 3 c
  | .braced value, c => bracedStep value c
  | .closed, _ => none

/-- Code units read before others. -/
def emit (units : List CodeUnit) : List CodeUnit × Phase → List CodeUnit × Phase
  | (more, phase) => (units ++ more, phase)

/-- The code units of a text read from a phase on, and the phase after it. -/
def run (quote : Char) : Phase → List Char → Option (List CodeUnit × Phase)
  | phase, [] => some ([], phase)
  | phase, c :: cs =>
    match step quote phase c with
    | none => none
    | some (units, next) => (run quote next cs).map (emit units)

/-- The code units a string literal stands for. It is written between two quotes of one kind, with
nothing before or after. -/
def value? (literal : String) : Option (List CodeUnit) :=
  match literal.toList with
  | [] => none
  | quote :: cs =>
    if quote = '"' ∨ quote = '\'' then
      match run quote .body cs with
      | some (units, .closed) => some units
      | _ => none
    else none

/-! ## Running -/

variable {quote : Char}

@[simp] theorem emit_nil : emit [] = id := rfl

@[simp] theorem emit_comp_emit (xs ys : List CodeUnit) : emit xs ∘ emit ys = emit (xs ++ ys) := by
  funext p
  simp [emit]

/-- A run that can take its first step goes on from there. -/
theorem run_cons_of_step {phase next : Phase} {c : Char} {units : List CodeUnit}
    (h : step quote phase c = some (units, next)) (cs : List Char) :
    run quote phase (c :: cs) = (run quote next cs).map (emit units) := by
  rw [run, h]

/-- Reading a text in two parts. -/
theorem run_append {phase next : Phase} {xs : List Char} {units : List CodeUnit}
    (h : run quote phase xs = some (units, next)) (ys : List Char) :
    run quote phase (xs ++ ys) = (run quote next ys).map (emit units) := by
  induction xs generalizing phase units with
  | nil =>
    obtain ⟨rfl, rfl⟩ : [] = units ∧ phase = next := by simpa [run] using h
    rw [List.nil_append, emit_nil, Option.map_id]
    rfl
  | cons c cs ih =>
    -- the first step is the same for the part and for the whole
    cases hstep : step quote phase c with
    | none => simp [run, hstep] at h
    | some result =>
      obtain ⟨first, middle⟩ := result
      rw [run_cons_of_step hstep] at h
      obtain ⟨⟨more, last⟩, hmore, hemit⟩ := Option.map_eq_some_iff.mp h
      obtain ⟨rfl, rfl⟩ : first ++ more = units ∧ last = next := by simpa [emit] using hemit
      rw [List.cons_append, run_cons_of_step hstep, ih hmore, Option.map_map, emit_comp_emit]

/-! ## Escapes by number -/

/-- Two digits end an escape by `x`, and give one unit. -/
theorem run_hex_two {a b : Nat} (ha : a < 16) (hb : b < 16) :
    run quote (.hex 0 1) [Hex.upperDigit a, Hex.upperDigit b]
      = some ([(a * 16 + b).toUInt16], .body) := by
  simp [run, step, hexStep, Hex.value?_upperDigit ha, Hex.value?_upperDigit hb, emit]

/-- Four digits end an escape by `u`, and give one unit. -/
theorem run_unicode_four {a b c d : Nat} (ha : a < 16) (hb : b < 16) (hc : c < 16) (hd : d < 16) :
    run quote .unicode
        [Hex.upperDigit a, Hex.upperDigit b, Hex.upperDigit c, Hex.upperDigit d]
      = some ([(((a * 16 + b) * 16 + c) * 16 + d).toUInt16], .body) := by
  have hbrace : Hex.upperDigit a ≠ '\x7b' := by
    intro heq
    have hvalue := Hex.value?_upperDigit ha
    rw [heq] at hvalue
    exact absurd hvalue (by simp [Hex.value?])
  simp [run, step, hbrace, hexStep, Hex.value?_upperDigit ha, Hex.value?_upperDigit hb,
    Hex.value?_upperDigit hc, Hex.value?_upperDigit hd, emit]

/-- **A code unit written by number is read as that unit.** -/
theorem run_numeric (hquote : quote ≠ '\\') (u : CodeUnit) :
    run quote .body (Escape.numeric u) = some ([u], .body) := by
  have hlt := u.toNat_lt
  have hescape : step quote .body '\\' = some ([], .escape) := by
    simp [step, bodyStep, Ne.symm hquote]
  by_cases h : u.toNat < 0x100
  · have hletter : step quote .escape 'x' = some ([], .hex 0 1) := rfl
    rw [Escape.numeric_of_lt h, run_cons_of_step hescape, run_cons_of_step hletter,
      run_hex_two (by omega) (by omega), show u.toNat / 16 * 16 + u.toNat % 16 = u.toNat by omega]
    simp
  · have hletter : step quote .escape 'u' = some ([], .unicode) := rfl
    rw [Escape.numeric_of_le (by omega), run_cons_of_step hescape, run_cons_of_step hletter,
      run_unicode_four (by omega) (by omega) (by omega) (by omega),
      show ((u.toNat / 4096 * 16 + u.toNat / 256 % 16) * 16 + u.toNat / 16 % 16) * 16
          + u.toNat % 16 = u.toNat by omega]
    simp

/-- Codes by number give their units, one by one. -/
theorem run_flatMap_numeric (hquote : quote ≠ '\\') (us : List CodeUnit) :
    run quote .body (us.flatMap Escape.numeric) = some (us, .body) := by
  induction us with
  | nil => rfl
  | cons u us ih =>
    rw [List.flatMap_cons, run_append (run_numeric hquote u), ih]
    rfl

/-! ## Octal escapes -/

/-- No octal escape goes on with what is no octal digit. -/
theorem octalNext?_of_not_digit {c : Char} (h : octalDigit? c = none) (value left : Nat) :
    octalNext? value left c = none := by
  rw [octalNext?, h]

/-- A first digit always fits behind a zero. -/
theorem octalNext?_zero {c : Char} (h : (octalDigit? c).isSome = true) :
    ∃ value, octalNext? 0 2 c = some value := by
  obtain ⟨d, hd⟩ := Option.isSome_iff_exists.mp h
  have hle : d ≤ 7 := by
    unfold octalDigit? at hd
    split at hd
    · next hrange =>
      have hseven : c.toNat ≤ '7'.toNat := hrange.2
      simp at hd hseven
      omega
    · cases hd
  refine ⟨0 * 8 + d, ?_⟩
  rw [octalNext?, hd]
  exact if_pos ⟨by decide, by omega⟩

/-- **The end of an octal escape.** A character by which it does not go on is read as if it stood
alone, after the unit of the escape. -/
theorem run_octal_of_next_none {c : Char} {value left : Nat} (h : octalNext? value left c = none)
    (cs : List Char) :
    run quote (.octal value left) (c :: cs)
      = (run quote .body (c :: cs)).map (emit [value.toUInt16]) := by
  cases hbody : bodyStep quote c with
  | none => simp [run, step, h, hbody]
  | some result =>
    obtain ⟨units, next⟩ := result
    have hoctal : step quote (.octal value left) c = some (value.toUInt16 :: units, next) := by
      simp [step, h, hbody]
    have hplain : step quote .body c = some (units, next) := hbody
    rw [run_cons_of_step hoctal, run_cons_of_step hplain, Option.map_map, emit_comp_emit,
      List.singleton_append]

/-- A digit by which an octal escape goes on changes its value only. -/
theorem run_octal_of_next_some {c : Char} {value left value' : Nat}
    (h : octalNext? value left c = some value') (cs : List Char) :
    run quote (.octal value left) (c :: cs) = run quote (.octal value' (left - 1)) cs := by
  have hstep : step quote (.octal value left) c = some ([], .octal value' (left - 1)) := by
    simp [step, h]
  rw [run_cons_of_step hstep, emit_nil, Option.map_id]
  rfl

end Peg.Script
