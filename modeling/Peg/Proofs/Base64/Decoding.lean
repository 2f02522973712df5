import Peg.Base64

/-!
# Base64, read back

**`decode?`** is the decoder of RFC 4648, section 4, at its strictest: the length of the text is a
multiple of four, at most two characters of padding stand at the end, all others are of the
alphabet, and the bits of the last one that no byte takes are zero.

Writing and reading meet at the six-bit numbers between bytes and characters. What is written for
some bytes is their numbers as characters, and padding (`encodeChars_eq`). Characters and numbers
correspond one to one (`mapM_value?_eq_some_iff`), and so do numbers and bytes
(`bytesOf?_sextets`, `sextets_of_bytesOf?`), since the bits that have to be zero are those that
writing fills up. Padding is a matter of length alone (`length_sextets`). So a text is accepted
exactly if it is what is written for the bytes it is read as: **`decode?_eq_some_iff`**.
-/

namespace Peg.Base64

/-! ## The strict decoder -/

/-- The characters of the six-bit numbers, in order. -/
def alphabet : List Char :=
  "ABCDEFGHIJKLMNOPQRSTUVWXYZabcdefghijklmnopqrstuvwxyz0123456789+/".toList

/-- The number of a character. Padding has none. -/
def value? (c : Char) : Option Nat :=
  alphabet.idxOf? c

/-- Takes one padding character away from the end, if there is one. -/
def dropPad (text : List Char) : List Char :=
  if text.getLast? = some '=' then text.dropLast else text

/-- The byte in the first two numbers of a group. -/
def firstByte (x y : Nat) : UInt8 := (x * 4 + y / 16).toUInt8

/-- The byte in the second and the third number of a group. -/
def secondByte (y z : Nat) : UInt8 := (y % 16 * 16 + z / 4).toUInt8

/-- The byte in the last two numbers of a group. -/
def thirdByte (z w : Nat) : UInt8 := (z % 4 * 64 + w).toUInt8

/-- The bytes of six-bit numbers. The last group may be two or three numbers; there the bits behind
the last byte are zero. -/
def bytesOf? : List Nat → Option (List UInt8)
  | [] => some []
  | [_] => none
  | [x, y] => if y % 16 = 0 then some [firstByte x y] else none
  | [x, y, z] => if z % 4 = 0 then some [firstByte x y, secondByte y z] else none
  | x :: y :: z :: w :: rest =>
    (bytesOf? rest).map fun bytes => firstByte x y :: secondByte y z :: thirdByte z w :: bytes

/-- The bytes of a text in padded base64. -/
def decode? (text : String) : Option (List UInt8) :=
  if text.length % 4 = 0 then ((dropPad (dropPad text.toList)).mapM value?).bind bytesOf? else none

/-! ## Characters and numbers -/

/-- The alphabet lists the digits of all values in order. -/
theorem alphabet_eq : alphabet = (List.range 64).map digit := by
  decide +kernel

theorem value?_digit {v : Nat} (h : v < 64) : value? (digit v) = some v := by
  have hall : ∀ v : Fin 64, value? (digit v) = some v.val := by decide +kernel
  exact hall ⟨v, h⟩

/-- **A character has the number `v` exactly if it is the one written for `v`.** -/
theorem value?_eq_some_iff {c : Char} {v : Nat} : value? c = some v ↔ v < 64 ∧ digit v = c := by
  constructor
  · intro h
    obtain ⟨hlt, hget, -⟩ := List.idxOf?_eq_some_iff.mp h
    simp only [alphabet_eq, List.length_map, List.length_range] at hlt
    simp only [alphabet_eq, List.getElem_map, List.getElem_range] at hget
    exact ⟨hlt, hget⟩
  · rintro ⟨hlt, rfl⟩
    exact value?_digit hlt

/-- A text with values throughout is the text of these values' digits. -/
theorem mapM_value?_eq_some_iff {text : List Char} {vs : List Nat} :
    text.mapM value? = some vs ↔ (∀ v ∈ vs, v < 64) ∧ vs.map digit = text := by
  induction text generalizing vs with
  | nil =>
    rw [List.mapM_nil]
    constructor
    · intro h
      obtain rfl := Option.some.inj h
      exact ⟨List.forall_mem_nil _, rfl⟩
    · rintro ⟨-, hmap⟩
      rw [List.map_eq_nil_iff.mp hmap]
      rfl
  | cons c text ih =>
    rw [List.mapM_cons]
    constructor
    · intro h
      obtain ⟨v, hv, h⟩ := Option.bind_eq_some_iff.mp h
      obtain ⟨vs', hvs', h⟩ := Option.bind_eq_some_iff.mp h
      obtain rfl := Option.some.inj h
      obtain ⟨hlt, hdigit⟩ := value?_eq_some_iff.mp hv
      obtain ⟨hall, hmap⟩ := ih.mp hvs'
      refine ⟨List.forall_mem_cons.mpr ⟨hlt, hall⟩, ?_⟩
      rw [List.map_cons, hdigit, hmap]
    · rintro ⟨hall, hmap⟩
      obtain ⟨v, vs', rfl, hdigit, hmap⟩ := List.map_eq_cons_iff.mp hmap
      obtain ⟨hlt, hall⟩ := List.forall_mem_cons.mp hall
      rw [value?_eq_some_iff.mpr ⟨hlt, hdigit⟩, ih.mpr ⟨hall, hmap⟩]
      rfl

/-! ## Numbers and bytes -/

/-- The six-bit numbers of bytes, the last one filled up with zeros. -/
def sextets : List UInt8 → List Nat
  | [] => []
  | [a] => [a.toNat / 4, a.toNat % 4 * 16]
  | [a, b] => [a.toNat / 4, a.toNat % 4 * 16 + b.toNat / 16, b.toNat % 16 * 4]
  | a :: b :: c :: rest =>
    a.toNat / 4 :: (a.toNat % 4 * 16 + b.toNat / 16) :: (b.toNat % 16 * 4 + c.toNat / 64) ::
      c.toNat % 64 :: sextets rest

theorem toUInt8_eq {n : Nat} {a : UInt8} (h : n = a.toNat) : n.toUInt8 = a := by
  rw [h, Nat.toUInt8_eq, UInt8.ofNat_toNat]

@[simp] theorem toNat_toUInt8 {n : Nat} (h : n < 256) : n.toUInt8.toNat = n := by
  rw [Nat.toUInt8_eq, UInt8.toNat_ofNat', Nat.mod_eq_of_lt h]

/-- Three bytes make four sextets, and these make the bytes again; one and two bytes are the
ends. -/
theorem bytesOf?_sextets (bytes : List UInt8) : bytesOf? (sextets bytes) = some bytes := by
  -- group by group: a byte is cut at one place, and its two parts put together are the byte again
  induction bytes using sextets.induct with
  | case1 => rfl
  | case2 a =>
    have ha := a.toNat_lt
    have hfirst : firstByte (a.toNat / 4) (a.toNat % 4 * 16) = a := toUInt8_eq (by omega)
    rw [sextets, bytesOf?, if_pos (by omega), hfirst]
  | case3 a b =>
    have hb := b.toNat_lt
    have hfirst : firstByte (a.toNat / 4) (a.toNat % 4 * 16 + b.toNat / 16) = a :=
      toUInt8_eq (by omega)
    have hsecond : secondByte (a.toNat % 4 * 16 + b.toNat / 16) (b.toNat % 16 * 4) = b :=
      toUInt8_eq (by omega)
    rw [sextets, bytesOf?, if_pos (by omega), hfirst, hsecond]
  | case4 a b c rest ih =>
    have hb := b.toNat_lt
    have hc := c.toNat_lt
    have hfirst : firstByte (a.toNat / 4) (a.toNat % 4 * 16 + b.toNat / 16) = a :=
      toUInt8_eq (by omega)
    have hsecond : secondByte (a.toNat % 4 * 16 + b.toNat / 16) (b.toNat % 16 * 4 + c.toNat / 64)
        = b := toUInt8_eq (by omega)
    have hthird : thirdByte (b.toNat % 16 * 4 + c.toNat / 64) (c.toNat % 64) = c :=
      toUInt8_eq (by omega)
    rw [sextets, bytesOf?, ih, Option.map_some, hfirst, hsecond, hthird]

/-- The first byte is the first sextet and the upper two bits of the second. -/
theorem toNat_firstByte {x y : Nat} (hx : x < 64) (hy : y < 64) :
    (firstByte x y).toNat = x * 4 + y / 16 :=
  toNat_toUInt8 (by omega)

/-- The second byte is the lower four bits of the second sextet and the upper four of the third. -/
theorem toNat_secondByte {y z : Nat} (hz : z < 64) :
    (secondByte y z).toNat = y % 16 * 16 + z / 4 :=
  toNat_toUInt8 (by omega)

/-- The third byte is the lower two bits of the third sextet and the fourth. -/
theorem toNat_thirdByte {z w : Nat} (hw : w < 64) : (thirdByte z w).toNat = z % 4 * 64 + w :=
  toNat_toUInt8 (by omega)

/-- Sextets that make bytes are the sextets of these bytes: no bit is left over that could
differ. -/
theorem sextets_of_bytesOf? {vs : List Nat} {bytes : List UInt8} (hvs : ∀ v ∈ vs, v < 64)
    (h : bytesOf? vs = some bytes) : sextets bytes = vs := by
  induction vs using bytesOf?.induct generalizing bytes with
  | case1 =>
    obtain rfl := Option.some.inj h
    rfl
  | case2 => cases h
  | case3 x y hzero =>
    -- without `hzero` the four bits behind the byte would be lost
    simp only [List.forall_mem_cons] at hvs
    obtain ⟨hx, hy, -⟩ := hvs
    rw [bytesOf?, if_pos hzero] at h
    obtain rfl := Option.some.inj h
    rw [sextets, toNat_firstByte hx hy]
    congr 2 <;> omega
  | case4 x y hzero =>
    rw [bytesOf?, if_neg hzero] at h
    cases h
  | case5 x y z hzero =>
    simp only [List.forall_mem_cons] at hvs
    obtain ⟨hx, hy, hz, -⟩ := hvs
    rw [bytesOf?, if_pos hzero] at h
    obtain rfl := Option.some.inj h
    rw [sextets, toNat_firstByte hx hy, toNat_secondByte hz]
    congr 3 <;> omega
  | case6 x y z hzero =>
    rw [bytesOf?, if_neg hzero] at h
    cases h
  | case7 x y z w rest ih =>
    simp only [List.forall_mem_cons] at hvs
    obtain ⟨hx, hy, hz, hw, hrest⟩ := hvs
    rw [bytesOf?] at h
    obtain ⟨later, hlater, rfl⟩ := Option.map_eq_some_iff.mp h
    rw [sextets, toNat_firstByte hx hy, toNat_secondByte hz, toNat_thirdByte hw, ih hrest hlater]
    congr 4 <;> omega

/-! ## Padding -/

/-- The number of padding characters. -/
def padding (bytes : List UInt8) : Nat :=
  (3 - bytes.length % 3) % 3

theorem sextets_lt (bytes : List UInt8) : ∀ v ∈ sextets bytes, v < 64 := by
  induction bytes using sextets.induct with
  | case1 => exact List.forall_mem_nil _
  | case2 a =>
    have ha := a.toNat_lt
    simp only [sextets, List.forall_mem_cons]
    refine ⟨?_, ?_, List.forall_mem_nil _⟩ <;> omega
  | case3 a b =>
    have ha := a.toNat_lt
    have hb := b.toNat_lt
    simp only [sextets, List.forall_mem_cons]
    refine ⟨?_, ?_, ?_, List.forall_mem_nil _⟩ <;> omega
  | case4 a b c rest ih =>
    have ha := a.toNat_lt
    have hb := b.toNat_lt
    have hc := c.toNat_lt
    simp only [sextets, List.forall_mem_cons]
    refine ⟨?_, ?_, ?_, ?_, ih⟩ <;> omega

/-- With its padding, a code has four characters for every three bytes or part of three. -/
theorem length_sextets (bytes : List UInt8) :
    (sextets bytes).length + padding bytes = 4 * ((bytes.length + 2) / 3) := by
  unfold padding
  induction bytes using sextets.induct with
  | case1 => rfl
  | case2 a => simp only [sextets, List.length_cons, List.length_nil]
  | case3 a b => simp only [sextets, List.length_cons, List.length_nil]
  | case4 a b c rest ih =>
    simp only [sextets, List.length_cons]
    omega

/-- The digit taken from a group of bytes is that of the bits in question. -/
theorem sextet_eq {n later v : Nat} (h : (n >>> (6 * later)) % 64 = v) :
    sextet n later = digit v := by
  rw [sextet, h]

@[simp] theorem padding_cons_cons_cons (a b c : UInt8) (rest : List UInt8) :
    padding (a :: b :: c :: rest) = padding rest := by
  simp only [padding, List.length_cons]
  omega

/-- **What is written is the numbers as characters, and padding.** -/
theorem encodeChars_eq (bytes : List UInt8) :
    encodeChars bytes = (sextets bytes).map digit ++ List.replicate (padding bytes) '=' := by
  -- in each case the shifts of the group as one number are the quotients `sextets` writes down
  induction bytes using sextets.induct with
  | case1 => rfl
  | case2 a =>
    have ha := a.toNat_lt
    rw [encodeChars, sextets, sextet_eq (v := a.toNat / 4) (by omega),
      sextet_eq (v := a.toNat % 4 * 16) (by omega)]
    rfl
  | case3 a b =>
    have ha := a.toNat_lt
    have hb := b.toNat_lt
    rw [encodeChars, sextets, sextet_eq (v := a.toNat / 4) (by omega),
      sextet_eq (v := a.toNat % 4 * 16 + b.toNat / 16) (by omega),
      sextet_eq (v := b.toNat % 16 * 4) (by omega)]
    rfl
  | case4 a b c rest ih =>
    have ha := a.toNat_lt
    have hb := b.toNat_lt
    have hc := c.toNat_lt
    rw [encodeChars, sextets, sextet_eq (v := a.toNat / 4) (by omega),
      sextet_eq (v := a.toNat % 4 * 16 + b.toNat / 16) (by omega),
      sextet_eq (v := b.toNat % 16 * 4 + c.toNat / 64) (by omega),
      sextet_eq (v := c.toNat % 64) (by omega), ih, padding_cons_cons_cons]
    rfl

/-- The length of a code, padding included. -/
@[simp] theorem length_encodeChars (bytes : List UInt8) :
    (encodeChars bytes).length = 4 * ((bytes.length + 2) / 3) := by
  rw [encodeChars_eq, List.length_append, List.length_map, List.length_replicate, length_sextets]

theorem value?_pad : value? '=' = none := by
  decide

/-- Padding is told from the characters of numbers. -/
theorem pad_not_mem_digits {vs : List Nat} (hvs : ∀ v ∈ vs, v < 64) : '=' ∉ vs.map digit := by
  intro hmem
  obtain ⟨v, hv, hdigit⟩ := List.mem_map.mp hmem
  have hvalue : value? '=' = some v := value?_eq_some_iff.mpr ⟨hvs v hv, hdigit⟩
  rw [value?_pad] at hvalue
  cases hvalue

@[simp] theorem dropPad_append_pad (text : List Char) : dropPad (text ++ ['=']) = text := by
  rw [dropPad, if_pos List.getLast?_concat, List.dropLast_concat]

theorem dropPad_of_not_mem {text : List Char} (h : '=' ∉ text) : dropPad text = text := by
  rw [dropPad, if_neg]
  intro hlast
  exact h (List.mem_of_getLast? hlast)

/-- Text is what is left of it, and the padding character that was taken away, if any. -/
theorem exists_dropPad (text : List Char) :
    ∃ n ≤ 1, text = dropPad text ++ List.replicate n '=' := by
  unfold dropPad
  split
  · next hlast =>
    obtain ⟨front, rfl⟩ := List.getLast?_eq_some_iff.mp hlast
    exact ⟨1, Nat.le_refl 1, by rw [List.dropLast_concat]; rfl⟩
  · exact ⟨0, Nat.zero_le 1, (List.append_nil text).symm⟩

theorem padding_cases (bytes : List UInt8) :
    padding bytes = 0 ∨ padding bytes = 1 ∨ padding bytes = 2 := by
  unfold padding
  omega

/-- Two pads at the most are dropped, and what is left are the digits. -/
theorem dropPad_dropPad_encodeChars (bytes : List UInt8) :
    dropPad (dropPad (encodeChars bytes)) = (sextets bytes).map digit := by
  have hbody : '=' ∉ (sextets bytes).map digit := pad_not_mem_digits (sextets_lt bytes)
  rw [encodeChars_eq]
  -- padding goes first, and where there is less of it than two, the rest stops the search
  rcases padding_cases bytes with h | h | h
  · rw [h, List.replicate_zero, List.append_nil, dropPad_of_not_mem hbody,
      dropPad_of_not_mem hbody]
  · simp [h, dropPad_of_not_mem hbody]
  · rw [h, show List.replicate 2 '=' = ['='] ++ ['='] from rfl, ← List.append_assoc,
      dropPad_append_pad, dropPad_append_pad]

/-! ## Texts and bytes -/

/-- What was encoded decodes to the bytes. -/
theorem decode?_encode (bytes : List UInt8) : decode? (encode bytes) = some bytes := by
  have hlength : (encode bytes).length % 4 = 0 := by
    simp [encode]
  rw [decode?, if_pos hlength, encode, String.toList_ofList, dropPad_dropPad_encodeChars,
    mapM_value?_eq_some_iff.mpr ⟨sextets_lt bytes, rfl⟩, Option.bind_some, bytesOf?_sextets]

/-- What decodes is the code of what it decodes to, so there is one text for any bytes. -/
theorem encode_of_decode? {text : String} {bytes : List UInt8} (h : decode? text = some bytes) :
    encode bytes = text := by
  unfold decode? at h
  split at h
  · next hlength =>
    obtain ⟨vs, hvs, hbytes⟩ := Option.bind_eq_some_iff.mp h
    obtain ⟨hlt, hdigits⟩ := mapM_value?_eq_some_iff.mp hvs
    obtain rfl := sextets_of_bytesOf? hlt hbytes
    obtain ⟨m, hm, hlast⟩ := exists_dropPad text.toList
    obtain ⟨n, hn, hnext⟩ := exists_dropPad (dropPad text.toList)
    rw [hnext, ← hdigits, List.append_assoc, List.replicate_append_replicate] at hlast
    -- both texts are whole groups, so they are padded alike
    have hpads : n + m = padding bytes := by
      have hgroups := length_sextets bytes
      have htext := congrArg List.length hlast
      rw [String.length_toList, List.length_append, List.length_map, List.length_replicate] at htext
      have hpadding := padding_cases bytes
      omega
    rw [hpads, ← encodeChars_eq] at hlast
    rw [encode, ← hlast, String.ofList_toList]
  · cases h

/-- **A text is accepted exactly if it is what is written for the bytes it decodes to.** What is
written for some bytes is four characters for each three of them, and for what is left. -/
theorem decode?_eq_some_iff (text : String) (bytes : List UInt8) :
    (decode? text = some bytes ↔ encode bytes = text) ∧
      (encode bytes).length = 4 * ((bytes.length + 2) / 3) := by
  refine ⟨⟨encode_of_decode?, ?_⟩, ?_⟩
  · rintro rfl
    exact decode?_encode bytes
  · rw [encode, String.length_ofList, length_encodeChars]

-- One byte; the same with a bit set that no byte takes; and without its padding.
example : decode? "Zg==" = some [0x66] ∧ decode? "Zh==" = none ∧ decode? "Zg" = none := by
  decide +kernel

end Peg.Base64
