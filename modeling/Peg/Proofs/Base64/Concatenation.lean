import Peg.Proofs.Base64.Decoding

/-!
# Base64 of a concatenation

Bytes are written three at a time. If those in front fill their groups, what comes behind starts a
group of its own, and the two texts join without a seam (**`encodeChars_append`**). If they do not,
their text ends in padding. Behind padding a text has only padding (**`eq_pad_of_behind_pad`**),
while what is written for any byte begins with the character of a number. So then the texts join
only if there is nothing to come: **`encode_append_eq_iff`**.
-/

namespace Peg.Base64

/-! ## Whole groups in front -/

theorem padding_eq_zero_iff (bytes : List UInt8) : padding bytes = 0 ↔ 3 ∣ bytes.length := by
  unfold padding
  omega

/-- **Whole groups are written by themselves**, whatever comes behind them. -/
theorem encodeChars_append {front : List UInt8} (h : 3 ∣ front.length) (back : List UInt8) :
    encodeChars (front ++ back) = encodeChars front ++ encodeChars back := by
  -- by groups: the length rules out a last group of one byte or two
  induction front using sextets.induct with
  | case1 => rfl
  | case2 a => simp at h
  | case3 a b => simp at h
  | case4 a b c rest ih =>
    have hrest : 3 ∣ rest.length := by
      simp only [List.length_cons] at h
      omega
    have hcons : a :: b :: c :: rest ++ back = a :: b :: c :: (rest ++ back) := rfl
    rw [hcons, encodeChars, encodeChars, ih hrest]
    simp

/-! ## Padding in front -/

/-- **Behind padding there is only padding.** -/
theorem eq_pad_of_behind_pad {bytes : List UInt8} {front back : List Char}
    (h : encodeChars bytes = front ++ '=' :: back) : ∀ c ∈ back, c = '=' := by
  intro c hc
  rw [encodeChars_eq] at h
  have hmem : c ∈ List.replicate (padding bytes) '=' := by
    rcases List.append_eq_append_iff.mp h with ⟨pads, -, hpads⟩ | ⟨digits, hdigits, hback⟩
    · simp [hpads, hc]
    · cases digits with
      | nil =>
        rw [List.nil_append] at hback
        simp [← hback, hc]
      | cons d digits =>
        -- the padding character would be one of the numbers'
        obtain ⟨rfl, -⟩ := List.cons.inj hback
        have hdigit : '=' ∈ (sextets bytes).map digit := by simp [hdigits]
        exact absurd hdigit (pad_not_mem_digits (sextets_lt bytes))
  exact List.eq_of_mem_replicate hmem

/-- Bytes that do not come in threes end in padding. -/
theorem encodeChars_ends_in_pad {bytes : List UInt8} (h : ¬ 3 ∣ bytes.length) :
    ∃ front, encodeChars bytes = front ++ ['='] := by
  obtain ⟨n, hn⟩ := Nat.exists_eq_succ_of_ne_zero (mt (padding_eq_zero_iff bytes).mp h)
  refine ⟨(sextets bytes).map digit ++ List.replicate n '=', ?_⟩
  rw [encodeChars_eq, hn, List.replicate_succ', List.append_assoc]

/-- What is written for bytes begins with the character of a number. -/
theorem encodeChars_starts_with_digit (a : UInt8) (rest : List UInt8) :
    ∃ c text, encodeChars (a :: rest) = c :: text ∧ c ≠ '=' := by
  have hsextets : ∃ v vs, sextets (a :: rest) = v :: vs := by
    match rest with
    | [] => exact ⟨_, _, rfl⟩
    | [_] => exact ⟨_, _, rfl⟩
    | _ :: _ :: _ => exact ⟨_, _, rfl⟩
  obtain ⟨v, vs, hvs⟩ := hsextets
  have hpad := pad_not_mem_digits (sextets_lt (a :: rest))
  rw [hvs, List.map_cons, List.mem_cons, not_or] at hpad
  refine ⟨digit v, vs.map digit ++ List.replicate (padding (a :: rest)) '=', ?_, Ne.symm hpad.1⟩
  rw [encodeChars_eq, hvs]
  rfl

/-- Behind padding nothing can be put: the code of the whole would have a digit where that of the
front has a pad. -/
theorem eq_nil_of_encodeChars_append {front back : List UInt8} (hfront : ¬ 3 ∣ front.length)
    (h : encodeChars (front ++ back) = encodeChars front ++ encodeChars back) : back = [] := by
  cases back with
  | nil => rfl
  | cons a rest =>
    obtain ⟨text, htext⟩ := encodeChars_ends_in_pad hfront
    obtain ⟨c, more, hmore, hc⟩ := encodeChars_starts_with_digit a rest
    rw [htext, hmore, List.append_assoc] at h
    exact absurd (eq_pad_of_behind_pad h c (List.mem_cons_self ..)) hc

/-! ## Texts -/

/-- **The text of a concatenation is the two texts joined exactly if the bytes in front fill their
groups, or none come behind.** -/
theorem encode_append_eq_iff (front back : List UInt8) :
    encode (front ++ back) = encode front ++ encode back ↔ 3 ∣ front.length ∨ back = [] := by
  have hchars : encode (front ++ back) = encode front ++ encode back
      ↔ encodeChars (front ++ back) = encodeChars front ++ encodeChars back := by
    unfold encode
    rw [← String.ofList_append, String.ofList_inj]
  rw [hchars]
  constructor
  · intro h
    by_cases hfront : 3 ∣ front.length
    · exact .inl hfront
    · exact .inr (eq_nil_of_encodeChars_append hfront h)
  · rintro (hfront | rfl)
    · exact encodeChars_append hfront back
    · simp [encodeChars]

-- Two bytes together, and one by one.
example : encode [0x66, 0x6F] = "Zm8=" ∧ encode [0x66] ++ encode [0x6F] = "Zg==bw==" := by decide

end Peg.Base64
