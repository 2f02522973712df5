import Peg.Proofs.Base64.Decoding
import Peg.Proofs.Escape.Plain

/-!
# Base64 between quotes

The text of bytes is made of the characters of the alphabet and of padding (`mem_encode`), and all
of them are printable. So escaping leaves it alone exactly if no delimiter of the literal stands in
it (**`escape_encode_eq_self_iff`**). Delimiters are punctuation, and of that the text has only `+`,
`/` and `=` (**`not_mem_encode_of_delimiter`**). A string closed by another quote takes any text as
it is; one closed by one of these three takes those in which the quote does not occur:
**`escaped_encode_eq_self`**.
-/

namespace Peg.Base64

open Escape

variable {bytes : List UInt8} {c : Char}

/-! ## The characters of a text -/

/-- A code is written in the alphabet and the pad. -/
theorem mem_encode (h : c ∈ (encode bytes).toList) : c ∈ alphabet ∨ c = '=' := by
  rw [encode, String.toList_ofList, encodeChars_eq] at h
  rcases List.mem_append.mp h with h | h
  · obtain ⟨v, hv, rfl⟩ := List.mem_map.mp h
    left
    rw [alphabet_eq]
    exact List.mem_map_of_mem (List.mem_range.mpr (sextets_lt bytes v hv))
  · right
    exact List.eq_of_mem_replicate h

/-- Every character of a code is printable, and is a letter, a digit or one of three marks. -/
theorem printable_of_mem_encode (h : c ∈ (encode bytes).toList) :
    isPrintable c = true ∧ (c.isAlphanum = true ∨ c ∈ ['+', '/', '=']) := by
  have halphabet : alphabet.all (fun c =>
      isPrintable c && (c.isAlphanum || decide (c ∈ ['+', '/', '=']))) = true := by
    decide +kernel
  rcases mem_encode h with h | rfl
  · have hc := List.all_eq_true.mp halphabet c h
    rwa [Bool.and_eq_true, Bool.or_eq_true, decide_eq_true_iff] at hc
  · decide

/-! ## Escaping -/

/-- Nothing in the text needs a code but a delimiter. -/
theorem escape_encode_eq_self_iff (literal : Literal) (bytes : List UInt8) :
    literal.escape (encode bytes) = encode bytes
      ↔ ∀ d ∈ literal.delimiters, d ∉ (encode bytes).toList := by
  rw [escape_eq_self_iff]
  constructor
  · intro h d hd hmem
    exact (h d hmem).2 hd
  · intro h c hc
    exact ⟨isPrintable_iff.mp (printable_of_mem_encode hc).1, fun hd => h c hd hc⟩

/-- A delimiter that is none of the three marks does not occur in a code. -/
theorem not_mem_encode_of_delimiter {literal : Literal} (h : literal.IsAccepted) {d : Char}
    (hd : d ∈ literal.delimiters) (hmark : d ∉ ['+', '/', '=']) :
    d ∉ (encode bytes).toList := by
  intro hmem
  -- letters and digits are no delimiters, and the rest of the text is excluded
  rcases (printable_of_mem_encode hmem).2 with halnum | hmem
  · exact h.not_mem_of_isAlphanum halnum hd
  · exact hmark hmem

/-- The backslash never occurs, so for a string it comes down to the quote. -/
theorem escape_quoted_encode_iff {quote : Char} (h : isQuote quote = true) (bytes : List UInt8) :
    (Literal.quoted quote).escape (encode bytes) = encode bytes
      ↔ quote ∉ (encode bytes).toList := by
  have haccepted : (Literal.quoted quote).IsAccepted := h
  have hbackslash : '\\' ∉ (encode bytes).toList :=
    not_mem_encode_of_delimiter haccepted (backslash_mem_delimiters _) (by decide)
  rw [escape_encode_eq_self_iff, Literal.delimiters]
  simp [hbackslash]

theorem quote_not_mem_encode {quote : Char} (h : isQuote quote = true)
    (hmark : quote ∉ ['+', '/', '=']) : quote ∉ (encode bytes).toList := by
  have haccepted : (Literal.quoted quote).IsAccepted := h
  exact not_mem_encode_of_delimiter haccepted (by simp [Literal.delimiters]) hmark

/-- **Bytes in base64 stand in a string literal as they are**, in double quotes and in any others
that do not occur in the text. Of the accepted quotes only `+`, `/` and `=` ever do. -/
theorem escaped_encode_eq_self (bytes : List UInt8) :
    Escape.string (encode bytes) = encode bytes ∧
      ∀ quote, isQuote quote = true →
        (stringWith (encode bytes) quote = .ok (encode bytes)
            ↔ quote ∉ (encode bytes).toList) ∧
          (quote ∉ ['+', '/', '='] → stringWith (encode bytes) quote = .ok (encode bytes)) := by
  have hquoted : ∀ quote, isQuote quote = true →
      (stringWith (encode bytes) quote = .ok (encode bytes)
        ↔ quote ∉ (encode bytes).toList) := by
    intro quote hquote
    rw [stringWith_of_isQuote hquote, Except.ok.injEq]
    exact escape_quoted_encode_iff hquote bytes
  refine ⟨?_, fun quote hquote => ⟨hquoted quote hquote, fun hmark => ?_⟩⟩
  · have hstandard : isQuote standardQuote = true := isAccepted_standardQuote
    exact (escape_quoted_encode_iff hstandard bytes).mpr
      (quote_not_mem_encode hstandard (by decide))
  · exact (hquoted quote hquote).mpr (quote_not_mem_encode hquote hmark)

/-- One byte whose text has two of the three marks, between an apostrophe, the third mark, and one
of the two. -/
theorem escaped_encode_eq_self_slash :
    (isQuote '\'' = true ∧ '\'' ∉ ['+', '/', '='] ∧
        stringWith (encode [0xFF]) '\'' = .ok (encode [0xFF])) ∧
      (isQuote '+' = true ∧ '+' ∉ (encode [0xFF]).toList ∧
        stringWith (encode [0xFF]) '+' = .ok (encode [0xFF])) ∧
      isQuote '/' = true ∧ '/' ∈ (encode [0xFF]).toList ∧
        stringWith (encode [0xFF]) '/' ≠ .ok (encode [0xFF]) := by
  have hplus : '+' ∉ (encode [0xFF]).toList := by decide
  have hslash : '/' ∈ (encode [0xFF]).toList := by decide
  obtain ⟨-, hall⟩ := escaped_encode_eq_self [0xFF]
  refine ⟨⟨by decide, by decide, (hall '\'' (by decide)).2 (by decide)⟩,
    ⟨by decide, hplus, (hall '+' (by decide)).1.mpr hplus⟩, by decide, hslash, ?_⟩
  intro h
  exact (hall '/' (by decide)).1.mp h hslash

end Peg.Base64
