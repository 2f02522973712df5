import Peg.Proofs.Emit.Fragments
import Peg.Proofs.Json.Records

/-!
# Options are checked wherever they come in

Options reach the emitter from a text, or from a caller who put them together. Either way they go
through the same check, and nothing else decides: a text that was written for some options is read
as these (**`readText_render`**), whatever characters the indent is made of, so that what reading
finds wrong is what was wrong with the options before they were written.

**`ofText_render_eq_validate`** puts the entry points side by side.
-/

namespace Peg.Emit

open Json

namespace Options

/-! ## From a text -/

/-- Options are read back where there is room for one object. -/
theorem readDraft_toJson (o : Options) (room : Nat) :
    record.readDraft room o.toJson.draft = Read.nested o.toJson.depth room o :=
  Record.readDraft_object
    (.set (f := Field.trace) rfl rfl (readBool_draft o.trace _)
      (.set (f := Field.indentUnit) rfl rfl (readString_draft o.indentUnit _) (.nil _))) rfl

/-- **The text of options is read as these options**, valid or not. -/
theorem readText_render (o : Options) : record.readText o.render = .ok o := by
  have hdepth : o.toJson.depth = 1 := rfl
  apply Record.readText_render (o.readDraft_toJson maxDepth)
  rw [hdepth]
  decide

/-- Options that were read are given out if they are valid. -/
theorem ofText_of_readText {text : String} {o : Options} (h : record.readText text = .ok o) :
    ofText text = o.validate.map fun _ => o := by
  unfold ofText
  rw [h]
  show (do o.validate; return o) = o.validate.map fun _ => o
  cases o.validate <;> rfl

/-- Options that come out of a text have been read from it and have passed the check. -/
theorem ofText_eq_ok_iff {text : String} {o : Options} :
    ofText text = .ok o ↔ record.readText text = .ok o ∧ o.validate = .ok () := by
  constructor
  · intro h
    cases hread : record.readText text with
    | error cause =>
      unfold ofText at h
      rw [hread] at h
      cases h
    | ok found =>
      rw [ofText_of_readText hread] at h
      cases hvalid : found.validate with
      | error cause =>
        rw [hvalid] at h
        cases h
      | ok _ =>
        rw [hvalid] at h
        cases h
        exact ⟨rfl, hvalid⟩
  · intro h
    rw [ofText_of_readText h.1, h.2]
    rfl

end Options

/-! ## From a caller -/

/-- There is an emitter for valid options, and for others the error that validation gives. -/
theorem Emitter.ofOptions_eq_validate (o : Options) :
    Emitter.ofOptions o = o.validate.map fun _ => ⟨o⟩ := by
  unfold Emitter.ofOptions
  cases o.validate <;> rfl

/-! ## The entry points agree -/

/-- **Options survive being written, and only valid ones come in.** Reading the text of options
gives them back if they are valid, and otherwise the error of their check; an emitter is made of
them in the same cases, which are those of an indent that is not empty and made of spaces and tabs.
No text gives options that are not valid. -/
theorem Options.ofText_render_eq_validate (o : Options) :
    ofText o.render = o.validate.map (fun _ => o) ∧
      Emitter.ofOptions o = o.validate.map (fun _ => ⟨o⟩) ∧
      (o.validate = .ok () ↔
        o.indentUnit ≠ "" ∧ ∀ c ∈ o.indentUnit.toList, c = ' ' ∨ c = '\t') ∧
      ∀ text, ofText text = .ok o → o.validate = .ok () := by
  refine ⟨ofText_of_readText o.readText_render, Emitter.ofOptions_eq_validate o, ?_, ?_⟩
  · rw [validate_eq_ok_iff, ne_eq, String.toList_eq_nil_iff]
  · intro text h
    exact (ofText_eq_ok_iff.mp h).2

/-- A text with an entry nobody asks for and without `trace`; and options that are written and
refused with all the characters of their indent. -/
theorem Options.ofText_render_eq_validate_escapes :
    let o : Options := ⟨false, "\t "⟩
    let text := "\x7b\"x\":[0],\"indentUnit\":\"\\t \"\x7d"
    let stray : Options := ⟨true, "\"\x00\u00e9"⟩
    ofText text = .ok o ∧ o.validate = .ok () ∧ ofText o.render = .ok o ∧
      ofText stray.render = .error (.strayIndentUnit "\"\x00\u00e9") := by
  intro o text stray
  let document : Json := object [("x", array [number ⟨false, 0, [], none⟩]),
    ("indentUnit", string "\t ")]
  have htext : document.render .compact = text := by rfl
  have hread : ofText text = .ok o := by
    rw [← htext, ofText, Record.readText, Json.readText_render]
    rfl
  obtain ⟨hback, -, -, hvalid⟩ := o.ofText_render_eq_validate
  have ho : o.validate = .ok () := hvalid text hread
  have hstray : stray.validate = .error (.strayIndentUnit stray.indentUnit) := by
    simp [stray, validate]
  refine ⟨hread, ho, ?_, ?_⟩
  · rw [hback, ho]
    rfl
  · rw [stray.ofText_render_eq_validate.1, hstray]
    rfl

end Peg.Emit
