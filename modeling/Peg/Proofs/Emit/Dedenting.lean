import Peg.Proofs.Emit.Fragments
import Peg.Proofs.Text.Margins

/-!
# Fragments without their indent

The indent of a fragment stands in front of every line but the empty one behind the last line feed.
The first line begins with a letter, so its margin is the indent and nothing else, whichever spaces
and tabs that is made of (**`margin_indented`**). Dedenting takes exactly this away, also in front
of lines with an indent of their own, and from the empty line there is nothing to take.

**`Emitter.dedent_ruleTrace`**: whatever the unit and the level, a dedented fragment is the one at
level zero.
-/

namespace Peg.Emit

open Text

/-! ## Valid options -/

/-- A valid indent unit is blank, as its blanks and tabs are. -/
theorem Options.isBlank_of_mem {o : Options} (h : o.validate = .ok ()) {c : Char}
    (hc : c ∈ o.indentUnit.toList) : isBlank c = true := by
  rcases (validate_eq_ok_iff.mp h).2 c hc with rfl | rfl
  · decide
  · decide

/-- A valid indent unit stays on its line. -/
theorem Options.feed_not_mem {o : Options} (h : o.validate = .ok ()) :
    '\n' ∉ o.indentUnit.toList := by
  intro hmem
  rcases (validate_eq_ok_iff.mp h).2 '\n' hmem with hspace | htab
  · exact absurd hspace (by decide)
  · exact absurd htab (by decide)

/-! ## Fragments -/

/-- The margin of an indented first line is its indent. -/
theorem margin_indented {front : String} (h : ∀ c ∈ front.toList, isBlank c = true) :
    margin (front ++ "peg$tracer.trace(\x7b").toList = front.toList := by
  have hfirst : margin "peg$tracer.trace(\x7b".toList = [] := by decide
  rw [String.toList_append, Block.margin_append h, hfirst, List.append_nil]

/-- At level zero there is nothing in front of the lines. -/
theorem fragment_zero (event : Event) (rule unit : String) :
    fragment event rule 0 unit = joinLines (fragmentLines event rule ++ [""]) := by
  have hlines : (fragmentLines event rule).map (Block.indentation 0 unit ++ ·)
      = fragmentLines event rule :=
    (List.map_congr_left fun _ _ => String.empty_append).trans (List.map_id' _)
  show joinLines ((fragmentLines event rule).map (Block.indentation 0 unit ++ ·)) ++ "\n" = _
  rw [hlines, joinLines_append_feed (areLines_fragmentLines event rule).nonempty]

/-- **Dedenting a fragment takes its indent away and nothing else.** -/
theorem dedent_fragment {unit : String} (event : Event) (rule : String) (level : Nat)
    (hblank : ∀ c ∈ unit.toList, isBlank c = true) (hfeed : '\n' ∉ unit.toList) :
    (Block.text (fragment event rule level unit)).dedent
      = .text (joinLines (fragmentLines event rule ++ [""])) := by
  let front := Block.indentation level unit
  have hfront : ∀ c ∈ front.toList, isBlank c = true :=
    fun c hc => hblank c (Block.mem_of_mem_indentation hc)
  have hsplit : (Block.text (fragment event rule level unit)).toLines
      = (fragmentLines event rule).map (front ++ ·) ++ [""] :=
    splitLines_fragment event rule level hfeed
  -- the first of these lines is the same for every event and rule
  have hlines : (fragmentLines event rule).map (front ++ ·) ++ [""]
      = (front ++ "peg$tracer.trace(\x7b") :: ((fragmentLines event rule).tail.map (front ++ ·)
        ++ [""]) := rfl
  have hstrip : ((fragmentLines event rule).map (front ++ ·)).map (Block.strip front.toList)
      = fragmentLines event rule := by
    rw [List.map_map]
    exact (List.map_congr_left fun line _ => Block.strip_front front line).trans (List.map_id' _)
  rw [Block.dedent_of_toLines (hsplit.trans hlines), margin_indented hfront]
  show Block.text (joinLines ((splitLines _).map _)) = _
  rw [splitLines_fragment event rule level hfeed, List.map_append, hstrip, List.map_singleton,
    Block.strip_empty]

/-! ## The emitter -/

/-- **The indent of a fragment is additive.** A fragment that was dedented is the one at level zero
with the default unit, whatever its own unit and level are. So emitters with different units, asked
for any levels, agree after dedenting. -/
theorem Emitter.dedent_ruleTrace {o : Options} {e : Emitter} (hnew : Emitter.ofOptions o = .ok e)
    (htrace : o.trace = true) (event : Event) (rule : String) (level : Nat) :
    (Block.text (e.ruleTrace event rule level)).dedent = .text (Emit.ruleTrace event rule 0) ∧
      ∀ o' e', Emitter.ofOptions o' = .ok e' → o'.trace = true → ∀ level',
        (Block.text (e.ruleTrace event rule level)).dedent
          = (Block.text (e'.ruleTrace event rule level')).dedent := by
  have hdedent : ∀ o e, Emitter.ofOptions o = .ok e → o.trace = true → ∀ level,
      (Block.text (e.ruleTrace event rule level)).dedent
        = .text (Emit.ruleTrace event rule 0) := by
    intro o e hnew htrace level
    obtain ⟨hvalid, rfl⟩ := Emitter.ofOptions_eq_ok_iff.mp hnew
    have htext : (Emitter.mk o).ruleTrace event rule level
        = fragment event rule level o.indentUnit := if_pos htrace
    rw [htext, dedent_fragment event rule level (fun _ => Options.isBlank_of_mem hvalid)
      (Options.feed_not_mem hvalid), Emit.ruleTrace, fragment_zero]
  refine ⟨hdedent o e hnew htrace level, fun o' e' hnew' htrace' level' => ?_⟩
  rw [hdedent o e hnew htrace, hdedent o' e' hnew' htrace']

/-- Three levels of a tab and a space, against one level of two spaces. -/
theorem Emitter.dedent_ruleTrace_tab :
    let o : Options := ⟨true, "\t "⟩
    let o' : Options := Options.traced
    Emitter.ofOptions o = .ok ⟨o⟩ ∧ o.trace = true ∧ Emitter.ofOptions o' = .ok ⟨o'⟩ ∧
      o'.trace = true ∧
      (Block.text ((Emitter.mk o).ruleTrace .fail " a\n\"" 3)).dedent
        = .text (Emit.ruleTrace .fail " a\n\"" 0) ∧
      (Block.text ((Emitter.mk o).ruleTrace .fail " a\n\"" 3)).dedent
        = (Block.text ((Emitter.mk o').ruleTrace .fail " a\n\"" 1)).dedent := by
  intro o o'
  have hvalid : o.validate = .ok () := Options.validate_eq_ok_iff.mpr ⟨by decide, by simp [o]⟩
  have hvalid' : o'.validate = .ok () :=
    Options.validate_eq_ok_iff.mpr ⟨by decide, by simp [o', Options.traced, Options.default,
      defaultIndentUnit]⟩
  have hnew : Emitter.ofOptions o = .ok ⟨o⟩ := Emitter.ofOptions_eq_ok_iff.mpr ⟨hvalid, rfl⟩
  have hnew' : Emitter.ofOptions o' = .ok ⟨o'⟩ := Emitter.ofOptions_eq_ok_iff.mpr ⟨hvalid', rfl⟩
  obtain ⟨hzero, hother⟩ := Emitter.dedent_ruleTrace hnew rfl .fail " a\n\"" 3
  exact ⟨hnew, rfl, hnew', rfl, hzero, hother o' ⟨o'⟩ hnew' rfl 1⟩

end Peg.Emit
