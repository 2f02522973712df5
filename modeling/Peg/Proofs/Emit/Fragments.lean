import Peg.Emit.Trace
import Peg.Proofs.Escape.Enclosure
import Peg.Proofs.Escape.Reading
import Peg.Proofs.Text.Lines

/-!
# A fragment says one event

A trace fragment is five lines that name an event, the name of a rule in a string literal, and a
place. The name can be any text, so it is up to the escaper that it neither ends its line
(**`areLines_fragmentLines`**) nor passes for another one (**`fragmentLines_inj`**). The indent in
front of every line is some spaces and tabs and not none, as valid options require
(**`Options.validate_eq_ok_iff`**), so it adds no lines either and its length gives the level away.

**`Emitter.ruleTrace_layout`**: with tracing on, a fragment has these five lines, each behind the
indent, and it can be told from it which event, rule and level it was emitted for.
-/

namespace Peg.Emit

open Text

/-! ## Options -/

/-- The indent of valid options is there, and is made of spaces and tabs. -/
theorem Options.validate_eq_ok_iff {o : Options} :
    o.validate = .ok () ↔
      o.indentUnit.toList ≠ [] ∧ ∀ c ∈ o.indentUnit.toList, c = ' ' ∨ c = '\t' := by
  have hempty : o.indentUnit.isEmpty = true ↔ o.indentUnit.toList = [] := by
    rw [String.isEmpty_iff, String.toList_eq_nil_iff]
  have hall : (o.indentUnit.toList.all fun c => c == ' ' || c == '\t') = true
      ↔ ∀ c ∈ o.indentUnit.toList, c = ' ' ∨ c = '\t' := by
    simp only [List.all_eq_true, Bool.or_eq_true, beq_iff_eq]
  unfold Options.validate
  split
  · next h => exact iff_of_false nofun fun hvalid => hvalid.1 (hempty.mp h)
  · next h =>
    split
    · next h' => exact iff_of_true rfl ⟨mt hempty.mpr h, hall.mp h'⟩
    · next h' => exact iff_of_false nofun fun hvalid => h' (hall.mpr hvalid.2)

/-- An emitter has valid options, and keeps them. -/
theorem Emitter.ofOptions_eq_ok_iff {o : Options} {e : Emitter} :
    Emitter.ofOptions o = .ok e ↔ o.validate = .ok () ∧ e = ⟨o⟩ := by
  unfold Emitter.ofOptions
  cases o.validate with
  | error cause => exact iff_of_false nofun nofun
  | ok _ =>
    constructor
    · rintro ⟨⟩
      exact ⟨rfl, rfl⟩
    · rintro ⟨-, rfl⟩
      rfl

/-! ## The lines -/

@[simp] theorem Event.ofName_name (event : Event) : Event.ofName event.name = .ok event := by
  cases event <;> rfl

theorem Event.name_inj {event event' : Event} (h : event.name = event'.name) : event = event' := by
  have hread : Event.ofName event'.name = .ok event := by simp [← h]
  simpa using hread.symm

/-- A line feed in a rule's name is escaped, so it does not end a line of the code. -/
theorem feed_not_mem_string (s : String) : '\n' ∉ (Escape.string s).toList := by
  intro hmem
  have hprint := (Escape.ascii_escape Escape.isAccepted_standardQuote s '\n' hmem).1
  exact absurd hprint (by decide)

/-- The code of an event consists of lines. -/
theorem areLines_fragmentLines (event : Event) (rule : String) :
    AreLines (fragmentLines event rule) := by
  have hname : '\n' ∉ event.name.toList := by cases event <;> decide
  have hlocation : '\n' ∉ event.location.toList := by cases event <;> decide
  refine ⟨List.cons_ne_nil _ _, ?_⟩
  simp [fragmentLines, hname, hlocation, feed_not_mem_string]

/-- The lines tell the event and the rule: the event by its name on one line, the rule by its
literal on another. -/
theorem fragmentLines_inj {event event' : Event} {rule rule' : String}
    (h : fragmentLines event rule = fragmentLines event' rule') :
    event = event' ∧ rule = rule' := by
  unfold fragmentLines at h
  simp only [List.cons.injEq, String.append_left_inj, String.append_right_inj] at h
  obtain ⟨-, hname, hrule, -⟩ := h
  exact ⟨Event.name_inj hname, Escape.escape_injective Escape.isAccepted_standardQuote hrule⟩

/-! ## The text -/

variable {unit : String}

/-- The lines of a fragment, and the empty one behind the last line feed. -/
theorem splitLines_fragment (event : Event) (rule : String) (level : Nat)
    (hunit : '\n' ∉ unit.toList) :
    splitLines (fragment event rule level unit)
      = (fragmentLines event rule).map (Block.indentation level unit ++ ·) ++ [""] := by
  have hlines : AreLines ((fragmentLines event rule).map (Block.indentation level unit ++ ·)) :=
    (areLines_fragmentLines event rule).map fun _ => Block.not_mem_indentation level hunit
  show splitLines (joinLines ((fragmentLines event rule).map _) ++ "\n") = _
  rw [joinLines_append_feed hlines.nonempty, splitLines_joinLines hlines.append_empty]

/-- Five lines end in five line feeds. -/
theorem count_fragment (event : Event) (rule : String) (level : Nat)
    (hunit : '\n' ∉ unit.toList) : (fragment event rule level unit).toList.count '\n' = 5 := by
  have hcount := count_joinLines (areLines_splitLines (fragment event rule level unit))
  rw [joinLines_splitLines, splitLines_fragment event rule level hunit, List.length_append,
    List.length_map] at hcount
  exact Nat.succ.inj hcount

/-- The last of them ends the text. -/
theorem getLast?_fragment (event : Event) (rule : String) (level : Nat) (unit : String) :
    (fragment event rule level unit).toList.getLast? = some '\n' := by
  rw [fragment, String.toList_append]
  exact List.getLast?_concat

/-- The width of an indentation tells its level, as the unit has some width. -/
theorem indentation_inj {level level' : Nat} (hunit : unit.toList ≠ [])
    (h : Block.indentation level unit = Block.indentation level' unit) : level = level' := by
  have hlength := congrArg (fun s => s.toList.length) h
  simp only [Block.length_indentation] at hlength
  exact Nat.eq_of_mul_eq_mul_right (List.length_pos_iff.mpr hunit) hlength

/-- **A fragment tells what it was emitted for.** Its first line is known, which leaves the indent;
and the lines without it are known then. -/
theorem fragment_inj {event event' : Event} {rule rule' : String} {level level' : Nat}
    (hfeed : '\n' ∉ unit.toList) (hunit : unit.toList ≠ [])
    (h : fragment event rule level unit = fragment event' rule' level' unit) :
    event = event' ∧ rule = rule' ∧ level = level' := by
  have hlines := congrArg splitLines h
  rw [splitLines_fragment event rule level hfeed, splitLines_fragment event' rule' level' hfeed,
    List.append_left_inj] at hlines
  have hindent : Block.indentation level unit = Block.indentation level' unit :=
    (String.append_left_inj _).mp (List.cons.inj hlines).1
  rw [hindent] at hlines
  have hinj : Function.Injective (Block.indentation level' unit ++ ·) :=
    fun _ _ => (String.append_right_inj _).mp
  obtain ⟨hevent, hrule⟩ := fragmentLines_inj (List.map_injective_iff.mpr hinj hlines)
  exact ⟨hevent, hrule, indentation_inj hunit hindent⟩

/-! ## The emitter -/

/-- **A fragment is five lines and says exactly one event.** Each line ends with a line feed and
stands behind the indent of its level, whatever the name of the rule holds; and no two events, names
or levels have the same fragment. -/
theorem Emitter.ruleTrace_layout {o : Options} {e : Emitter} (hnew : Emitter.ofOptions o = .ok e)
    (htrace : o.trace = true) :
    (∀ event rule level,
      (e.ruleTrace event rule level).toList.count '\n' = 5 ∧
      (e.ruleTrace event rule level).toList.getLast? = some '\n' ∧
      ∃ lines : List String, splitLines (e.ruleTrace event rule level) = lines ++ [""] ∧
        lines.length = 5 ∧
        ∀ line ∈ lines, (Block.indentation level o.indentUnit).toList <+: line.toList) ∧
    ∀ event rule level event' rule' level',
      e.ruleTrace event rule level = e.ruleTrace event' rule' level' →
        event = event' ∧ rule = rule' ∧ level = level' := by
  obtain ⟨hvalid, rfl⟩ := Emitter.ofOptions_eq_ok_iff.mp hnew
  obtain ⟨hunit, hblank⟩ := Options.validate_eq_ok_iff.mp hvalid
  have hfeed : '\n' ∉ o.indentUnit.toList := fun hmem => by
    rcases hblank '\n' hmem with h | h
    · exact absurd h (by decide)
    · exact absurd h (by decide)
  have htext : ∀ event rule level,
      (Emitter.mk o).ruleTrace event rule level = fragment event rule level o.indentUnit :=
    fun event rule level => if_pos htrace
  simp only [htext]
  constructor
  · intro event rule level
    refine ⟨count_fragment event rule level hfeed, getLast?_fragment .., _,
      splitLines_fragment event rule level hfeed, ?_, ?_⟩
    · rw [List.length_map]
      rfl
    · intro line hline
      obtain ⟨source, -, rfl⟩ := List.mem_map.mp hline
      rw [String.toList_append]
      exact List.prefix_append ..
  · intro event rule level event' rule' level'
    exact fragment_inj hfeed hunit

/-- A rule with a quote and a line feed in its name, and an indent of a tab. -/
theorem Emitter.ruleTrace_layout_tab :
    let o : Options := ⟨true, "\t"⟩
    Emitter.ofOptions o = .ok ⟨o⟩ ∧ o.trace = true ∧
      ((Emitter.mk o).ruleTrace .enter "a\"\nb" 2).toList.count '\n' = 5 ∧
      (Emitter.mk o).ruleTrace .enter "a\"\nb" 2 ≠ (Emitter.mk o).ruleTrace .enter "a" 2 := by
  intro o
  have hvalid : o.validate = .ok () := Options.validate_eq_ok_iff.mpr ⟨by decide, by simp [o]⟩
  have hnew : Emitter.ofOptions o = .ok ⟨o⟩ := Emitter.ofOptions_eq_ok_iff.mpr ⟨hvalid, rfl⟩
  obtain ⟨hlines, hinj⟩ := Emitter.ruleTrace_layout hnew rfl
  refine ⟨hnew, rfl, (hlines .enter "a\"\nb" 2).1, ?_⟩
  intro heq
  exact absurd (hinj _ _ _ _ _ _ heq).2.1 (by decide)

end Peg.Emit
