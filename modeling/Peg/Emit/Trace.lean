import Peg.Emit.Options
import Peg.Escape.Literal
import Peg.Text.Block

/-!
# Trace instrumentation

A generated parser can report what its rules do. Each report is a fragment of five lines that calls
`peg$tracer.trace` with an event; with tracing off there is no fragment, and nothing of it is left
in the parser. The fragments rely on the code around them for `peg$tracer`, `peg$computeLocation`,
`startPos` and, once a rule is done, `peg$currPos`.
-/

namespace Peg.Emit

open Text

/-- What a rule reports. -/
inductive Event
  | enter
  | succeed
  | fail
  deriving DecidableEq, Repr

namespace Event

def all : List Event := [enter, succeed, fail]

def name : Event → String
  | enter => "rule.enter"
  | succeed => "rule.match"
  | fail => "rule.fail"

def ofName (name : String) : Except Violation Event :=
  match all.find? fun event => event.name == name with
  | some event => .ok event
  | none => .error ⟨"Invalid event type: " ++ name ++ "."⟩

/-- The generated expression for the stretch of input an event is about. -/
def location : Event → String
  | enter => "peg$computeLocation(startPos, startPos, true)"
  | succeed | fail => "peg$computeLocation(startPos, peg$currPos, true)"

end Event

def fragmentLines (event : Event) (rule : String) : List String :=
  ["peg$tracer.trace(\x7b",
    "  type: \"" ++ event.name ++ "\",",
    "  rule: \"" ++ Escape.string rule ++ "\",",
    "  location: " ++ event.location,
    "\x7d);"]

/-- A fragment indented by `level` times `unit`, with a line feed at its end. -/
def fragment (event : Event) (rule : String) (level : Nat) (unit : String) : String :=
  ((Block.lines (fragmentLines event rule)).indent level unit).toText ++ "\n"

/-- A fragment with the default indent. -/
def ruleTrace (event : Event) (rule : String) (level : Nat) : String :=
  fragment event rule level defaultIndentUnit

def ruleEnterTrace (rule : String) (level : Nat) : String :=
  ruleTrace .enter rule level

/-- The width to which the default tracer pads the name of an event. -/
def typeColumnWidth : Nat := 10

/-- A tracer that logs every event, indented by how deep the rules are nested. -/
def defaultTracer : String :=
  joinLines [
    "function peg$DefaultTracer() \x7b",
    "  this.indentLevel = 0;",
    "\x7d",
    "",
    "peg$DefaultTracer.prototype.trace = function(event) \x7b",
    "  var that = this;",
    "",
    "  function log(event) \x7b",
    "    function repeat(string, n) \x7b",
    "       var result = \"\", i;",
    "",
    "       for (i = 0; i < n; i++) \x7b",
    "         result += string;",
    "       \x7d",
    "",
    "       return result;",
    "    \x7d",
    "",
    "    function pad(string, length) \x7b",
    "      return string + repeat(\" \", length - string.length);",
    "    \x7d",
    "",
    "    if (typeof console === \"object\") \x7b",
    "      console.log(",
    "        event.location.start.line + \":\" + event.location.start.column + \"-\"",
    "          + event.location.end.line + \":\" + event.location.end.column + \" \"",
    "          + pad(event.type, 10) + \" \"",
    "          + repeat(\"  \", that.indentLevel) + event.rule",
    "      );",
    "    \x7d",
    "  \x7d",
    "",
    "  switch (event.type) \x7b",
    "    case \"rule.enter\":",
    "      log(event);",
    "      this.indentLevel++;",
    "      break;",
    "",
    "    case \"rule.match\":",
    "      this.indentLevel--;",
    "      log(event);",
    "      break;",
    "",
    "    case \"rule.fail\":",
    "      this.indentLevel--;",
    "      log(event);",
    "      break;",
    "",
    "    default:",
    "      throw new Error(\"Invalid event type: \" + event.type + \".\");",
    "  \x7d",
    "\x7d;",
    ""]

/-! ### The emitter -/

/-- Emits trace fragments as its options say. -/
structure Emitter where
  options : Options
  deriving DecidableEq, Repr

namespace Emitter

/-- The emitter for valid options. -/
def ofOptions (o : Options) : Except OptionsError Emitter := do
  o.validate
  return ⟨o⟩

variable (e : Emitter)

def isEnabled : Bool := e.options.trace

/-- The fragment for an event, or nothing. -/
def ruleTrace (event : Event) (rule : String) (level : Nat) : String :=
  if e.isEnabled then fragment event rule level e.options.indentUnit else ""

/-- What emitting a fragment writes to the log. -/
def ruleTraceRecord (event : Event) (rule : String) (level : Nat) : Log.Record :=
  if e.isEnabled then
    ⟨.debug, "emitting " ++ event.name ++ " trace for rule " ++ rule ++ " at level " ++
      toString level⟩
  else ⟨.trace, "tracing disabled, stripping " ++ event.name ++ " for rule " ++ rule⟩

def ruleEnter (rule : String) (level : Nat) : String :=
  e.ruleTrace .enter rule level

def defaultTracer : String :=
  if e.isEnabled then Emit.defaultTracer else ""

inductive Request
  | isEnabled
  | ruleEnter (rule : String) (level : Nat)
  | ruleTrace (event rule : String) (level : Nat)
  | defaultTracer
  deriving DecidableEq, Repr

inductive Reply
  | flag (b : Bool)
  | code (text : String)
  | refused (violation : Violation)
  deriving DecidableEq, Repr

/-- Answers a request, and says what is written to the log meanwhile. -/
def reply : Request → Reply × List Log.Record
  | .isEnabled => (.flag e.isEnabled, [])
  | .ruleEnter rule level => (.code (e.ruleEnter rule level), [e.ruleTraceRecord .enter rule level])
  | .ruleTrace name rule level =>
    let event := Event.ofName name
    match event with
    | .ok event => (.code (e.ruleTrace event rule level), [e.ruleTraceRecord event rule level])
    -- nothing is emitted, and the log holds the violation alone
    | .error v => (.refused v, Violation.records event)
  | .defaultTracer => (.code e.defaultTracer, [])

end Emitter

end Peg.Emit
