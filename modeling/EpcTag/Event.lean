-- SUMMARY: The events a run records, each with its severity, its logger and its message.
import EpcTag.Error

/-!
# Events

A run records what it does as a list of events. An event holds the values it is
about; the logger it belongs to, its severity and its message are functions of
it. Debug events trace every scheme, field and rule that a conversion touches
and are shown on request only.
-/

namespace EpcTag

/-- How serious an event is. -/
inductive Severity where
  | debug
  | info
  | warning
  | error
  deriving DecidableEq, Repr

namespace Severity

/-- The severity as a number; a more serious one is larger. -/
def rank : Severity → Nat
  | .debug => 10
  | .info => 20
  | .warning => 30
  | .error => 40

def name : Severity → Text
  | .debug => "DEBUG"
  | .info => "INFO"
  | .warning => "WARNING"
  | .error => "ERROR"

end Severity

/-- The part of the library that records an event. -/
inductive Logger where
  | grammar
  | rules
  | codec
  | loader
  | resolver
  | engine
  | validation
  | command
  deriving DecidableEq, Repr

/-- The name of a logger. All names lie below that of the library. -/
def Logger.name : Logger → Text
  | .grammar => "tdt.grammar"
  | .rules => "tdt.rules"
  | .codec => "tdt.codec"
  | .loader => "tdt.loader"
  | .resolver => "tdt.resolver"
  | .engine => "tdt.engine"
  | .validation => "tdt.validation"
  | .command => "tdt.cli"

inductive Event where
  | grammarRendered (grammar result : Text)
  | ruleStarted (sequence : Option Int) (field : Scalar)
  | ruleFinished (function : Text) (field result : Scalar)
  | fieldDecoded (field value : Text)
  | fieldEncoded (field : Text) (value : Scalar) (bits : Text)
  | schemeBuilt (name : Text) (levels : List LevelType)
  | levelsTied (value : Text) (candidates : List LevelName)
  | levelChosen (value : Text) (chosen : LevelName)
  | tagLengthReplaced (value : Text) (hint : Int) (scheme : Text) (tagLength : Int)
  | schemesLoaded (names : List Text)
  | conversionStarted (value scheme : Text) (level : LevelType) (key output : Text)
  | conversionFinished (value result : Text)
  | prefixLengthInferred (length : Nat) (digits : Text)
  | violated (violation : Violation)
  | feedLineSkipped (number : Nat) (line : Text)
  | feedFinished (count : Nat)
  | tableLoaded (count : Nat)
  | definitionsLoading (path : Text)
  | commandStarted (value output : Text) (params : List (Text × Text))
  | commandFailed (kind message : Text)
  deriving DecidableEq, Repr

namespace Event

def severity : Event → Severity
  | .grammarRendered .. | .ruleStarted .. | .ruleFinished .. | .fieldDecoded ..
  | .fieldEncoded .. | .schemeBuilt .. | .levelsTied .. | .levelChosen .. | .schemesLoaded ..
  | .conversionStarted .. | .conversionFinished .. | .prefixLengthInferred ..
  | .commandStarted .. => .debug
  | .tagLengthReplaced .. | .feedFinished .. | .tableLoaded .. | .definitionsLoading .. => .info
  | .violated .. | .feedLineSkipped .. => .warning
  | .commandFailed .. => .error

/-- The logger that an event belongs to. -/
def logger : Event → Logger
  | .grammarRendered .. => .grammar
  | .ruleStarted .. | .ruleFinished .. => .rules
  | .fieldDecoded .. | .fieldEncoded .. => .codec
  | .schemeBuilt .. | .tableLoaded .. | .definitionsLoading .. => .loader
  | .levelsTied .. | .levelChosen .. | .tagLengthReplaced .. => .resolver
  | .schemesLoaded .. | .conversionStarted .. | .conversionFinished ..
  | .prefixLengthInferred .. | .feedLineSkipped .. | .feedFinished .. => .engine
  | .violated .. => .validation
  | .commandStarted .. | .commandFailed .. => .command

/-- Named values between braces, in their order, names and values quoted. -/
def quotedPairs (pairs : List (Text × Text)) : Text :=
  '\x7b' :: Text.joinWith ", " (pairs.map fun (key, value) =>
    Text.join [Text.quoted key, ": ", Text.quoted value]) ++ ['\x7d']

def message : Event → Text
  | .grammarRendered grammar result =>
    Text.join ["Grammar ", Text.quoted grammar, " rendered as ", Text.quoted result]
  | .ruleStarted sequence field =>
    Text.join ["Rule #", (sequence.map Text.ofInt).getD Scalar.null.shown, ": ", field.shown]
  | .ruleFinished function field result =>
    Text.join [function, " rule result: ", field.shown, " = ", result.shown]
  | .fieldDecoded field value => Text.join ["Field ", field, " = ", Text.quoted value]
  | .fieldEncoded field value bits =>
    Text.join ["Field ", field, " = ", value.quoted, " -> ", bits]
  | .schemeBuilt name levels =>
    Text.join ["Built scheme ", name, " with levels ",
      Text.joinWith ", " (levels.map LevelType.name)]
  | .levelsTied value candidates =>
    Text.join ["Several levels match ", Text.quoted value, ": ", LevelName.list candidates]
  | .levelChosen value chosen =>
    Text.join ["Input ", Text.quoted value, " matched ", LevelName.list [chosen]]
  | .tagLengthReplaced value hint scheme tagLength =>
    Text.join ["Input ", Text.quoted value, " has no level for tag length ", Text.ofInt hint,
      ", using ", scheme, " (tag length ", Text.ofInt tagLength, ")"]
  | .schemesLoaded names => Text.join ["Loaded schemes: ", Text.joinWith ", " names]
  | .conversionStarted value scheme level key output =>
    Text.join ["Converting ", Text.quoted value, " from ", scheme, " ", level.name, " option ",
      key, " to ", output]
  | .conversionFinished value result =>
    Text.join ["Converted ", Text.quoted value, " to ", Text.quoted result]
  | .prefixLengthInferred length digits =>
    Text.join ["Inferred company prefix length ", Text.ofNat length, " for ", digits]
  | .violated violation => violation.message
  | .feedLineSkipped number line =>
    Text.join ["Skipping company prefix line ", Text.ofNat number, ": ", Text.quoted line]
  | .feedFinished count => Text.join ["Added ", Text.ofNat count, " company prefix entries"]
  | .tableLoaded count =>
    Text.join ["Loaded ", Text.ofNat count, " company prefix index entries"]
  | .definitionsLoading path => Text.join ["Loading scheme definitions from ", path]
  | .commandStarted value output params =>
    Text.join ["convert ", value, " to ", output, " with ", quotedPairs params]
  | .commandFailed kind message => Text.join [kind, ": ", message]

/-- Is the event shown? Debug events are shown on request only. -/
def isShown (debug : Bool) (event : Event) : Bool :=
  debug || event.severity ≠ .debug

/-- An event as a line of a log, without the time and the line end. -/
def line (event : Event) : Text :=
  Text.join [event.logger.name, ": ", event.severity.name, ": ", event.message]

/-- The violations among the events, in their order. -/
def violations (events : List Event) : List Violation :=
  events.filterMap fun
    | .violated violation => some violation
    | _ => none

@[simp] theorem violations_nil : violations [] = [] := rfl

@[simp] theorem violations_append (earlier later : List Event) :
    violations (earlier ++ later) = violations earlier ++ violations later :=
  List.filterMap_append

/-- Exactly the events of violations belong to the validation logger. -/
theorem logger_eq_validation_iff (event : Event) :
    event.logger = .validation ↔ ∃ violation, event = .violated violation := by
  cases event <;> simp [logger]

end Event

end EpcTag
