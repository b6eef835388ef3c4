-- SUMMARY: Loggers and handlers: which records are written, and where.
import EpcTag.Event

/-!
# Logging

Loggers are named by paths, and the logger of a path stands above those of all
longer ones; the empty path is that of the root. A record is as serious as its
rank says, which need not be that of a severity. It is let through if it is as
serious as the nearest level asks that is set on its logger or above. Then it
goes to every handler on its logger or above, each of which has a level of its
own.

Setting logging up puts two or three handlers on one logger: one that writes to
the output what is no warning, one that writes warnings and errors to the error
output, and one that writes everything to a file. The handlers of the setup
before are taken away.
-/

namespace EpcTag

/-! ## Paths -/

/-- The path of a logger: the parts of its name. -/
abbrev LoggerPath := List Text

namespace LoggerPath

/-- The root, which stands above all loggers. -/
def root : LoggerPath := []

/-- The name of the root. -/
def rootName : Text := "root"

/-- The path that a name stands for. -/
def ofName (name : Text) : LoggerPath :=
  if name.isEmpty ∨ name = rootName then root else Text.splitAll '.' name

/-- The name of a path. -/
def name (path : LoggerPath) : Text :=
  if path.isEmpty then rootName else Text.joinWith "." path

/-- Is `upper` the same logger as `lower` or above it? -/
def isAbove (upper lower : LoggerPath) : Bool := upper.isPrefixOf lower

end LoggerPath

/-- Where a rank is asked for, a severity stands for its own. -/
instance : Coe Severity Int := ⟨fun severity => severity.rank⟩

/-- The ranks that have names. -/
def rankNames : List (Int × Text) :=
  (0, "NOTSET") :: (50, "CRITICAL") ::
  [Severity.debug, .info, .warning, .error].map fun severity : Severity =>
    (severity, severity.name)

/-- The name of a rank; one without a name is shown by its number. -/
def rankName (rank : Int) : Text :=
  (rankNames.lookup rank).getD (Text.join ["Level ", Text.ofInt rank])

@[simp] theorem rankName_severity (severity : Severity) : rankName severity = severity.name := by
  cases severity <;> rfl

/-- A record that was logged. -/
structure LogRecord where
  path : LoggerPath
  rank : Int
  message : Text
  deriving DecidableEq, Repr

namespace LogRecord

/-- A record as a line, without the line end. -/
def line (record : LogRecord) : Text :=
  Text.join [record.path.name, ": ", rankName record.rank, ": ", record.message]

/-- The record of an event. -/
def ofEvent (event : Event) : LogRecord :=
  ⟨.ofName event.logger.name, event.severity, event.message⟩

end LogRecord

/-! ## Handlers -/

/-- Where a handler writes. -/
inductive Sink where
  | output
  | errors
  | file (path : Text)
  deriving DecidableEq, Repr

/-- Does a filter that asks for ranks below a limit let a rank through? -/
def isBelow (limit rank : Int) : Bool := rank < limit

structure Handler where
  sink : Sink
  /-- Records that are less serious are not written. -/
  least : Severity
  /-- Only records below this are written, if it is given. -/
  below : Option Severity := none
  deriving DecidableEq, Repr

/-- Does a handler write records of a rank? -/
def Handler.accepts (handler : Handler) (rank : Int) : Bool :=
  handler.least.rank ≤ rank && handler.below.all fun limit => isBelow limit.rank rank

/-! ## The state of logging -/

structure Logging where
  /-- Are the debug records of conversions wanted? -/
  generalDebug : Bool := false
  /-- The levels that are set, each on one logger. -/
  levels : List (LoggerPath × Severity) := [(.root, .warning)]
  /-- All handlers, each with the logger it is on. -/
  handlers : List (LoggerPath × Handler) := []
  /-- The handlers of the last setup. -/
  installed : List (LoggerPath × Handler) := []
  deriving Repr

/-- How logging is set up. -/
structure LoggingSetup where
  debug : Bool := false
  logFile : Option Text := none
  target : LoggerPath := .root
  deriving DecidableEq, Repr

namespace LoggingSetup

/-- The least serious records that are written. -/
def level (setup : LoggingSetup) : Severity := if setup.debug then .debug else .info

/-- The path of the log file; an empty one asks for none. -/
def logFile? (setup : LoggingSetup) : Option Text := setup.logFile.filter (· ≠ [])

/-- The handlers of a setup. -/
def handlers (setup : LoggingSetup) : List Handler :=
  [⟨.output, setup.level, some .warning⟩, ⟨.errors, .warning, none⟩] ++
  (setup.logFile?.map fun path => Handler.mk (.file path) setup.level none).toList

end LoggingSetup

namespace Logging

/-- The level that is set on a logger. -/
def ownLevel? (logging : Logging) (path : LoggerPath) : Option Severity :=
  logging.levels.lookup path

/-- Logging with a level set on a logger. -/
def setLevel (logging : Logging) (path : LoggerPath) (level : Severity) : Logging :=
  { logging with levels := (path, level) :: logging.levels.filter fun entry => entry.1 ≠ path }

/-- The handlers on a logger. -/
def handlersOn (logging : Logging) (path : LoggerPath) : List Handler :=
  (logging.handlers.filter fun entry => entry.1 = path).map Prod.snd

/-- Logging after a setup: the handlers of the setup take the place of those of the
    one before, which are taken away one by one. -/
def setUp (logging : Logging) (setup : LoggingSetup) : Logging :=
  let added := setup.handlers.map fun handler => (setup.target, handler)
  let kept := logging.installed.foldl (fun handlers entry => handlers.erase entry) logging.handlers
  { Logging.setLevel logging setup.target setup.level with
    generalDebug := setup.debug
    handlers := kept ++ added
    installed := added }

/-- The loggers from a path up to the root. -/
def upward (path : LoggerPath) : List LoggerPath :=
  (List.range (path.length + 1)).reverse.map path.take

/-- The level that counts for a logger: the nearest one. -/
def effectiveLevel (logging : Logging) (path : LoggerPath) : Severity :=
  ((upward path).findSome? logging.ownLevel?).getD .warning

/-- Are records of a rank let through on a logger? -/
def isEnabled (logging : Logging) (path : LoggerPath) (rank : Int) : Bool :=
  (logging.effectiveLevel path).rank ≤ rank

/-- The handlers that a record on a logger reaches, nearest first. -/
def reached (logging : Logging) (path : LoggerPath) : List Handler :=
  (upward path).flatMap logging.handlersOn

/-- Lines as they are written, each to its place. -/
abbrev Written := List (Sink × Text)

/-- What a record writes. Where there is no handler at all, warnings and errors show
    their message alone. -/
def emit (logging : Logging) (record : LogRecord) : Written :=
  if logging.isEnabled record.path record.rank then
    match logging.reached record.path with
    | [] => if Severity.warning.rank ≤ record.rank then [(.errors, record.message)] else []
    | handlers =>
      (handlers.filter (·.accepts record.rank)).map fun handler => (handler.sink, record.line)
  else []

/-- What a debug record of a conversion writes: nothing unless it is wanted. -/
def emitDebug (logging : Logging) (path : LoggerPath) (message : Text) : Written :=
  if logging.generalDebug then logging.emit ⟨path, Severity.debug, message⟩ else []

/-- What records write, one after the other. -/
def emitAll (logging : Logging) (records : List LogRecord) : Written :=
  records.flatMap logging.emit

/-- The text that lines write to one place. -/
def Written.textOf (written : Written) (sink : Sink) : Text :=
  written.flatMap fun (place, line) => if place = sink then line ++ ['\n'] else []

example : (setUp {} {}).emit ⟨.ofName "tdt.engine", Severity.info, "m"⟩ =
    [(Sink.output, "tdt.engine: INFO: m".toList)] := by decide

example : emit {} ⟨.ofName "tdt", Severity.warning, "m"⟩ = [(Sink.errors, "m".toList)] := by decide

end Logging

end EpcTag
