-- SUMMARY: Runs of the command line: what is printed, what is logged, and how a run ends.
import EpcTag.Builtin
import EpcTag.CommandLine.Command
import EpcTag.CompanyPrefix.Definition
import EpcTag.Engine.PrefixFeed
import EpcTag.Logging.Basic
import EpcTag.Scheme.Definition
import EpcTag.Text.Lines

/-!
# Runs

A run reads its options, sets logging up, and runs its command. A library error
is logged and ends the run with code one, and so does a fault, which is not
logged. Wrong usage ends it with code two; if the options in front of the command
are right and the command exists, logging is set up even then.
-/

namespace EpcTag.CommandLine

/-- How a run ends. -/
inductive Ending where
  | done
  | failed
  /-- A fault that the run does not handle. -/
  | stopped (fault : Error)
  | misused (cause : UsageError)
  deriving DecidableEq, Repr

/-- The exit code of an ending. -/
def Ending.code : Ending → Nat
  | .done => 0
  | .failed | .stopped _ => 1
  | .misused _ => 2

/-- What a run leaves behind. -/
structure Outcome where
  ending : Ending
  output : Text := []
  errors : Text := []
  /-- The path of the log file, if one was opened, and the text added to it. -/
  logged : Option (Text × Text) := none
  deriving DecidableEq, Repr

/-! ## Engines -/

/-- A file to read a document from. -/
def sourceAt (files : Files) (path : Text) : Except Error Xml.Source :=
  match files.entry path with
  | .file content => .ok ⟨path, content⟩
  | .directory => .error (.fault (.isDirectory path))
  | .missing => .error (.fault (.missingFile path))

/-- The documents of the schemes that definition files define. -/
def loadDefinitions (files : Files) : List Text → Traced (List SchemeDocument)
  | [] => pure []
  | path :: rest => do
    Traced.record (.definitionsLoading path)
    let docs ← Traced.ofExcept ((sourceAt files path).bind SchemeDocument.parse)
    pure (docs ++ (← loadDefinitions files rest))

/-- The engine that the options ask for. -/
def makeEngine (files : Files) (options : GlobalOptions) : Traced Engine := do
  let companyPrefixes ← (match options.prefixTable with
    | some path => do CompanyPrefixTable.parse (← Traced.ofExcept (sourceAt files path))
    | none => pure {})
  let settings : Engine.Settings := { companyPrefixes, strict := options.strict }
  let engine ← (if options.schemeFiles.isEmpty then Engine.builtin settings
    else do Engine.ofDocuments (← loadDefinitions files options.schemeFiles) settings)
  match options.prefixFeed.bind files.contentOrTyped? with
  | some feed => do
    let (engine, run) := engine.addCompanyPrefixes ((Text.lines feed).map FeedLine.text)
    let _ ← run
    pure engine
  | none => pure engine

/-! ## Commands -/

/-- The version that the command line shows. -/
def versionNumber : Text := "1.0.0"

/-- A scheme as the list of schemes shows it. -/
def schemeLine (scheme : Scheme) : Text :=
  Text.join [scheme.name, " (", Text.ofInt scheme.tagLength, " bits): ",
    Text.joinWith ", " (scheme.levels.map fun level => level.type.name)]

/-- The result of a conversion. -/
def runConvert (files : Files) (options : GlobalOptions) (request : ConvertRequest) :
    Traced Text := do
  Traced.record (.commandStarted request.value request.output.name request.params)
  let engine ← makeEngine files options
  let params : Params := request.params.map fun (name, value) => (name, .text value)
  match request.input with
  | some input =>
    engine.convertFromLevel request.value (some input.name) (params.get Engine.tagLengthName) params
      request.output.name
  | none => engine.convert request.value params request.output.name

/-- The lines that a command prints. -/
def Command.run (files : Files) (options : GlobalOptions) : Command → Traced (List Text)
  | .convert request => do pure [← runConvert files options request]
  | .hexToBits digits => do pure [← Bits.ofHex digits]
  | .bitsToHex bits => do pure [← Bits.toHex bits]
  | .schemes => do pure ((← makeEngine files options).schemes.map schemeLine)
  | .version => pure [versionNumber]

/-- Is a fault of the command the fault of its operand? -/
def Command.blamesOperand : Command → Bool
  | .hexToBits _ | .bitsToHex _ => true
  | _ => false

/-! ## Runs -/

/-- How a command that failed ends, and what it still records. -/
def endingOf (command : Command) (error : Error) : Ending × List Event :=
  match error.kind? with
  | some kind => (.failed, [.commandFailed kind (error.message?.getD [])])
  | none =>
    if command.blamesOperand then (.misused (.badOperand error), []) else (.stopped error, [])

/-- The outcome of a command under a setup of logging. -/
def outcomeOf (setup : LoggingSetup) (command : Command) (run : Traced (List Text)) : Outcome :=
  let (ending, printed, events) := match run.outcome with
    | .ok lines => (Ending.done, lines, [])
    | .error error =>
      let (ending, events) := endingOf command error
      (ending, [], events)
  let logging := Logging.setUp {} setup
  let written := logging.emitAll ((run.events ++ events).map LogRecord.ofEvent)
  { ending
    output := written.textOf .output ++ printed.flatMap fun line => line ++ ['\n']
    errors := written.textOf .errors
    logged := setup.logFile?.map fun path => (path, written.textOf (.file path)) }

/-- The fault of opening a log file, if it cannot be opened: its directory must be
    there, and it must not be a directory itself. -/
def logFault? (files : Files) (path : Text) : Option Error :=
  match files.entry path with
  | .file _ => none
  | .directory => some (.fault (.isDirectory path))
  | .missing =>
    if files.entry (Files.parent path) = .directory then none else some (.fault (.missingFile path))

/-- The outcome of a command whose options are right, given what stands behind its
    name. -/
def runCommand (files : Files) (options : GlobalOptions) (name : CommandName)
    (arguments : List Text) : Outcome :=
  let setup : LoggingSetup := { debug := options.debug, logFile := options.logFile }
  match setup.logFile?.bind (logFault? files) with
  | some fault => { ending := .stopped fault }
  | none =>
    match Command.parse name arguments with
    | .error cause =>
      { ending := .misused cause, logged := setup.logFile?.map fun path => (path, []) }
    | .ok command => outcomeOf setup command (command.run files options)

/-- The outcome of a command line. -/
def run (files : Files) (arguments : List Text) : Outcome :=
  match splitCommandLine arguments with
  | .error cause => { ending := .misused cause }
  | .ok (options, rest) =>
    match options.unreadable? files with
    | some path => { ending := .misused (.unreadableFile path) }
    | none =>
      match rest with
      | [] => { ending := .misused .missingCommand }
      | name :: arguments =>
        match CommandName.ofText? name with
        | none => { ending := .misused (.unknownCommand name) }
        | some command => runCommand files options command arguments

end EpcTag.CommandLine
