-- SUMMARY: The commands, their options, and the errors of using them.
import EpcTag.CommandLine.Arguments
import EpcTag.CommandLine.Files
import EpcTag.Context
import EpcTag.Error
import EpcTag.Text.UpperCase

/-!
# Commands

A command line names options that every command has, then a command, then the
options and operands of that command. Files that an option names must be there.
Names of levels are written in any case.
-/

namespace EpcTag.CommandLine

/-! ## Usage errors -/

/-- How a command line can be wrong. -/
inductive UsageError where
  | arguments (cause : ArgumentError)
  | missingCommand
  | unknownCommand (name : Text)
  | missingOperand (name : Text)
  | extraOperands (operands : List Text)
  | missingOption (name : Text)
  | unknownLevel (name : Text)
  | unreadableFile (path : Text)
  | badOperand (fault : Error)
  deriving DecidableEq, Repr

def ArgumentError.message : ArgumentError → Text
  | .unknownOption argument => Text.join ["no such option: ", argument]
  | .missingValue name => Text.join ["option --", name, " needs a value"]
  | .unexpectedValue name => Text.join ["option --", name, " takes no value"]

def UsageError.message : UsageError → Text
  | .arguments cause => cause.message
  | .missingCommand => "missing command"
  | .unknownCommand name => Text.join ["no such command: ", name]
  | .missingOperand name => Text.join ["missing ", name]
  | .extraOperands operands => Text.join ["unexpected: ", Text.joinWith " " operands]
  | .missingOption name => Text.join ["missing option --", name]
  | .unknownLevel name => Text.join ["no such level: ", name]
  | .unreadableFile path => Text.join ["cannot read ", path]
  | .badOperand fault => fault.message?.getD []

/-! ## Options of all commands -/

/-- The options that stand in front of the command. -/
structure GlobalOptions where
  debug : Bool := false
  logFile : Option Text := none
  strict : Bool := false
  /-- Definition files to use instead of the built-in schemes. -/
  schemeFiles : List Text := []
  /-- The file of a company prefix table. -/
  prefixTable : Option Text := none
  /-- The file of a company prefix feed. -/
  prefixFeed : Option Text := none
  deriving DecidableEq, Repr

namespace GlobalOptions

/-- What the options are called. -/
def specs : List OptionSpec :=
  [⟨"debug", some 'd', false⟩, ⟨"logfile", some 'l', true⟩, ⟨"strict", none, false⟩,
    ⟨"scheme-file", some 's', true⟩, ⟨"gepc64-table", some 'g', true⟩,
    ⟨"company-prefixes", some 'c', true⟩]

def ofGiven (options : List GivenOption) : GlobalOptions where
  debug := isGiven options "debug"
  logFile := lastValue? options "logfile"
  strict := isGiven options "strict"
  schemeFiles := allValues options "scheme-file"
  prefixTable := lastValue? options "gepc64-table"
  prefixFeed := lastValue? options "company-prefixes"

/-- The first path among the options at which nothing can be read. A feed must be a
    file; what is typed in can always be read. -/
def unreadable? (options : GlobalOptions) (files : Files) : Option Text :=
  ((options.schemeFiles ++ options.prefixTable.toList).find? fun path => !files.has path).or
    (options.prefixFeed.filter fun path => (files.contentOrTyped? path).isNone)

/-- All paths that the options name. -/
def paths (options : GlobalOptions) : List Text :=
  options.schemeFiles ++ options.prefixTable.toList ++ options.prefixFeed.toList ++
    options.logFile.toList.flatMap fun path => [path, Files.parent path]

end GlobalOptions

/-! ## Commands -/

/-- What a conversion is asked for. -/
structure ConvertRequest where
  value : Text
  output : LevelType
  input : Option LevelType
  params : Pairs Text Text
  deriving DecidableEq, Repr

inductive CommandName where
  | convert
  | hexToBits
  | bitsToHex
  | schemes
  | version
  deriving DecidableEq, Repr

inductive Command where
  | convert (request : ConvertRequest)
  | hexToBits (digits : Text)
  | bitsToHex (bits : Text)
  | schemes
  | version
  deriving DecidableEq, Repr

/-- The command of a name. -/
def CommandName.ofText? (name : Text) : Option CommandName :=
  [("convert".toList, CommandName.convert), ("hex2bin", .hexToBits), ("bin2hex", .bitsToHex),
    ("schemes", .schemes), ("version", .version)].lookup name

/-- The level that is written in any case. -/
def readLevel (name : Text) : Except UsageError LevelType :=
  match LevelType.all.find? fun level => Text.foldCase level.name = Text.foldCase name with
  | some level => .ok level
  | none => .error (.unknownLevel name)

/-- The pairs of arguments `name=value`. White space around names and values does
    not count, and of two values for one name the later counts. -/
def readParams (arguments : List Text) : Except Error (Pairs Text Text) :=
  arguments.foldlM (fun pairs argument =>
    match Text.splitFirst '=' argument with
    | some (name, value) =>
      if name.isEmpty then .error (.fault (.notAPair argument))
      else .ok (Pairs.insert pairs (Text.trim name) (Text.trim value))
    | none => .error (.fault (.notAPair argument))) []

/-- The single operand of a command. -/
def singleOperand (name : Text) (operands : List Text) : Except UsageError Text :=
  match operands with
  | [] => .error (.missingOperand name)
  | [operand] => .ok operand
  | _ :: others => .error (.extraOperands others)

/-- The options of a conversion. -/
def convertSpecs : List OptionSpec :=
  [⟨"output-level", some 'o', true⟩, ⟨"input-level", some 'i', true⟩, ⟨"param", some 'p', true⟩]

/-- Arguments split by the options that a command knows. -/
def splitFor (specs : List OptionSpec) (arguments : List Text) :
    Except UsageError (List GivenOption × List Text) :=
  (splitArguments specs true arguments).mapError .arguments

/-- The command of a name with its own arguments. -/
def Command.parse (name : CommandName) (arguments : List Text) : Except UsageError Command :=
  match name with
  | .convert => do
    let (options, operands) ← splitFor convertSpecs arguments
    let value ← singleOperand "value" operands
    let some output := lastValue? options "output-level"
      | .error (.missingOption "output-level")
    let output ← readLevel output
    let input ← (lastValue? options "input-level").mapM readLevel
    let params ← (readParams (allValues options "param")).mapError .badOperand
    .ok (.convert ⟨value, output, input, params⟩)
  | .hexToBits => do .ok (.hexToBits (← singleOperand "digits" (← splitFor [] arguments).2))
  | .bitsToHex => do .ok (.bitsToHex (← singleOperand "bits" (← splitFor [] arguments).2))
  | .schemes => do
    match (← splitFor [] arguments).2 with
    | [] => .ok .schemes
    | operands => .error (.extraOperands operands)
  | .version => do
    match (← splitFor [] arguments).2 with
    | [] => .ok .version
    | operands => .error (.extraOperands operands)

/-- The options in front of the command, the name of the command and the arguments
    behind it. -/
def splitCommandLine (arguments : List Text) :
    Except UsageError (GlobalOptions × List Text) := do
  let (options, rest) ← (splitArguments GlobalOptions.specs false arguments).mapError .arguments
  .ok (.ofGiven options, rest)

end EpcTag.CommandLine
