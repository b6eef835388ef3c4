-- SUMMARY: The engine: conversion of a value from one representation to another.
import EpcTag.CompanyPrefix
import EpcTag.FieldCoding
import EpcTag.Grammar
import EpcTag.NaturalOrder
import EpcTag.Resolution
import EpcTag.Rule.Evaluation
import EpcTag.Scheme.Building

/-!
# The engine

An engine holds schemes, lookup tables and a validator. A conversion finds the
scheme and the level of its input, selects the option of the level, takes the
field values from the input, derives further fields by the level's extract
rules and the output level's format rules, and renders the output.
-/

namespace EpcTag

/-- The extra values that a conversion is given, such as the filter of a tag. -/
abbrev Params := List (Text × Scalar)

namespace Params

/-- The value of a parameter; nothing if it is not given. -/
def get (params : Params) (name : Text) : Scalar := (params.lookup name).getD .null

/-- The parameters as the first values of a conversion, each as it is shown. -/
def toContext (params : Params) : Context :=
  Context.ofTexts (params.map fun (name, value) => (name, value.shown))

end Params

/-- A lookup table: its rows, each with the values of its columns. -/
abbrev Table := List (Pairs Text Scalar)

structure Engine where
  /-- The schemes in the natural order of their names. -/
  schemes : List Scheme
  index : LevelIndex
  companyPrefixes : CompanyPrefixTable
  tables : List (Text × Table)
  validator : Validator
  index_eq : index = LevelIndex.ofSchemes schemes := by rfl

namespace Engine

/-! ## Construction -/

/-- The parts of an engine besides its schemes. -/
structure Settings where
  companyPrefixes : CompanyPrefixTable := {}
  tables : List (Text × Table) := []
  strict : Bool := false

/-- The engine of the given schemes, which are put into natural order. -/
def ofSchemes (schemes : List Scheme) (settings : Settings) : Traced Engine := do
  let schemes ← Traced.ofExcept (NaturalOrder.sortBy Scheme.name schemes)
  Traced.ofExcept (LevelIndex.checkStarts schemes)
  Traced.record (.schemesLoaded (schemes.map Scheme.name))
  pure {
    schemes
    index := LevelIndex.ofSchemes schemes
    companyPrefixes := settings.companyPrefixes
    tables := settings.tables
    validator := ⟨settings.strict⟩ }

/-- The engine of the schemes that documents describe. -/
def ofDocuments (docs : List SchemeDocument) (settings : Settings) : Traced Engine := do
  ofSchemes (← Scheme.buildAll docs) settings

/-- The scheme of a name. -/
def scheme? (engine : Engine) (name : Text) : Option Scheme :=
  engine.schemes.find? (·.name == name)

/-! ## Table look-up -/

/-- The name of the table that the company prefix table serves. -/
def companyPrefixTableName : Text := "tdt64bitcpi"

/-- The output column of the first row that has the value in its input column and
    has an output column. A row without the input column has nothing there. -/
def findRow? (table : Table) (input output : Text) (value : Scalar) : Option Scalar :=
  table.findSome? fun row =>
    if ((row.get? input).getD .null).isSame value then row.get? output else none

/-- Answers the look-ups of rules. -/
def lookup (engine : Engine) : TableLookup := fun table input output value =>
  if table = companyPrefixTableName then
    (engine.companyPrefixes.lookup input output value).map .text
  else match (engine.tables.lookup table).bind (findRow? · input output value) with
    | some answer => .ok answer
    | none => .error (.lookup (.noRow input output value table))

/-! ## Selection of the option -/

/-- The option that the context asks for by the option key of a scheme. -/
def requestedKey (scheme : Scheme) (context : Context) : Option Text :=
  (context.get? scheme.optionKey).map Scalar.shown

/-- The options of a level that an input may have: those of the requested key, or
    all if none is requested or the level's inputs speak for themselves. -/
def eligible (level : Level) (requested : Option Text) : List LevelOption :=
  match requested with
  | some key =>
    if level.type.selfDescribing then level.options else level.options.filter (·.key == key)
  | none => level.options

/-- The options whose patterns match a value, with their matches. -/
def matching (options : List LevelOption) (value : Text) : List (LevelOption × Pattern.Match) :=
  options.filterMap fun option => (option.match? value).map fun found => (option, found)

/-- The option of a value and its match. If several match, the requested one is
    taken. -/
def select (scheme : Scheme) (level : Level) (value : Text) (context : Context) :
    Except Error (LevelOption × Pattern.Match) :=
  let requested := requestedKey scheme context
  match matching (eligible level requested) value with
  | [] => .error (.noMatch (.noOption scheme.name level.type value))
  | [only] => .ok only
  | several =>
    match several.filter fun candidate => some candidate.1.key == requested with
    | [settled] => .ok settled
    | _ => .error (.ambiguous (.options (several.map (·.1.key)) scheme.name level.type value
        scheme.optionKey))

/-! ## Conversion -/

/-- The start of every EPC URI. -/
def uriStart : Text := "urn:epc:"

/-- The name under which the context holds the tag length. -/
def tagLengthName : Text := "taglength"

/-- A value as it is matched: the escapes of a URI are undone. -/
def plainValue (value : Text) : Text :=
  if Text.startsWith value uriStart then UriEscape.unescape value else value

/-- The option of the output level that belongs to an option key, with its level. -/
def outputOption (scheme : Scheme) (output key : Text) : Except Error (Level × LevelOption) :=
  match scheme.levelNamed? output with
  | none => .error (.definition (.missingLevel scheme.name output))
  | some level =>
    match level.option? key with
    | none => .error (.definition (.missingOption output scheme.name key))
    | some option => .ok (level, option)

/-- The output of an option whose fields are in the context: bits at the binary
    level, and text everywhere else. -/
def renderOutput (engine : Engine) (output : Text) (option : LevelOption)
    (tagOption : Option LevelOption) (context : Context) : Traced Text :=
  if output = LevelType.binary.name then do
    let encoded ← option.encode engine.validator context tagOption
    Grammar.render (← option.grammar.operand) (context.insertAll (Context.ofTexts encoded)) output
  else do
    option.validate engine.validator context
    Grammar.render (← option.grammar.operand) context output

/-- Converts a value to the level of the given name. `inputLevel` is the only level
    to search for the value, `tagLength` the tag length that is asked for. -/
def convertFromLevel (engine : Engine) (value : Text) (inputLevel : Option Text)
    (tagLength : Scalar) (params : Params) (output : Text) : Traced Text := do
  let value := plainValue value
  let ⟨scheme, level⟩ ← engine.index.resolve value tagLength inputLevel
  let context := params.toContext.insert (.text tagLengthName)
    (.text (Text.ofInt scheme.tagLength))
  let (option, found) ← Traced.ofExcept (select scheme level value context)
  let context := context.insert scheme.optionKey (.text option.key)
  Traced.record (.conversionStarted value scheme.name level.type option.key output)
  let tagOption := scheme.tagOption? option.key
  let values ← option.decode engine.validator found (level.type = .binary) tagOption
  let context := context.insertAll (Context.ofTexts values)
  let context ← Rules.derive engine.lookup context level.extractRules
  let (outputLevel, outputOption) ← Traced.ofExcept (outputOption scheme output option.key)
  let context ← Rules.derive engine.lookup context outputLevel.formatRules
  let result ← engine.renderOutput output outputOption tagOption context
  Traced.record (.conversionFinished value result)
  pure result

/-- Converts a value of any level to the level of the given name. The tag length is
    asked for by the parameter of that name. -/
def convert (engine : Engine) (value : Text) (params : Params) (output : Text) : Traced Text :=
  engine.convertFromLevel value none (params.get tagLengthName) params output

end Engine

end EpcTag
