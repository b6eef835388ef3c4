-- SUMMARY: What can go wrong, by cause, and the message of every cause.
import EpcTag.Scalar
import EpcTag.Scheme.LevelType

/-!
# Errors

Every failure is a value that names its cause and holds what its message shows.
Library errors fall into thirteen kinds, whose names a command shows in front of
the message. A fault is a failure outside these kinds: a text that is no number
where the caller promised one, a definition with a value of the wrong sort, a
byte that is not ASCII. Some faults have no message of their own.
-/

namespace EpcTag

/-! ## Violations -/

/-- How a field value breaks the limits declared for it. -/
inductive Violation.Limit where
  | characterSet (set : Text)
  | minimum (bound : Scalar)
  | maximum (bound : Scalar)
  deriving DecidableEq, Repr

/-- A field value outside a declared limit. -/
structure Violation where
  field : Text
  value : Text
  limit : Violation.Limit
  deriving DecidableEq, Repr

/-- The message of a violation, the same whether it is raised or logged. -/
def Violation.message (v : Violation) : Text :=
  match v.limit with
  | .characterSet set =>
    Text.join ["field ", v.field, " (", v.value,
      ") does not conform to the allowed character set (", set, ")"]
  | .minimum bound =>
    Text.join ["field ", v.field, " (", v.value, ") is less than DecimalMinimum (",
      bound.shown, ") allowed"]
  | .maximum bound =>
    Text.join ["field ", v.field, " (", v.value, ") is greater than DecimalMaximum (",
      bound.shown, ") allowed"]

/-! ## Library errors -/

/-- A scheme and a level type, as a message names a candidate. -/
abbrev LevelName := Text × LevelType

/-- Candidates as a message lists them. -/
def LevelName.list (names : List LevelName) : Text :=
  Text.joinWith ", " (names.map fun (scheme, level) => scheme ++ '/' :: level.name)

/-- What makes a scheme definition unusable. -/
inductive DefinitionError where
  | missingKey (owner key : Text)
  | notAnInteger (what : Text) (value : Scalar)
  | unknownCompaction (field : Scalar) (compaction : Scalar)
  | invalidEdge (field : Scalar) (edge : Text)
  | unknownRuleType (function type : Text)
  | malformedFunction (function : Text)
  | unsupportedFunction (function : Text)
  | parameterCount (name function : Text)
  | invalidPattern (key : Text)
  | groupOutOfRange (field key : Text) (group : Int) (groups : Nat)
  | unknownLevelType (type : Text)
  | duplicateOption (key : Text) (level : LevelType)
  | duplicateLevel (scheme : Text) (level : LevelType)
  | unreadableXml (source : Text)
  | noScheme (source : Text)
  | incompleteEntry
  | missingLevel (scheme level : Text)
  | missingOption (level scheme key : Text)
  deriving DecidableEq, Repr

def DefinitionError.message : DefinitionError → Text
  | .missingKey owner key => Text.join [owner, " is missing ", Text.quoted key]
  | .notAnInteger what value => Text.join [what, " is not an integer: ", value.quoted]
  | .unknownCompaction field compaction =>
    Text.join ["field ", field.shown, " has unknown compaction ", compaction.shown]
  | .invalidEdge field edge =>
    Text.join ["field ", field.shown, ": Invalid pad direction: ", edge]
  | .unknownRuleType function type => Text.join ["rule ", function, " has unknown type ", type]
  | .malformedFunction function => Text.join ["Malformed rule function: ", function]
  | .unsupportedFunction function => Text.join ["Unsupported rule function: ", function]
  | .parameterCount name function =>
    Text.join ["Incorrect number of parameters to ", name, ": ", function]
  | .invalidPattern key => Text.join ["Invalid pattern for option ", key]
  | .groupOutOfRange field key group groups =>
    Text.join ["Field ", field, " of option ", key, " refers to capture group ",
      Text.ofInt group, " but the pattern only has ", Text.ofNat groups]
  | .unknownLevelType type => Text.join ["Unknown level type: ", type]
  | .duplicateOption key level => Text.join ["Duplicate option ", key, " in level ", level.name]
  | .duplicateLevel scheme level =>
    Text.join ["Scheme ", scheme, " defines level ", level.name, " twice"]
  | .unreadableXml source => Text.join ["Cannot parse ", source]
  | .noScheme source => Text.join ["No scheme found in ", source]
  | .incompleteEntry => "GEPC64Table entry lacks index or companyPrefix"
  | .missingLevel scheme level => Text.join ["Scheme ", scheme, " has no ", level, " level"]
  | .missingOption level scheme key =>
    Text.join ["Level ", level, " of scheme ", scheme, " has no option ", key]

/-- What an input value did not match. -/
inductive NoMatch where
  | noLevel (value : Text)
  | noPattern (value : Text)
  | noOption (scheme : Text) (level : LevelType) (value : Text)
  | noKnownPrefix (digits : Text)
  deriving DecidableEq, Repr

def NoMatch.message : NoMatch → Text
  | .noLevel value => Text.join ["No schemes or levels matched the input value ", Text.quoted value]
  | .noPattern value => Text.join ["No option pattern matched the input value ", Text.quoted value]
  | .noOption scheme level value =>
    Text.join ["No option of ", scheme, " ", level.name, " matched the input value ",
      Text.quoted value]
  | .noKnownPrefix digits =>
    Text.join ["No known company prefix starts ", digits,
      "; pass the company prefix length explicitly"]

/-- What an input value matched more than once. -/
inductive Ambiguity where
  | levels (value : Text) (candidates : List LevelName)
  | options (keys : List Text) (scheme : Text) (level : LevelType) (value : Text)
      (optionKey : Scalar)
  deriving DecidableEq, Repr

def Ambiguity.message : Ambiguity → Text
  | .levels value candidates =>
    Text.join ["More than one scheme/level matched the input value ", Text.quoted value, ": ",
      LevelName.list candidates]
  | .options keys scheme level value optionKey =>
    Text.join ["Options ", Text.joinWith ", " keys, " of ", scheme, " ", level.name,
      " all match ", Text.quoted value, "; set ", optionKey.shown, " to choose one"]

/-- A field that an output needs and the conversion does not have. -/
inductive MissingField where
  | inGrammar (field grammar : Text)
  | inOption (field key : Text)
  deriving DecidableEq, Repr

def MissingField.message : MissingField → Text
  | .inGrammar field grammar =>
    Text.join ["No value for field ", field, " required by grammar ", Text.quoted grammar]
  | .inOption field key =>
    Text.join ["No value for field ", field, " of binary option ", key]

/-- A value that an operation cannot work with. -/
inductive BadValue where
  | noCheckDigit (digits : Text)
  | operand (name value : Text)
  | divisionByZero (operands : List Text)
  | tagLength (value : Scalar)
  | notDecimal (field value : Text)
  deriving DecidableEq, Repr

def BadValue.message : BadValue → Text
  | .noCheckDigit digits => Text.join ["Cannot compute a GS1 check digit for ", Text.quoted digits]
  | .operand name value => Text.join [name, " (", Text.quoted value, ") is not an integer"]
  | .divisionByZero operands => Text.join ["Division by zero in ", Text.joinWith ", " operands]
  | .tagLength value => Text.join ["taglength is not a number: ", value.quoted]
  | .notDecimal field value =>
    Text.join ["Field ", field, " (", Text.quoted value, ") is not a decimal value"]

/-- A table look-up without an answer. -/
inductive LookupFailure where
  | columns (input output : Text)
  | noPrefixEntry (input output : Text) (value : Scalar)
  | noRow (input output : Text) (value : Scalar) (table : Text)
  deriving DecidableEq, Repr

def LookupFailure.message : LookupFailure → Text
  | .columns input output =>
    Text.join ["Cannot look up ", output, " from ", input, " in the company prefix table"]
  | .noPrefixEntry input output value =>
    Text.join ["No ", output, " for ", input, " ", value.shown, " in the company prefix table"]
  | .noRow input output value table =>
    Text.join ["No ", output, " for ", input, " ", value.shown, " in table ", table]

/-! ## Faults -/

/-- A failure outside the library's own kinds of error. -/
inductive Fault where
  | notBinary (text : Text)
  | notDecimal (text : Text)
  | notHexadecimal (text : Text)
  | invalidEdge (text : Text)
  | invalidLiteral (base : Nat) (text : Text)
  | noCharacter (code : Int)
  | unlabelledElement (part : Text)
  | missingElement (name : Text)
  | unknownInputLevel (name : Text)
  | wrongType
  | notText (value : Scalar)
  | notAscii
  | invalidCharacterSet (set : Text)
  | repetitionTooLarge
  | sequenceOrder
  | notAPair (argument : Text)
  | unknownEncoding (name : Text)
  | wideEncoding (name : Text)
  | missingFile (path : Text)
  | isDirectory (path : Text)
  deriving DecidableEq, Repr

/-- A message shows at most this much of the quoted text of a literal. -/
def Fault.shownLiteral : Nat := 200

/-- The message of a fault that has one of its own. -/
def Fault.message? : Fault → Option Text
  | .notBinary text => some (Text.join ["Not a binary string: ", Text.quoted text])
  | .notDecimal text => some (Text.join ["Not a decimal string: ", Text.quoted text])
  | .notHexadecimal text => some (Text.join ["Not a hex string: ", Text.quoted text])
  | .invalidEdge text => some (Text.join ["Invalid pad direction: ", text])
  | .invalidLiteral base text =>
    some (Text.join ["invalid literal for int() with base ", Text.ofNat base, ": ",
      (Text.quoted text).take shownLiteral])
  | .sequenceOrder => some "Rule out of sequence order"
  | .notAPair argument => some (Text.join ["expected key=value, got ", Text.quoted argument])
  | _ => none

/-! ## Errors -/

inductive Error where
  | noMatch (cause : NoMatch)
  | ambiguous (cause : Ambiguity)
  | unsupportedCompaction (method : Text)
  | definition (cause : DefinitionError)
  | padConflict (field : Text)
  | bitOverflow (field : Text) (needed : Nat) (allowed : Int)
  | missingOperand (name : Text)
  | missingField (cause : MissingField)
  | badValue (cause : BadValue)
  | lookup (cause : LookupFailure)
  | violation (cause : Violation)
  | fault (cause : Fault)
  deriving DecidableEq, Repr

/-- Does the error belong to the library's own kinds? -/
def Error.isLibrary : Error → Bool
  | .fault _ => false
  | _ => true

/-- The name of the library kind that an error belongs to; a fault has none. -/
def Error.kind? : Error → Option Text
  | .noMatch _ => some "NoMatchError"
  | .ambiguous _ => some "AmbiguousMatchError"
  | .unsupportedCompaction _ => some "UnsupportedCompactionError"
  | .definition _ => some "SchemeDefinitionError"
  | .padConflict _ => some "SchemeDefinitionConflictError"
  | .bitOverflow .. => some "BitLengthOverflowError"
  | .missingOperand _ => some "MissingRuleOperandError"
  | .missingField _ => some "MissingFieldError"
  | .badValue _ => some "FieldValueError"
  | .lookup _ => some "TableLookupError"
  | .violation ⟨_, _, .characterSet _⟩ => some "CharacterSetViolation"
  | .violation ⟨_, _, _⟩ => some "RangeViolation"
  | .fault _ => none

/-- The message of an error; only a fault can be without one. -/
def Error.message? : Error → Option Text
  | .noMatch cause => some cause.message
  | .ambiguous cause => some cause.message
  | .unsupportedCompaction method =>
    some (Text.join ["unsupported compaction method ", method])
  | .definition cause => some cause.message
  | .padConflict field =>
    some (Text.join ["Field ", field,
      " declares a pad character in both its binary and its non-binary form"])
  | .bitOverflow field needed allowed =>
    some (Text.join ["Field ", field, " needs ", Text.ofNat needed, " bits but only ",
      Text.ofInt allowed, " are allowed"])
  | .missingOperand name =>
    some (Text.join ["No value for ", name, " can be found in the conversion context"])
  | .missingField cause => some cause.message
  | .badValue cause => some cause.message
  | .lookup cause => some cause.message
  | .violation cause => some cause.message
  | .fault cause => cause.message?

/-- An error has a library kind exactly if it is a library error. -/
theorem Error.isSome_kind? (e : Error) : e.kind?.isSome = e.isLibrary := by
  cases e with
  | violation v => obtain ⟨_, _, limit⟩ := v; cases limit <;> rfl
  | _ => rfl

/-- Every library error has a message. -/
theorem Error.isSome_message? {e : Error} (h : e.isLibrary = true) : e.message?.isSome = true := by
  cases e with
  | fault _ => simp [Error.isLibrary] at h
  | _ => rfl

/-! ## Scalars that must be of a sort -/

namespace Scalar

/-- The integer that a scalar stands for, or the fault of reading one. -/
def toInteger (s : Scalar) : Except Error Int :=
  match s with
  | .null => .error (.fault .wrongType)
  | .text t =>
    match Numeral.readInteger? 10 t with
    | some n => .ok n
    | none => .error (.fault (.invalidLiteral 10 t))
  | s => .ok (s.integer?.getD 0)

/-- The text that is searched, measured or joined to another text. Only a text can
    be. -/
def operand (s : Scalar) : Except Error Text :=
  match s.text? with
  | some content => .ok content
  | none => .error (.fault .wrongType)

/-- The text whose own characters are changed or cut off. Only a text has
    characters. -/
def subject (s : Scalar) : Except Error Text :=
  match s.text? with
  | some content => .ok content
  | none => .error (.fault (.notText s))

/-- The text that is read; a void scalar reads as the empty text. -/
def contentOrVoid (s : Scalar) : Except Error Text := if s.isVoid then .ok [] else s.operand

@[simp] theorem operand_text (t : Text) : (text t).operand = .ok t := rfl

theorem mapM_operand_text (texts : List Text) : (texts.map text).mapM operand = .ok texts := by
  induction texts with
  | nil => rfl
  | cons t texts ih =>
    rw [List.map_cons, List.mapM_cons, ih]
    rfl

@[simp] theorem subject_text (t : Text) : (text t).subject = .ok t := rfl

@[simp] theorem contentOrVoid_text (t : Text) : (text t).contentOrVoid = .ok t := by
  cases t <;> simp [contentOrVoid, isVoid]

end Scalar

end EpcTag
