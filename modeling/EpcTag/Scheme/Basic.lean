-- SUMMARY: Schemes: their levels, the options of a level and the fields of an option.
import EpcTag.Compaction
import EpcTag.Padding
import EpcTag.Pattern.Basic
import EpcTag.Rule.Basic
import EpcTag.Text.Quoted

/-!
# Schemes

A scheme has one level for each of its representations. A level has options, one
for each value of the option key, and the rules that run when the level is read
or written. An option has a pattern, a grammar and the fields that the groups of
the pattern capture. Schemes are built once and never change.
-/

namespace EpcTag

/-- A field of an option: the group that captures it, its width in characters or
    bits, how it is padded and packed, and the limits of its values. -/
structure Field where
  name : Text
  group : Option Int
  length : Option Int := none
  bitLength : Option Int := none
  padChar : Scalar := .null
  padEdge : Option Edge := none
  bitPadEdge : Option Edge := none
  compaction : Option Compaction := none
  characterSet : Scalar := .null
  minimum : Scalar := .null
  maximum : Scalar := .null
  deriving DecidableEq, Repr

/-- An option of a level. Every field names a group that the pattern has. -/
structure LevelOption where
  key : Text
  patternText : Text
  pattern : Pattern
  grammar : Scalar
  fields : List Field
  deriving DecidableEq, Repr

namespace LevelOption

/-- The field of a name; of two fields of one name the later counts. -/
def field? (option : LevelOption) (name : Text) : Option Field :=
  option.fields.reverse.find? (·.name == name)

/-- The match of the option's pattern at the start of a value. -/
def match? (option : LevelOption) (value : Text) : Option Pattern.Match :=
  option.pattern.matchStart? value

/-- Does the option's pattern match at the start of a value? -/
def accepts (option : LevelOption) (value : Text) : Bool := (option.match? value).isSome

/-- The option as text. -/
def describe (option : LevelOption) : Text :=
  Text.join ["Option(", Text.quoted option.key, ", ", Text.quoted option.patternText, ")"]

end LevelOption

/-- A level of a scheme. Values of the level start with its prefix, if it has
    one. -/
structure Level where
  type : LevelType
  /-- The prefix of the level; nothing if it has none. -/
  start : Scalar
  options : List LevelOption
  extractRules : List Rule
  formatRules : List Rule
  deriving DecidableEq, Repr

namespace Level

/-- The option of a key. -/
def option? (level : Level) (key : Text) : Option LevelOption :=
  level.options.find? (·.key == key)

/-- The level as text. -/
def describe (level : Level) : Text :=
  Text.join ["Level(", level.type.name, ", prefix=", level.start.quoted, ")"]

end Level

/-- A scheme: the length of its tags in bits, the name of the value that chooses an
    option, and its levels. -/
structure Scheme where
  name : Text
  tagLength : Int
  optionKey : Scalar
  levels : List Level
  deriving DecidableEq, Repr

namespace Scheme

/-- The level of a type. -/
def level? (scheme : Scheme) (type : LevelType) : Option Level :=
  scheme.levels.find? (·.type = type)

/-- The level of the given name. -/
def levelNamed? (scheme : Scheme) (name : Text) : Option Level :=
  (LevelType.ofName? name).bind scheme.level?

/-- The option of the tag URI level that belongs to an option key. -/
def tagOption? (scheme : Scheme) (key : Text) : Option LevelOption :=
  (scheme.level? .tagEncoding).bind (·.option? key)

/-- The scheme as text. -/
def describe (scheme : Scheme) : Text :=
  Text.join ["Scheme(", scheme.name, ", tag_length=", Text.ofInt scheme.tagLength, ")"]

end Scheme

end EpcTag
