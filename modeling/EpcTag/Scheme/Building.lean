-- SUMMARY: Building schemes from definition documents, with every check that a definition must pass.
import EpcTag.Scheme.Basic
import EpcTag.Scheme.Document
import EpcTag.Rule.Parser
import EpcTag.Pattern.Parser
import EpcTag.Ordering
import EpcTag.Traced

/-!
# Building schemes

A document is built from the inside out, attribute by attribute, and the first
thing that is wrong with it ends the building. A scheme that was built has
options whose fields all name a group of the pattern, one option for each key of
a level, one level of each type, and rules in ascending sequence.
-/

namespace EpcTag

/-! ## Attributes -/

namespace Attribute

/-- The value of an attribute that must be there. -/
def required (slot : Attribute) (key owner : Text) : Except Error Scalar :=
  match slot with
  | some value => .ok value
  | none => .error (.definition (.missingKey owner key))

/-- The integer of an attribute; one that is missing, nothing or empty has none. -/
def integer (slot : Attribute) (what : Text) : Except Error (Option Int) :=
  match slot with
  | none | some .null | some (.text []) => .ok none
  | some value =>
    match value.integer? with
    | some n => .ok (some n)
    | none => .error (.definition (.notAnInteger what value))

/-- The value of an attribute; nothing if it is missing. -/
def value (slot : Attribute) : Scalar := slot.getD .null

end Attribute

/-- The parts that a document must list. -/
def Parts.required {α : Type} (parts : Parts α) : Except Error (List α) :=
  match parts with
  | some parts => .ok parts
  | none => .error (.fault .wrongType)

/-! ## Fields -/

/-- The edge that an attribute of a field names. -/
def FieldDocument.edge (name : Scalar) (slot : Attribute) : Except Error (Option Edge) :=
  match slot with
  | none | some .null => .ok none
  | some value => do
    let text ← value.subject
    match Edge.read? text with
    | some edge => .ok (some edge)
    | none => .error (.definition (.invalidEdge name (Text.upper text)))

/-- The compaction method that a field names. -/
def FieldDocument.method (name : Scalar) (slot : Attribute) :
    Except Error (Option Compaction) :=
  match slot with
  | none | some .null => .ok none
  | some value =>
    match value.text?.bind Compaction.ofName? with
    | some method => .ok (some method)
    | none => .error (.definition (.unknownCompaction name value))

/-- The field that a document describes. -/
def FieldDocument.build (doc : FieldDocument) : Except Error Field := do
  let label ← doc.name.required "name" "field"
  let compaction ← method label doc.compaction
  let padEdge ← edge label doc.padDir
  let bitPadEdge ← edge label doc.bitPadDir
  let name ← label.operand
  let seq ← doc.seq.required "seq" ("field ".toList ++ name)
  let group ← Attribute.integer (some seq) ("seq of field ".toList ++ name)
  let length ← doc.length.integer ("length of field ".toList ++ name)
  let bitLength ← doc.bitLength.integer ("bitLength of field ".toList ++ name)
  pure {
    name, group, length, bitLength, padEdge, bitPadEdge, compaction
    padChar := doc.padChar.value
    characterSet := doc.characterSet.value
    minimum := doc.decimalMinimum.value
    maximum := doc.decimalMaximum.value }

/-! ## Rules -/

/-- The rule that a document describes. -/
def RuleDocument.build (doc : RuleDocument) : Except Error Rule := do
  let function ← (← doc.function.required "function" "rule").operand
  let owner := "rule ".toList ++ function
  let typeName := Text.upper (← (← doc.type.required "type" owner).subject)
  let type ← match RuleType.ofName? typeName with
    | some type => pure type
    | none => .error (.definition (.unknownRuleType function typeName))
  let seq ← doc.seq.required "seq" owner
  let sequence ← Attribute.integer (some seq) ("seq of ".toList ++ owner)
  let newField ← doc.newFieldName.required "new_field_name" owner
  let call ← RuleCall.parse function
  pure { sequence, type, function, newField, call,
         tableUrl := doc.tableUrl.value, tableXPath := doc.tableXPath.value }

/-- The rules of one type in ascending sequence. Two rules of one type must both
    have a place in the sequence. -/
def Rules.ofType (type : RuleType) (rules : List Rule) : Except Error (List Rule) :=
  let chosen := rules.filter (·.type = type)
  if 2 ≤ chosen.length ∧ chosen.any (·.sequence.isNone) then .error (.fault .wrongType)
  else .ok (sortStable (fun a b => a.sequence.getD 0 < b.sequence.getD 0) chosen)

/-! ## Options -/

/-- The check that a field names a group of its option's pattern. -/
def Field.checkGroup (key : Text) (groups : Nat) (field : Field) : Except Error Unit :=
  match field.group with
  | none => .error (.fault .wrongType)
  | some group =>
    if 1 ≤ group ∧ group ≤ groups then .ok ()
    else .error (.definition (.groupOutOfRange field.name key group groups))

/-- The pattern of an option. -/
def OptionDocument.readPattern (key patternText : Text) : Except Error Pattern :=
  match Pattern.parse patternText with
  | .ok pattern => .ok pattern
  | .error .malformed => .error (.definition (.invalidPattern key))
  | .error .repetitionTooLarge => .error (.fault .repetitionTooLarge)

/-- The option that a document describes. -/
def OptionDocument.build (doc : OptionDocument) : Except Error LevelOption := do
  let key := (← doc.optionKey.required "option_key" "option").shown
  let owner := "option ".toList ++ key
  let pattern ← doc.pattern.required "pattern" owner
  let grammar ← doc.grammar.required "grammar" owner
  let fields ← (← doc.fields.required).mapM FieldDocument.build
  let patternText ← pattern.operand
  let pattern ← readPattern key patternText
  fields.forM (Field.checkGroup key pattern.groupCount)
  pure { key, patternText, pattern, grammar, fields }

/-! ## Levels -/

/-- The first element of a list that an earlier element has the key of. -/
def firstRepeated? {α κ : Type} [BEq κ] (key : α → κ) : List κ → List α → Option α
  | _, [] => none
  | seen, x :: rest =>
    if seen.contains (key x) then some x else firstRepeated? key (key x :: seen) rest

/-- The level of a type with the given parts. -/
def Level.assemble (typeName : Text) (start : Scalar) (options : List LevelOption)
    (rules : List Rule) : Except Error Level := do
  let type ← match LevelType.ofName? typeName with
    | some type => pure type
    | none => .error (.definition (.unknownLevelType typeName))
  match firstRepeated? LevelOption.key [] options with
  | some option => .error (.definition (.duplicateOption option.key type))
  | none =>
    let extractRules ← Rules.ofType .extract rules
    let formatRules ← Rules.ofType .format rules
    pure { type, start, options, extractRules, formatRules }

/-- The prefix that a level declares; a void one is no prefix. -/
def LevelDocument.start (doc : LevelDocument) : Scalar :=
  if doc.prefixMatch.value.isVoid then .null else doc.prefixMatch.value

/-- The level that a document describes. -/
def LevelDocument.build (doc : LevelDocument) : Except Error Level := do
  let typeName := Text.upper (← (← doc.type.required "type" "level").subject)
  let options ← (← doc.options.required).mapM OptionDocument.build
  let rules ← (← doc.rules.required).mapM RuleDocument.build
  Level.assemble typeName doc.start options rules

/-! ## Schemes -/

/-- The scheme of a name with the given parts. -/
def Scheme.assemble (name : Text) (tagLength : Option Int) (optionKey : Scalar)
    (levels : List Level) : Except Error Scheme :=
  match tagLength with
  | none => .error (.fault .wrongType)
  | some tagLength =>
    match firstRepeated? Level.type [] levels with
    | some level => .error (.definition (.duplicateLevel name level.type))
    | none => .ok { name, tagLength, optionKey, levels }

/-- The scheme that a document describes. -/
def SchemeDocument.build (doc : SchemeDocument) : Except Error Scheme := do
  let name ← (← doc.name.required "name" "scheme").operand
  let owner := "scheme ".toList ++ name
  let tagLength ← doc.tagLength.required "tag_length" owner
  let tagLength ← Attribute.integer (some tagLength) ("tagLength of ".toList ++ owner)
  let optionKey ← doc.optionKey.required "option_key" owner
  let levels ← (← doc.levels.required).mapM LevelDocument.build
  Scheme.assemble name tagLength optionKey levels

/-- The schemes of a list of documents, in their order. -/
def Scheme.buildAll (docs : List SchemeDocument) : Traced (List Scheme) :=
  docs.mapM fun doc => do
    let scheme ← Traced.ofExcept doc.build
    Traced.record (.schemeBuilt scheme.name (scheme.levels.map Level.type))
    pure scheme

end EpcTag
