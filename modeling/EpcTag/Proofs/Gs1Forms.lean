-- SUMMARY: The GS1 schemes as forms: their partitions, serial numbers and levels.
import EpcTag.Proofs.Gs1Keys
import EpcTag.Proofs.TagScheme

/-!
# GS1 schemes as forms

A place of a GS1 scheme is a partition with its number. A tag holds the filter,
the company prefix, the reference and, if there is one, the serial number; its
bits also have a header and the number of the partition, and may end with zeros.
The levels of all schemes are the same functions of a few names and numbers.
-/

namespace EpcTag

/-- The option of a document at the given numbers of its level and of itself. -/
def SchemeDocument.optionAt (doc : SchemeDocument) (level place : Nat) : OptionDocument :=
  (((doc.levels.getD [])[level]?.bind (·.options)).getD [])[place]?.getD {}

/-! ## Element strings -/

/-- The name of the serial number. -/
def serialName : Text := "serial"

/-- The name of the filter. -/
def filterName : Text := "filter"

/-- The serial number of a tag. -/
def Builtin.Serial.part : Builtin.Serial → Part
  | .numeric width => ⟨serialName, .number .plain width, .number⟩
  | .alphanumeric _ => ⟨serialName, .packed .serial, .between PackedForm.serial.class_ 1 (some 20)⟩

namespace KeyRule

/-- What stands between the label of an element string and its key. -/
def lead : KeyRule → Text
  | .separate _ _ _ => ['0']
  | _ => []

/-- The fields of the key. -/
def pieces : KeyRule → Template
  | .leading key _ _ _ _ count => [.field key (.exactly Pattern.digitClass (count + 2))]
  | .joined key _ _ count => [.field key (.exactly Pattern.digitClass (count + 1))]
  | .separate body _ count =>
    [.field body (.exactly Pattern.digitClass count), .field checkName (.one Pattern.digitClass)]

/-- What stands between the key and the serial number. -/
def mark : KeyRule → Template
  | .separate _ _ _ => []
  | _ => [.literal ";serial="]

/-- A field of exactly `digits` digits. -/
def keyField (name : Text) (group digits : Nat) : Field :=
  { name, group := some group, length := some digits, characterSet := .text Builtin.digitSet }

/-- The fields of the key, captured by the first groups. -/
def fields : KeyRule → List Field
  | .leading key _ _ _ _ count => [keyField key 1 (count + 2)]
  | .joined key _ _ count => [keyField key 1 (count + 1)]
  | .separate body _ count => [keyField body 1 count, keyField checkName 2 1]

end KeyRule

/-! ## Schemes -/

/-- The data of a GS1 scheme. -/
structure Gs1Form where
  name : Text
  tagLength : Nat
  header : Text
  /-- The starts of the tag URI, the pure identity URI and the element string. -/
  tagStart : Text
  identityStart : Text
  legacyStart : Text
  rule : KeyRule
  partitions : List Builtin.Partition
  serial : Option Builtin.Serial := none
  /-- The number of zeros at the end of the bits. -/
  reserved : Nat := 0
  /-- Does the scheme have host names? -/
  hosted : Bool := false
  document : SchemeDocument

namespace Gs1Form

/-- A partition with its number. -/
abbrev Place := Builtin.Partition × Nat

/-- The filter of a tag. -/
def filterPart : Part := ⟨filterName, .number .digit 3, .one ⟨false, [⟨'0', '7'⟩]⟩⟩

/-- The company prefix. One that is not on the tag is only bounded by its digits. -/
def companyPart (place : Place) : Part where
  name := companyName
  coding := .number (.padded place.1.companyDigits) (place.1.companyBits.getD 64)
  slot := .exactly Pattern.digitClass place.1.companyDigits

variable (form : Gs1Form)

def referencePart (place : Place) : Part where
  name := form.rule.referenceName
  coding := .number (.padded place.1.referenceDigits) place.1.referenceBits
  slot := .exactly Pattern.digitClass place.1.referenceDigits

/-- The serial number, if there is one. -/
def serialParts : List Part := form.serial.toList.map Builtin.Serial.part

def parts (place : Place) : List Part :=
  filterPart :: companyPart place :: form.referencePart place :: form.serialParts

/-- The bits of parts. -/
def bitPieces (parts : List Part) : Template :=
  parts.map fun part => .field part.name part.coding.bitSlot

/-- The header, the filter and the number of the partition, then the other parts, and
    zeros. -/
def binarySide : LevelForm Place where
  type := .binary
  start := .text form.header
  template place :=
    [.literal form.header] ++ bitPieces [filterPart] ++ [.literal (Builtin.bitText place.2 3)] ++
      bitPieces (companyPart place :: form.referencePart place :: form.serialParts) ++
      if form.reserved = 0 then [] else [.literal (List.replicate form.reserved '0')]
  doc place := form.document.optionAt 0 place.2
  fields place := Part.binaryFields 1 (form.parts place)

def tagSide : LevelForm Place where
  type := .tagEncoding
  start := .text form.tagStart
  template place := .literal (form.tagStart ++ [':']) :: Template.dotted (form.parts place)
  doc place := form.document.optionAt 1 place.2
  fields place := Part.textFields 1 (form.parts place)

def identitySide : LevelForm Place where
  type := .pureIdentity
  start := .text form.identityStart
  template place :=
    .literal (form.identityStart ++ [':']) :: Template.dotted ((form.parts place).drop 1)
  doc place := form.document.optionAt 2 place.2
  fields place := Part.textFields 1 ((form.parts place).drop 1)

/-- The element string, which looks alike at all places. -/
def legacyTemplate : Template :=
  .literal (form.legacyStart ++ form.rule.lead) :: form.rule.pieces ++
    match form.serial with
    | none => []
    | some serial => form.rule.mark ++ [.field serialName serial.part.slot]

def legacySide : LevelForm Place where
  type := .legacy
  start := .text form.legacyStart
  template _ := form.legacyTemplate
  doc place := form.document.optionAt 3 place.2
  fields _ := form.rule.fields ++ Part.textFields (form.rule.fields.length + 1) form.serialParts
  extract := form.rule.extract
  format := form.rule.format

/-- The host name of an item class. -/
def hostSide : LevelForm Place where
  type := .onsHostname
  start := .null
  template place :=
    Template.dotted [form.referencePart place, companyPart place] ++
      [.literal ".sgtin.id.onsepc.com"]
  doc place := form.document.optionAt 4 place.2
  fields place := Part.textFields 1 [form.referencePart place, companyPart place]

/-- The scheme of a form. -/
def tagForm : TagForm Place where
  name := form.name
  tagLength := form.tagLength
  optionKey := Builtin.companyPrefixLengthKey
  places := form.partitions.zipIdx
  key place := place.1.key
  parts := form.parts
  tagOnly := 1
  binary := form.binarySide
  tag := form.tagSide
  identity := form.identitySide
  others := form.legacySide :: if form.hosted then [form.hostSide] else []

end Gs1Form

/-! ## The built-in schemes -/

namespace Gs1Form

/-- The key of a GTIN, whose indicator digit leads the item reference. -/
def gtinKey : KeyRule := .leading "gtin" "indicatordigit" "gtinbody" "itemrefremainder" "itemref" 12

def sgtin96 : Gs1Form where
  name := "SGTIN-96"
  tagLength := 96
  header := "00110000"
  tagStart := "urn:epc:tag:sgtin-96"
  identityStart := "urn:epc:id:sgtin"
  legacyStart := "gtin="
  rule := gtinKey
  partitions := Builtin.sgtinPartitions
  serial := some (.numeric 38)
  hosted := true
  document := Builtin.sgtin96

def sgtin198 : Gs1Form where
  name := "SGTIN-198"
  tagLength := 198
  header := "00110110"
  tagStart := "urn:epc:tag:sgtin-198"
  identityStart := "urn:epc:id:sgtin"
  legacyStart := "gtin="
  rule := gtinKey
  partitions := Builtin.sgtinPartitions
  serial := some (.alphanumeric 140)
  document := Builtin.sgtin198

def sscc96 : Gs1Form where
  name := "SSCC-96"
  tagLength := 96
  header := "00110001"
  tagStart := "urn:epc:tag:sscc-96"
  identityStart := "urn:epc:id:sscc"
  legacyStart := "sscc="
  rule := .leading "sscc" "extensiondigit" "ssccbody" "serialrefremainder" "serialref" 16
  partitions := Builtin.ssccPartitions
  reserved := 24
  document := Builtin.sscc96

def sgln96 : Gs1Form where
  name := "SGLN-96"
  tagLength := 96
  header := "00110010"
  tagStart := "urn:epc:tag:sgln-96"
  identityStart := "urn:epc:id:sgln"
  legacyStart := "gln="
  rule := .joined "gln" "glnbody" "locationref" 12
  partitions := Builtin.sglnPartitions
  serial := some (.numeric 41)
  document := Builtin.sgln96

def grai96 : Gs1Form where
  name := "GRAI-96"
  tagLength := 96
  header := "00110011"
  tagStart := "urn:epc:tag:grai-96"
  identityStart := "urn:epc:id:grai"
  legacyStart := "grai="
  rule := .separate "graibody" "assettype" 12
  partitions := Builtin.graiPartitions
  serial := some (.numeric 38)
  document := Builtin.grai96

/-- The schemes whose tags hold nothing but numbers. -/
def numeric : List Gs1Form := [sgtin96, sscc96, sgln96, grai96]

/-- SGTIN-64 but for its bits, which hold an index in place of the company prefix. -/
def sgtin64 : Gs1Form where
  name := "SGTIN-64"
  tagLength := 64
  header := "10"
  tagStart := "urn:epc:tag:sgtin-64"
  identityStart := "urn:epc:id:sgtin"
  legacyStart := "gtin="
  rule := gtinKey
  partitions := Builtin.sgtin64Partitions
  serial := some (.numeric 25)
  document := Builtin.sgtin64

/-- The name of the index of a company prefix. -/
def indexName : Text := "companyprefixindex"

/-- The assignment of what the company prefix table has for a field. -/
def tableLookup (name value : Text) : Assignment where
  name
  function := Text.join ["TABLELOOKUP(", value, ",tdt64bitcpi,", value, ",", name, ")"]
  call := .tableLookup (.field value) (.field Engine.companyPrefixTableName) (.field value)
    (.field name)

/-- The parts of the bits of an SGTIN-64. -/
def shortParts (place : Place) : List Part :=
  filterPart :: ⟨indexName, .number .plain 14, .number⟩ :: sgtin64.referencePart place ::
    sgtin64.serialParts

/-- The bits of an SGTIN-64. -/
def shortBinarySide : LevelForm Place where
  type := .binary
  start := .text "10"
  template place := .literal "10" :: bitPieces (shortParts place)
  doc place := Builtin.sgtin64.optionAt 0 place.2
  fields place := Part.binaryFields 1 (shortParts place)
  extract := [tableLookup companyName indexName]
  format := [tableLookup indexName companyName]

/-- The scheme SGTIN-64. -/
def shortForm : TagForm Place := { sgtin64.tagForm with binary := shortBinarySide }

end Gs1Form

end EpcTag
