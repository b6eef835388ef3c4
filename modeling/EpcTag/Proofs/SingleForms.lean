-- SUMMARY: The schemes with a single option as forms: the general identifier and the Department of Defense identifiers.
import EpcTag.Builtin.Dod
import EpcTag.Proofs.Gs1Forms

/-!
# Schemes with a single option

These schemes have one place. All fields are taken from the tag as they are, so no
rules run, and an element string is a list of labels with their fields.
-/

namespace EpcTag

/-- The data of a scheme with a single option. -/
structure SingleForm where
  name : Text
  tagLength : Nat
  header : Text
  /-- The starts of the tag URI, the pure identity URI and the element string. -/
  tagStart : Text
  identityStart : Text
  legacyStart : Text
  parts : List Part
  /-- The number of the first parts that only concern the tag. -/
  tagOnly : Nat
  /-- The element string. -/
  legacyTemplate : Template
  document : SchemeDocument

namespace SingleForm

variable (form : SingleForm)

def identityParts : List Part := form.parts.drop form.tagOnly

def binarySide : LevelForm Unit where
  type := .binary
  start := .text form.header
  template _ := .literal form.header :: Gs1Form.bitPieces form.parts
  doc _ := form.document.optionAt 0 0
  fields _ := Part.binaryFields 1 form.parts

def tagSide : LevelForm Unit where
  type := .tagEncoding
  start := .text form.tagStart
  template _ := .literal (form.tagStart ++ [':']) :: Template.dotted form.parts
  doc _ := form.document.optionAt 1 0
  fields _ := Part.textFields 1 form.parts

def identitySide : LevelForm Unit where
  type := .pureIdentity
  start := .text form.identityStart
  template _ := .literal (form.identityStart ++ [':']) :: Template.dotted form.identityParts
  doc _ := form.document.optionAt 2 0
  fields _ := Part.textFields 1 form.identityParts

def legacySide : LevelForm Unit where
  type := .legacy
  start := .text form.legacyStart
  template _ := form.legacyTemplate
  doc _ := form.document.optionAt 3 0
  fields _ := Part.textFields 1 form.identityParts

/-- The scheme of a form. -/
def tagForm : TagForm Unit where
  name := form.name
  tagLength := form.tagLength
  optionKey := Builtin.singleKey
  places := [()]
  key _ := Builtin.singleKey
  parts _ := form.parts
  tagOnly := form.tagOnly
  binary := form.binarySide
  tag := form.tagSide
  identity := form.identitySide
  others := [form.legacySide]

/-! ## The built-in schemes -/

def gid96 : SingleForm where
  name := "GID-96"
  tagLength := 96
  header := Builtin.gidHeader
  tagStart := "urn:epc:tag:gid-96"
  identityStart := "urn:epc:id:gid"
  legacyStart := "generalmanager="
  parts := Builtin.gidParts.map fun (name, width) => ⟨name, .number .plain width, .number⟩
  tagOnly := 0
  legacyTemplate :=
    [.literal "generalmanager=", .field "generalmanager" .number, .literal ";",
     .literal "objectclass=", .field "objectclass" .number, .literal ";",
     .literal "serial=", .field serialName .number]
  document := Builtin.gid96

/-- The name of a supplier code. -/
def codeName : Text := "cageordodaac"

/-- The parts of a Department of Defense identifier. -/
def dodParts (filterBits : Nat) (code : PackedForm) (slot : Slot) (serialBits : Nat) : List Part :=
  [⟨"filter", .number .plain filterBits, .between Pattern.digitClass 1 none⟩,
   ⟨codeName, .packed code, slot⟩,
   ⟨serialName, .number .plain serialBits, .number⟩]

/-- A supplier code of five or six characters. -/
def codeSlot : Slot := .between PackedForm.longCode.class_ 5 (some 6)

/-- The element string of a Department of Defense identifier. -/
def dodLegacyTemplate : Template :=
  [.literal "cageordodaac=", .field codeName codeSlot, .literal ";serial=",
   .field serialName .number]

def usdod64 : SingleForm where
  name := "USDOD-64"
  tagLength := 64
  header := "11001110"
  tagStart := "urn:epc:tag:usdod-64"
  identityStart := "urn:epc:id:usdod"
  legacyStart := "cageordodaac="
  parts := dodParts 2 .shortCode (.exactly PackedForm.shortCode.class_ 5) 24
  tagOnly := 1
  legacyTemplate := dodLegacyTemplate
  document := Builtin.usdod64

def usdod96 : SingleForm where
  name := "USDOD-96"
  tagLength := 96
  header := "00101111"
  tagStart := "urn:epc:tag:usdod-96"
  identityStart := "urn:epc:id:usdod"
  legacyStart := "cageordodaac="
  parts := dodParts 4 .longCode codeSlot 36
  tagOnly := 1
  legacyTemplate := dodLegacyTemplate
  document := Builtin.usdod96

end SingleForm

end EpcTag
