-- SUMMARY: Definition documents in XML.
import EpcTag.Scheme.Document
import EpcTag.Xml.Source

/-!
# Definitions in XML

Definition files describe schemes by elements `scheme`, which hold elements
`level`, and so on; the attributes of a part are those of its element. Elements
count under their local names. A `scheme` may stand anywhere, and all other
parts directly inside the part that they belong to.
-/

namespace EpcTag

open Xml (Element Source)

/-- An attribute of an element, as one of a document. -/
def Attribute.ofElement (element : Element) (name : Text) : Attribute :=
  (element.get? name).map Scalar.text

def FieldDocument.ofElement (element : Element) : FieldDocument where
  name := .ofElement element "name"
  seq := .ofElement element "seq"
  length := .ofElement element "length"
  bitLength := .ofElement element "bitLength"
  padChar := .ofElement element "padChar"
  padDir := .ofElement element "padDir"
  bitPadDir := .ofElement element "bitPadDir"
  compaction := .ofElement element "compaction"
  characterSet := .ofElement element "characterSet"
  decimalMinimum := .ofElement element "decimalMinimum"
  decimalMaximum := .ofElement element "decimalMaximum"

def RuleDocument.ofElement (element : Element) : RuleDocument where
  type := .ofElement element "type"
  seq := .ofElement element "seq"
  newFieldName := .ofElement element "newFieldName"
  function := .ofElement element "function"
  tableUrl := .ofElement element "tableURL"
  tableXPath := .ofElement element "tableXPath"

def OptionDocument.ofElement (element : Element) : OptionDocument where
  optionKey := .ofElement element "optionKey"
  pattern := .ofElement element "pattern"
  grammar := .ofElement element "grammar"
  fields := (element.childrenNamed "field").map FieldDocument.ofElement

def LevelDocument.ofElement (element : Element) : LevelDocument where
  type := .ofElement element "type"
  prefixMatch := .ofElement element "prefixMatch"
  options := (element.childrenNamed "option").map OptionDocument.ofElement
  rules := (element.childrenNamed "rule").map RuleDocument.ofElement

def SchemeDocument.ofElement (element : Element) : SchemeDocument where
  name := .ofElement element "name"
  tagLength := .ofElement element "tagLength"
  optionKey := .ofElement element "optionKey"
  levels := (element.childrenNamed "level").map LevelDocument.ofElement

/-- The documents of the schemes that a source defines; it must define one. -/
def SchemeDocument.parse (source : Source) : Except Error (List SchemeDocument) := do
  match (← source.element).descendantsNamed "scheme" with
  | [] => .error (.definition (.noScheme source.name))
  | schemes => .ok (schemes.map SchemeDocument.ofElement)

end EpcTag
