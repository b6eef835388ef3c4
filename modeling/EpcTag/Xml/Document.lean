-- SUMMARY: Reading of whole documents.
import EpcTag.Xml.Encoding
import EpcTag.Xml.NameSpace

/-!
# Documents

A document has one element at its top. In front of it may stand the declaration
of the document and then that of its type; white space, comments and
instructions may stand anywhere between these and behind the element.
-/

namespace EpcTag.Xml

/-- The mark that a text in Unicode may start with. -/
def byteOrderMark : Char := '\ufeff'

/-- The declarations in front of the element, and the text from the element on. The
    first argument bounds the number of items, and the third tells whether the type
    of the document may still be declared. -/
def readProlog? : Nat → Declarations → Bool → Text → Option (Declarations × Text)
  | 0, _, _, _ => none
  | bound + 1, decls, mayDeclare, text =>
    let doctype : Text := "DOCTYPE"
    match skipSpace text with
    | '<' :: '?' :: rest => do readProlog? bound decls mayDeclare (← afterInstruction? rest)
    | '<' :: '!' :: '-' :: '-' :: rest => do
      readProlog? bound decls mayDeclare (← afterComment? rest)
    | '<' :: '!' :: rest =>
      if mayDeclare ∧ Text.startsWith rest doctype then do
        let (decls, rest) ← decls.readDocumentType? (rest.drop doctype.length)
        readProlog? bound decls false rest
      else none
    | rest => some (decls, rest)

/-- The element of a document, given what stands behind its declaration. -/
def readBody? (standalone : Bool) (text : Text) : Option Element := do
  let decls : Declarations := { standalone := standalone }
  let (decls, rest) ← readProlog? (text.length + 1) decls true text
  match ← Node.ofContent? rest with
  | [.element name attributes children] =>
    let entity := decls.entityElements? decls.entities.length
    let elements ← Node.resolve? decls entity .outermost (.element name attributes children)
    elements.head?
  | _ => none

/-- The element of a document. -/
def parse (document : Text) : Except ReadError Element :=
  let document := match document with
    | c :: rest => if c = byteOrderMark then rest else document
    | [] => []
  match XmlDeclaration.read? document with
  | none => .error .malformed
  | some (declaration, rest) => do
    let encoding ← (match declaration.encoding with
      | none => .ok .utf8
      | some name => Encoding.ofName name)
    let body := do readBody? declaration.standalone (Text.normalLines (← encoding.reread? rest))
    match body with
    | some element => .ok element
    | none => .error .malformed

end EpcTag.Xml
