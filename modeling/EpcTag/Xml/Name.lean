-- SUMMARY: Names in XML, with and without the prefix of a name space.
import EpcTag.Text.Basic
import EpcTag.Xml.NameChar

/-!
# XML names

A qualified name is a name, or two names with a colon between them, of which
the first is a prefix that stands for a name space.
-/

namespace EpcTag.Xml

/-- A name with its prefix, if it has one. -/
structure QName where
  spacePrefix? : Option Text
  name : Text
  deriving DecidableEq, Repr

/-- The name without a prefix. -/
def QName.plain (name : Text) : QName := ⟨none, name⟩

/-- A name without a colon at the start of a text, and the text behind it. -/
def readName? : Text → Option (Text × Text)
  | [] => none
  | c :: rest =>
    if isNameStart c then some (c :: rest.takeWhile isNameChar, rest.dropWhile isNameChar)
    else none

/-- A qualified name at the start of a text, and the text behind it. -/
def readQName? (text : Text) : Option (QName × Text) := do
  let (name, rest) ← readName? text
  match rest with
  | ':' :: rest =>
    let (name', rest) ← readName? rest
    some (⟨some name, name'⟩, rest)
  | rest => some (⟨none, name⟩, rest)

/-- The text behind the white space at its start. -/
def skipSpace (text : Text) : Text := text.dropWhile isSpace

example : readQName? "p:a b" = some (⟨some "p".toList, "a"⟩, " b".toList) := by decide
example : readQName? "p: b" = none ∧ readQName? ":b" = none := by decide

end EpcTag.Xml
