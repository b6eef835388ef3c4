-- SUMMARY: The declaration at the start of a document, and the encoding that it names.
import EpcTag.Text.Lines
import EpcTag.Xml.Name

/-!
# Encodings

A document comes as text in the bytes of UTF-8. Its declaration may name another
encoding; then the bytes behind the declaration are read again in that one. Every
supported encoding has a byte for each character and agrees with ASCII in the
lower half.
-/

namespace EpcTag.Xml

/-- Why a document cannot be read. -/
inductive ReadError where
  | malformed
  | unknownEncoding (name : Text)
  /-- An encoding with more than one byte for a character. -/
  | wideEncoding (name : Text)
  deriving DecidableEq, Repr

inductive Encoding where
  | utf8
  /-- One byte for a character; the function tells the characters of the upper
      half. -/
  | bytes (upper : UInt8 → Option Char)

namespace Encoding

/-- The bytes of the upper half are no characters. -/
def ascii : Encoding := .bytes fun _ => none

/-- Every byte is the code point of its character. -/
def latin1 : Encoding := .bytes fun byte => some (Char.ofNat byte.toNat)

/-- Latin-1 with other characters for some of its bytes. -/
def latin1Except (others : List (UInt8 × Option Char)) : Encoding :=
  .bytes fun byte => (others.lookup byte).getD (some (Char.ofNat byte.toNat))

/-- Latin-9, which has the euro sign and seven letters more. -/
def latin9 : Encoding :=
  latin1Except [(0xA4, some '€'), (0xA6, some 'Š'), (0xA8, some 'š'), (0xB4, some 'Ž'),
    (0xB8, some 'ž'), (0xBC, some 'Œ'), (0xBD, some 'œ'), (0xBE, some 'Ÿ')]

/-- The code page of Western Windows. -/
def windows1252 : Encoding :=
  latin1Except [(0x80, some '€'), (0x81, none), (0x82, some '‚'), (0x83, some 'ƒ'),
    (0x84, some '„'), (0x85, some '…'), (0x86, some '†'), (0x87, some '‡'), (0x88, some 'ˆ'),
    (0x89, some '‰'), (0x8A, some 'Š'), (0x8B, some '‹'), (0x8C, some 'Œ'), (0x8D, none),
    (0x8E, some 'Ž'), (0x8F, none), (0x90, none), (0x91, some '‘'), (0x92, some '’'),
    (0x93, some '“'), (0x94, some '”'), (0x95, some '•'), (0x96, some '–'), (0x97, some '—'),
    (0x98, some '˜'), (0x99, some '™'), (0x9A, some 'š'), (0x9B, some '›'), (0x9C, some 'œ'),
    (0x9D, none), (0x9E, some 'ž'), (0x9F, some 'Ÿ')]

/-- The name of an encoding in lower case, with an underscore for each row of other
    marks. -/
def normalName (name : Text) : Text :=
  Text.joinWith "_" ((Text.splitAll '-' (name.map fun c =>
    if c.isAlphanum || c == '.' then c.toLower else '-')).filter (· ≠ []))

/-- The names of encodings that have one byte for each character, in normal form.
    Of those in the last row only the lower half is read. -/
def names : List (Encoding × List Text) := [
  (latin1, ["iso_8859_1", "iso8859_1", "cp819", "iso8859", "l1", "latin", "latin1",
    "latin_1", "iso_8859_1_1987", "iso_ir_100", "ibm819",
    "csisolatin1"]),
  (latin9, ["iso_8859_15", "iso8859_15", "latin9", "l9"]),
  (windows1252, ["windows_1252", "cp1252"]),
  (ascii, ["us_ascii", "ascii", "us", "ansi_x3.4_1968", "iso646_us", "iso_646.irv_1991", "ibm367",
    "cp367", "csascii", "iso_ir_6", "utf8", "utf_8", "utf", "u8", "utf_8_sig", "cp65001"]),
  (ascii, ["iso_8859_2", "iso8859_2", "latin2", "iso_8859_5", "iso8859_5", "iso_8859_7",
    "iso8859_7", "iso_8859_9", "iso8859_9", "latin5", "cp437", "cp850", "windows_1250", "cp1250",
    "windows_1251", "cp1251", "windows_1253", "cp1253", "windows_1254", "cp1254", "koi8_r",
    "koi8_u", "mac_roman", "macroman"])]

/-- The names of encodings with more than one byte for a character, in normal form. -/
def wideNames : List Text :=
  ["utf_16", "utf16", "u16", "utf_16_le", "utf_16_be", "utf_32", "utf32", "u32", "utf_32_le",
    "utf_32_be", "utf_7", "utf7", "u7", "big5", "gb2312", "gbk", "gb18030", "shift_jis", "sjis",
    "shiftjis", "euc_jp", "eucjp", "euc_kr", "euckr", "cp932", "cp936", "cp949", "cp950"]

/-- The encoding with a name. A document cannot say in bytes of UTF-8 that it is in
    UTF-16. -/
def ofName (name : Text) : Except ReadError Encoding :=
  let lower := name.map Char.toLower
  if lower = "utf-8" then .ok .utf8
  else if lower ∈ ["utf-16".toList, "utf-16le", "utf-16be"] then .error .malformed
  else
    let normal := normalName name
    match names.find? fun (_, known) => known.contains normal with
    | some (encoding, _) => .ok encoding
    | none => .error (if wideNames.contains normal then .wideEncoding name else .unknownEncoding name)

/-- The bytes of a text, read in an encoding. -/
def reread? (encoding : Encoding) (text : Text) : Option Text :=
  match encoding with
  | .utf8 => some text
  | .bytes upper =>
    (text.flatMap String.utf8EncodeChar).mapM fun byte =>
      if byte < 128 then some (Char.ofNat byte.toNat) else upper byte

end Encoding

/-! ## The declaration -/

/-- What the declaration at the start of a document says. -/
structure XmlDeclaration where
  encoding : Option Text := none
  standalone : Bool := false
  deriving DecidableEq, Repr

namespace XmlDeclaration

/-- May `c` stand in a value of the declaration? -/
def isValueChar (c : Char) : Bool := c.isAlphanum || c == '.' || c == '-' || c == '_'

/-- The items `name="value"` of a declaration. White space stands in front of each
    item, and may stand around the equality sign. The first argument bounds their
    number. -/
def readItems? : Nat → Text → Option (List (Text × Text))
  | 0, _ => none
  | bound + 1, text =>
    match skipSpace text with
    | [] => some []
    | start =>
      if text.head?.any isSpace then do
        let (before, rest) ← Text.splitFirst '=' start
        let name := before.takeWhile fun c => !isSpace c
        match skipSpace rest with
        | quote :: rest =>
          if name ≠ [] ∧ (before.drop name.length).all isSpace ∧ (quote = '"' ∨ quote = '\'') then
            let (value, rest) ← Text.splitFirst quote rest
            if value.all isValueChar then some ((name, value) :: (← readItems? bound rest))
            else none
          else none
        | [] => none
      else none

/-- What the last item of a declaration says. -/
def readStandalone? : List (Text × Text) → Option Bool
  | [] => some false
  | [(name, value)] =>
    if name = "standalone" then
      if value = "yes" then some true else if value = "no" then some false else none
    else none
  | _ => none

/-- What the items of a declaration say: first the version, then perhaps an
    encoding, then perhaps whether the document stands alone. -/
def ofItems? (items : List (Text × Text)) : Option XmlDeclaration :=
  match items with
  | (first, _) :: rest =>
    if first = "version" then
      match rest with
      | (name, value) :: others =>
        if name = "encoding" then
          if value.head?.any Char.isAlpha then do
            some ⟨some value, ← readStandalone? others⟩
          else none
        else do some ⟨none, ← readStandalone? rest⟩
      | [] => some {}
    else none
  | [] => none

/-- How a declaration starts. -/
def start : Text := "<?xml"

/-- The declaration at the start of a text, and the text behind it. A text without
    one is its own rest. -/
def read? (text : Text) : Option (XmlDeclaration × Text) :=
  let rest := text.drop start.length
  if Text.startsWith text start ∧ rest.head?.any isSpace then do
    let (body, rest) ← Text.splitAround? "?>" rest
    some (← ofItems? (← readItems? (body.length + 1) body), rest)
  else some ({}, text)

end XmlDeclaration

end EpcTag.Xml
