-- SUMMARY: The identifiers of the US Department of Defense, USDOD-64 and USDOD-96.
import EpcTag.Builtin.Gid

/-!
# Department of Defense identifiers

A supplier is named by a CAGE code of five characters or a DoDAAC of six, which
is packed into the tag:

              header | filter | CAGE or DoDAAC     | serial
    USDOD-64  8      | 2      | 5 characters of 6  | 24
    USDOD-96  8      | 4      | 6 characters of 8  | 36

The longer tag has room for six characters, and a code of five is filled up on
the left with a space.
-/

namespace EpcTag.Builtin

/-- The characters of CAGE codes and DoDAACs: all but I and O. -/
def cageCharacters : Text := "[0-9A-HJ-NP-Z]"

/-- What distinguishes the two schemes. -/
structure DodForm where
  name : Text
  /-- The name in a URI. -/
  uriName : Text
  tagLength : Nat
  header : Text
  filterBits : Nat
  /-- How often a character occurs in a code, as a pattern writes it. -/
  codeLength : Text
  /-- The bits of the code. -/
  codeBits : Nat
  /-- The attributes of the code on the tag. -/
  codeField : FieldDocument
  serialBits : Nat

/-- The code as text. The definition leaves its length open. -/
def cageField (seq : Nat) : FieldDocument :=
  { field "cageordodaac" seq with
    length := some .null
    characterSet := .text (cageCharacters ++ ['*']) }

namespace DodForm

def tagStart (form : DodForm) : Text := "urn:epc:tag:".toList ++ form.uriName

/-- The pattern that captures a code in a URI. -/
def codePattern (form : DodForm) : Text := Text.join ["(", cageCharacters, form.codeLength, ")"]

def filterField (form : DodForm) : FieldDocument := number "filter" 1 (Nat.pow 2 form.filterBits - 1)

def serialField (form : DodForm) (seq : Nat) : FieldDocument :=
  number "serial" seq (Nat.pow 2 form.serialBits - 1)

def binaryOption (form : DodForm) : OptionDocument :=
  option singleKey
    (anchored (Text.join [form.header, bitGroup form.filterBits, bitGroup form.codeBits,
      bitGroup form.serialBits]))
    (Text.join [literal form.header, " filter cageordodaac serial"])
    [bits "filter" 1 form.filterBits, form.codeField, bits "serial" 3 form.serialBits]

def tagOption (form : DodForm) : OptionDocument :=
  option singleKey
    (anchored (Text.join [form.tagStart, ":([0-9]+)\\.", form.codePattern, "\\.", numberPattern]))
    (Text.join [literal (form.tagStart ++ [':']), " filter '.' cageordodaac '.' serial"])
    [form.filterField, cageField 2, form.serialField 3]

def pureOption (form : DodForm) : OptionDocument :=
  option singleKey
    (anchored (Text.join ["urn:epc:id:usdod:", form.codePattern, "\\.", numberPattern]))
    "'urn:epc:id:usdod:' cageordodaac '.' serial"
    [cageField 1, form.serialField 2]

def legacyOption (form : DodForm) : OptionDocument :=
  option singleKey
    (anchored (Text.join ["cageordodaac=(", cageCharacters, timesBetween 5 6, ");serial=",
      numberPattern]))
    "'cageordodaac=' cageordodaac ';serial=' serial"
    [cageField 1, form.serialField 2]

/-- The definition of the scheme of a form. -/
def definition (form : DodForm) : SchemeDocument :=
  scheme form.name form.tagLength singleKey
    [level .binary form.header [form.binaryOption] [],
     level .tagEncoding form.tagStart [form.tagOption] [],
     level .pureIdentity "urn:epc:id:usdod" [form.pureOption] [],
     level .legacy "cageordodaac=" [form.legacyOption] []]

end DodForm

def usdod64 : SchemeDocument := DodForm.definition
  { name := "USDOD-64"
    uriName := "usdod-64"
    tagLength := 64
    header := "11001110"
    filterBits := 2
    codeLength := times 5
    codeBits := 30
    codeField := { field "cageordodaac" 2 with
      bitLength := .number 30
      compaction := .text "6-bit" }
    serialBits := 24 }

def usdod96 : SchemeDocument := DodForm.definition
  { name := "USDOD-96"
    uriName := "usdod-96"
    tagLength := 96
    header := "00101111"
    filterBits := 4
    codeLength := timesBetween 5 6
    codeBits := 48
    codeField := { field "cageordodaac" 2 with
      bitLength := .number 48
      compaction := .text "8-bit"
      length := .number 6
      padChar := .text " "
      padDir := .text Edge.left.name }
    serialBits := 36 }

/-- The definitions of the Department of Defense identifiers. -/
def dodDefinitions : List SchemeDocument := [usdod64, usdod96]

end EpcTag.Builtin
