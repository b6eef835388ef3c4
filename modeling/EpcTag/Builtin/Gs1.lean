-- SUMMARY: The GS1 schemes: SGTIN-64, SGTIN-96, SGTIN-198, SSCC-96, SGLN-96 and GRAI-96.
import EpcTag.Builtin.Basic

/-!
# GS1 schemes

A GS1 key starts with a company prefix of six to twelve digits, and the rest of
the key is the shorter the longer the prefix is. A tag says by a partition of
three bits how its bits are divided between the two:

    header | filter | partition | company prefix | reference | serial or reserved

Every scheme has one option for each length of the company prefix, and that
length is the key of the option. A tag of 64 bits has no partition. It holds
the index of the company prefix, so all its options look alike.
-/

namespace EpcTag.Builtin

/-! ## Partitions -/

/-- How one partition divides a key: bits and digits of the company prefix, bits
    and digits of the reference. A prefix that is not on the tag itself has no
    bits. -/
structure Partition where
  companyBits : Option Nat
  companyDigits : Nat
  referenceBits : Nat
  referenceDigits : Nat
  deriving DecidableEq, Repr

/-- The partitions of a key whose reference takes the given bits and digits next to
    company prefixes of twelve digits down to six. -/
def partitions (references : List (Nat × Nat)) : List Partition :=
  List.zipWith (fun (companyBits, companyDigits) (bits, digits) =>
      ⟨some companyBits, companyDigits, bits, digits⟩)
    [(40, 12), (37, 11), (34, 10), (30, 9), (27, 8), (24, 7), (20, 6)] references

def sgtinPartitions : List Partition :=
  partitions [(4, 1), (7, 2), (10, 3), (14, 4), (17, 5), (20, 6), (24, 7)]

def ssccPartitions : List Partition :=
  partitions [(18, 5), (21, 6), (24, 7), (28, 8), (31, 9), (34, 10), (38, 11)]

def sglnPartitions : List Partition :=
  partitions [(1, 0), (4, 1), (7, 2), (11, 3), (14, 4), (17, 5), (21, 6)]

def graiPartitions : List Partition :=
  partitions [(4, 0), (7, 1), (10, 2), (14, 3), (17, 4), (20, 5), (24, 6)]

/-- The bits of the item reference of an SGTIN-64. -/
def shortReferenceBits : Nat := 20

/-- The divisions of an SGTIN-64, by ascending length of the company prefix. -/
def sgtin64Partitions : List Partition :=
  [6, 7, 8, 9, 10, 11, 12].map fun digits => ⟨none, digits, shortReferenceBits, 13 - digits⟩

/-- The option key of the GS1 schemes. -/
def companyPrefixLengthKey : Text := "companyprefixlength"

/-- The key of the option of a partition. -/
def Partition.key (partition : Partition) : Text := Text.ofNat partition.companyDigits

/-! ## Serial numbers -/

/-- The form of a serial number, with its width in bits. -/
inductive Serial where
  /-- A decimal number without leading zeros. -/
  | numeric (bits : Nat)
  /-- One to twenty characters, packed into seven bits each. -/
  | alphanumeric (bits : Nat)
  deriving DecidableEq, Repr

/-- The characters of an alphanumeric serial number. -/
def serialCharacters : Text := "[!%-?A-Z_a-z\"]"

namespace Serial

def bitLength : Serial → Nat
  | .numeric bits | .alphanumeric bits => bits

/-- The pattern that captures the serial number in a text. -/
def pattern : Serial → Text
  | .numeric _ => numberPattern
  | .alphanumeric _ => Text.join ["(", serialCharacters, timesBetween 1 20, ")"]

/-- The field of the serial number in a binary option. -/
def binaryField (seq : Nat) : Serial → FieldDocument
  | .numeric width => bits "serial" seq width
  | .alphanumeric width =>
    { bits "serial" seq width with
      compaction := .text "7-bit"
      bitPadDir := .text Edge.right.name }

/-- The field of the serial number in a text. -/
def textField (seq : Nat) : Serial → FieldDocument
  | .numeric width => number "serial" seq (Nat.pow 2 width - 1)
  | .alphanumeric _ =>
    { field "serial" seq with characterSet := .text (serialCharacters ++ ['*']) }

end Serial

/-- The name of the serial number, if there is one. -/
def serialNames (serial : Option Serial) : List Text :=
  match serial with
  | some _ => ["serial"]
  | none => []

/-! ## Levels -/

/-- The bits of the filter on a tag. -/
def filterBits : Nat := 3

/-- The bits of the partition on a tag. -/
def partitionBits : Nat := 3

/-- The binary option of the partition of the given number. Without a serial number
    the tag may end with reserved zeros. -/
def partitionedOption (header reference : Text) (serial : Option Serial) (reserved : Nat)
    (place : Nat) (partition : Partition) : OptionDocument :=
  let number := bitText place partitionBits
  let companyBits := partition.companyBits.getD 0
  let zeros := List.replicate reserved '0'
  option partition.key
    (anchored (Text.join [header, bitGroup filterBits, number, bitGroup companyBits,
      bitGroup partition.referenceBits,
      Text.join (serial.toList.map fun serial => bitGroup serial.bitLength), zeros]))
    (Text.joinWith [' '] (
      ([literal header, "filter", literal number, "companyprefix", reference] : List Text) ++
      serialNames serial ++ (if reserved = 0 then [] else [literal zeros])))
    ([bits "filter" 1 filterBits, bits "companyprefix" 2 companyBits,
      bits reference 3 partition.referenceBits] ++ serial.toList.map (Serial.binaryField 4))

/-- The binary level of a scheme with partitions. -/
def partitionedBinaryLevel (header : Text) (partitions : List Partition) (reference : Text)
    (serial : Option Serial) (reserved : Nat) : LevelDocument :=
  level .binary header
    (partitions.zipIdx.map fun (partition, place) =>
      partitionedOption header reference serial reserved place partition) []

/-- The groups and the fields of a URI: the filter of a tag URI, the company prefix,
    the reference and the serial number, if there is one. -/
def uriParts (withFilter : Bool) (partition : Partition) (reference : Text)
    (serial : Option Serial) : List (Text × FieldDocument) :=
  let first := if withFilter then 2 else 1
  (if withFilter then [("([0-7])".toList, { number "filter" 1 7 with length := .number 1 })]
    else []) ++
  [(digitGroup partition.companyDigits,
      paddedNumber "companyprefix" first partition.companyDigits partition.companyBits),
   (digitGroup partition.referenceDigits,
      paddedNumber reference (first + 1) partition.referenceDigits
        (some partition.referenceBits))] ++
  serial.toList.map fun serial => (serial.pattern, serial.textField (first + 2))

/-- The names of the parts of a URI. -/
def uriNames (withFilter : Bool) (reference : Text) (serial : Option Serial) : List Text :=
  ((if withFilter then ["filter"] else []) : List Text) ++
    (["companyprefix", reference] : List Text) ++ serialNames serial

/-- The URI option of a partition. `start` is the URI up to before its last colon. -/
def uriOption (withFilter : Bool) (start reference : Text) (serial : Option Serial)
    (partition : Partition) : OptionDocument :=
  let parts := uriParts withFilter partition reference serial
  option partition.key
    (anchored (Text.join [start, ":", Text.joinWith "\\." (parts.map (·.1))]))
    (Text.join [literal (start ++ [':']), " ",
      Text.joinWith " '.' " (uriNames withFilter reference serial)])
    (parts.map (·.2))

/-- The tag URI or pure identity level of a scheme. Only a tag URI holds the filter. -/
def uriLevel (type : LevelType) (start : Text) (partitions : List Partition) (reference : Text)
    (serial : Option Serial) : LevelDocument :=
  level type start
    (partitions.map (uriOption (type = .tagEncoding) start reference serial)) []

/-- The element string level of a scheme, where all options look alike. -/
def legacyLevel (start : Text) (partitions : List Partition) (pattern grammar : Text)
    (fields : List FieldDocument) (extract format : List (Text × Text)) : LevelDocument :=
  level .legacy start
    (partitions.map fun partition => option partition.key pattern grammar fields)
    (rules .extract extract ++ rules .format format)

/-- A field of element strings that holds exactly `digits` decimal digits. -/
def keyField (name : Text) (seq digits : Nat) : FieldDocument :=
  { field name seq with length := .number digits, characterSet := .text digitSet }

/-! ## Serialised GTINs -/

/-- The element string of a GTIN with a serial number. The indicator digit of the
    GTIN leads the item reference. -/
def sgtinLegacyLevel (partitions : List Partition) (serial : Serial) : LevelDocument :=
  legacyLevel "gtin=" partitions
    (anchored (Text.join ["gtin=", digitGroup 14, ";serial=", serial.pattern]))
    "'gtin=' gtin ';serial=' serial"
    [keyField "gtin" 1 14, serial.textField 2]
    [("indicatordigit", "SUBSTR(gtin,0,1)"),
     ("gtinbody", "SUBSTR(gtin,1,12)"),
     ("companyprefix", "SUBSTR(gtinbody,0,companyprefixlength)"),
     ("itemrefremainder", "SUBSTR(gtinbody,companyprefixlength)"),
     ("itemref", "CONCAT(indicatordigit,itemrefremainder)")]
    [("indicatordigit", "SUBSTR(itemref,0,1)"),
     ("itemrefremainder", "SUBSTR(itemref,1)"),
     ("gtinbody", "CONCAT(indicatordigit,companyprefix,itemrefremainder)"),
     ("checkdigit", "GS1CHECKSUM(gtinbody)"),
     ("gtin", "CONCAT(gtinbody,checkdigit)")]

/-- The host name option of a partition. -/
def sgtinOnsOption (partition : Partition) : OptionDocument :=
  option partition.key
    (anchored (Text.join [digitGroup partition.referenceDigits, "\\.",
      digitGroup partition.companyDigits, "\\.sgtin\\.id\\.onsepc\\.com"]))
    "itemref '.' companyprefix '.sgtin.id.onsepc.com'"
    [paddedNumber "itemref" 1 partition.referenceDigits (some partition.referenceBits),
     paddedNumber "companyprefix" 2 partition.companyDigits partition.companyBits]

/-- The host name of an item class, which has no common start. -/
def sgtinOnsLevel (partitions : List Partition) : LevelDocument :=
  { type := .text LevelType.onsHostname.name
    prefixMatch := some .null
    options := partitions.map sgtinOnsOption
    rules := some [] }

/-- The bits of the company prefix index of an SGTIN-64. -/
def companyIndexBits : Nat := 14

/-- The binary level of SGTIN-64. -/
def sgtin64BinaryLevel (serialBits : Nat) : LevelDocument :=
  level .binary "10"
    (sgtin64Partitions.map fun partition =>
      option partition.key
        (anchored (Text.join ["10", bitGroup filterBits, bitGroup companyIndexBits,
          bitGroup shortReferenceBits, bitGroup serialBits]))
        "'10' filter companyprefixindex itemref serial"
        [bits "filter" 1 filterBits, bits "companyprefixindex" 2 companyIndexBits,
         bits "itemref" 3 shortReferenceBits, bits "serial" 4 serialBits])
    (rules .extract [("companyprefix",
        "TABLELOOKUP(companyprefixindex,tdt64bitcpi,companyprefixindex,companyprefix)")] ++
      rules .format [("companyprefixindex",
        "TABLELOOKUP(companyprefix,tdt64bitcpi,companyprefix,companyprefixindex)")])

def sgtin64 : SchemeDocument :=
  let serial := Serial.numeric 25
  scheme "SGTIN-64" 64 companyPrefixLengthKey
    [sgtin64BinaryLevel serial.bitLength,
     uriLevel .tagEncoding "urn:epc:tag:sgtin-64" sgtin64Partitions "itemref" (some serial),
     uriLevel .pureIdentity "urn:epc:id:sgtin" sgtin64Partitions "itemref" (some serial),
     sgtinLegacyLevel sgtin64Partitions serial]

def sgtin96 : SchemeDocument :=
  let serial := Serial.numeric 38
  scheme "SGTIN-96" 96 companyPrefixLengthKey
    [partitionedBinaryLevel "00110000" sgtinPartitions "itemref" (some serial) 0,
     uriLevel .tagEncoding "urn:epc:tag:sgtin-96" sgtinPartitions "itemref" (some serial),
     uriLevel .pureIdentity "urn:epc:id:sgtin" sgtinPartitions "itemref" (some serial),
     sgtinLegacyLevel sgtinPartitions serial,
     sgtinOnsLevel sgtinPartitions]

def sgtin198 : SchemeDocument :=
  let serial := Serial.alphanumeric 140
  scheme "SGTIN-198" 198 companyPrefixLengthKey
    [partitionedBinaryLevel "00110110" sgtinPartitions "itemref" (some serial) 0,
     uriLevel .tagEncoding "urn:epc:tag:sgtin-198" sgtinPartitions "itemref" (some serial),
     uriLevel .pureIdentity "urn:epc:id:sgtin" sgtinPartitions "itemref" (some serial),
     sgtinLegacyLevel sgtinPartitions serial]

/-! ## Logistic units, locations and assets -/

/-- The reserved zeros at the end of an SSCC-96. -/
def ssccReservedBits : Nat := 24

def sscc96 : SchemeDocument :=
  scheme "SSCC-96" 96 companyPrefixLengthKey
    [partitionedBinaryLevel "00110001" ssccPartitions "serialref" none ssccReservedBits,
     uriLevel .tagEncoding "urn:epc:tag:sscc-96" ssccPartitions "serialref" none,
     uriLevel .pureIdentity "urn:epc:id:sscc" ssccPartitions "serialref" none,
     legacyLevel "sscc=" ssccPartitions
      (anchored (Text.join ["sscc=", digitGroup 18]))
      "'sscc=' sscc"
      [keyField "sscc" 1 18]
      [("extensiondigit", "SUBSTR(sscc,0,1)"),
       ("ssccbody", "SUBSTR(sscc,1,16)"),
       ("companyprefix", "SUBSTR(ssccbody,0,companyprefixlength)"),
       ("serialrefremainder", "SUBSTR(ssccbody,companyprefixlength)"),
       ("serialref", "CONCAT(extensiondigit,serialrefremainder)")]
      [("extensiondigit", "SUBSTR(serialref,0,1)"),
       ("serialrefremainder", "SUBSTR(serialref,1)"),
       ("ssccbody", "CONCAT(extensiondigit,companyprefix,serialrefremainder)"),
       ("checkdigit", "GS1CHECKSUM(ssccbody)"),
       ("sscc", "CONCAT(ssccbody,checkdigit)")]]

def sgln96 : SchemeDocument :=
  let serial := Serial.numeric 41
  scheme "SGLN-96" 96 companyPrefixLengthKey
    [partitionedBinaryLevel "00110010" sglnPartitions "locationref" (some serial) 0,
     uriLevel .tagEncoding "urn:epc:tag:sgln-96" sglnPartitions "locationref" (some serial),
     uriLevel .pureIdentity "urn:epc:id:sgln" sglnPartitions "locationref" (some serial),
     legacyLevel "gln=" sglnPartitions
      (anchored (Text.join ["gln=", digitGroup 13, ";serial=", serial.pattern]))
      "'gln=' gln ';serial=' serial"
      [keyField "gln" 1 13, serial.textField 2]
      [("glnbody", "SUBSTR(gln,0,12)"),
       ("companyprefix", "SUBSTR(glnbody,0,companyprefixlength)"),
       ("locationref", "SUBSTR(glnbody,companyprefixlength)")]
      [("glnbody", "CONCAT(companyprefix,locationref)"),
       ("checkdigit", "GS1CHECKSUM(glnbody)"),
       ("gln", "CONCAT(glnbody,checkdigit)")]]

def grai96 : SchemeDocument :=
  let serial := Serial.numeric 38
  scheme "GRAI-96" 96 companyPrefixLengthKey
    [partitionedBinaryLevel "00110011" graiPartitions "assettype" (some serial) 0,
     uriLevel .tagEncoding "urn:epc:tag:grai-96" graiPartitions "assettype" (some serial),
     uriLevel .pureIdentity "urn:epc:id:grai" graiPartitions "assettype" (some serial),
     legacyLevel "grai=" graiPartitions
      (anchored (Text.join ["grai=0", digitGroup 12, "([0-9])", serial.pattern]))
      "'grai=0' graibody checkdigit serial"
      [keyField "graibody" 1 12, keyField "checkdigit" 2 1, serial.textField 3]
      [("companyprefix", "SUBSTR(graibody,0,companyprefixlength)"),
       ("assettype", "SUBSTR(graibody,companyprefixlength)")]
      [("graibody", "CONCAT(companyprefix,assettype)"),
       ("checkdigit", "GS1CHECKSUM(graibody)")]]

/-- The definitions of the GS1 schemes. -/
def gs1Definitions : List SchemeDocument := [sgtin64, sgtin96, sgtin198, sscc96, sgln96, grai96]

end EpcTag.Builtin
