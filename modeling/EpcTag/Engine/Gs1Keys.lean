-- SUMMARY: Conversions between GS1 keys and pure identity URIs.
import EpcTag.Engine.Basic

/-!
# GS1 keys

A GTIN with a serial number, an SSCC and a GLN with a serial number can be
converted to a pure identity URI without naming a tag: the tag length follows
from the serial number, and the length of the company prefix is given or
inferred from the known company prefixes.
-/

namespace EpcTag.Engine

/-- The name of the parameter that holds the length of the company prefix. -/
def companyPrefixLengthName : Text := "companyprefixlength"

/-- The length of the company prefix that starts some digits, as a parameter. An
    absent length is inferred. -/
def companyPrefixLength (engine : Engine) (digits : Text) (length : Scalar) : Traced Text :=
  if length = .null then
    match engine.companyPrefixes.prefixLength? digits with
    | none => Traced.fail (.noMatch (.noKnownPrefix digits))
    | some length => do
      Traced.record (.prefixLengthInferred length digits)
      pure (Text.ofNat length)
  else do
    pure (Text.ofInt (← Traced.ofExcept length.toInteger))

/-- The parameters of a conversion of a GS1 key. -/
def keyParams (tagLength companyPrefixLength : Text) : Params :=
  [(tagLengthName, .text tagLength), (companyPrefixLengthName, .text companyPrefixLength)]

/-! ## Serialised GTINs -/

/-- The greatest number of bits of a serial number on a tag of 96 bits. -/
def shortSerialBits : Nat := 38

/-- The length of the tag that can hold a serial number: 96 bits for a decimal
    number without leading zeros that is small enough, else 198. -/
def serialTagLength (serial : Text) : Text :=
  if Numeral.isDecimal serial ∧ (serial = ['0'] ∨ serial.head? ≠ some '0') ∧
      Numeral.value 10 serial < Nat.pow 2 shortSerialBits then "96" else "198"

/-- The pure identity URI of a GTIN with a serial number. -/
def gtinSerialToPureIdentity (engine : Engine) (gtin serial : Text) (length : Scalar) :
    Traced Text := do
  let gtin := Text.zeroFill 14 gtin
  let digits ← engine.companyPrefixLength (Text.slice gtin 1 13) length
  engine.convert (Text.join ["gtin=", gtin, ";serial=", serial])
    (keyParams (serialTagLength serial) digits) LevelType.pureIdentity.name

/-- The elements with one more, which is written with its label in front. -/
def addElement (elements : Pairs Text Text) (part : Text) : Except Error (Pairs Text Text) :=
  match Text.splitFirst '=' part with
  | some (label, value) => .ok (Pairs.insert elements label value)
  | none => .error (.fault (.unlabelledElement part))

/-- The labelled elements of an element string. A label that comes twice has its
    last value. -/
def legacyElements (legacy : Text) : Except Error (Pairs Text Text) :=
  (Text.splitAll ';' legacy).foldlM addElement []

/-- The element of a label. -/
def legacyElement (elements : Pairs Text Text) (label : Text) : Except Error Text :=
  match elements.get? label with
  | some value => .ok value
  | none => .error (.fault (.missingElement label))

/-- The GTIN and the serial number of a pure identity URI. -/
def pureIdentityToGtinSerial (engine : Engine) (epc : Text) : Traced (Text × Text) := do
  let serial := UriEscape.unescape (Text.afterLast '.' epc)
  let legacy ← engine.convert epc [(tagLengthName, .text (serialTagLength serial))]
    LevelType.legacy.name
  let elements ← Traced.ofExcept (legacyElements legacy)
  let gtin ← Traced.ofExcept (legacyElement elements "gtin")
  let serial ← Traced.ofExcept (legacyElement elements "serial")
  pure (gtin, serial)

/-! ## Logistic units and locations -/

/-- The pure identity URI of an SSCC. -/
def ssccToPureIdentity (engine : Engine) (sscc : Text) (length : Scalar) : Traced Text := do
  let sscc := Text.zeroFill 18 sscc
  let digits ← engine.companyPrefixLength (Text.slice sscc 1 17) length
  engine.convert (Text.join ["sscc=", sscc]) (keyParams "96" digits) LevelType.pureIdentity.name

/-- The SSCC of a pure identity URI. -/
def pureIdentityToSscc (engine : Engine) (epc : Text) : Traced Text := do
  let legacy ← engine.convert epc [(tagLengthName, .text "96")] LevelType.legacy.name
  let elements ← Traced.ofExcept (legacyElements legacy)
  Traced.ofExcept (legacyElement elements "sscc")

/-- The pure identity URI of a GLN with a serial number. -/
def glnSerialToPureIdentity (engine : Engine) (gln serial : Text) (length : Scalar) :
    Traced Text := do
  let gln := Text.zeroFill 13 gln
  let digits ← engine.companyPrefixLength (Text.slice gln 0 12) length
  engine.convert (Text.join ["gln=", gln, ";serial=", serial]) (keyParams "96" digits)
    LevelType.pureIdentity.name

/-! ## Bits -/

/-- The pure identity URI of the bits of a tag. The tag length is the number of
    bits. -/
def binaryToPureIdentity (engine : Engine) (bits : Text) (params : Params) : Traced Text :=
  engine.convertFromLevel bits (some LevelType.binary.name) (.integer bits.length) params
    LevelType.pureIdentity.name

/-- The pure identity URI of bits without their first `drop` ones, or without as
    many more as it takes, up to `more`, until they match a scheme. -/
def dropToPureIdentity (engine : Engine) (bits : Text) (params : Params) (drop : Nat) :
    Nat → Traced Text
  | 0 => engine.binaryToPureIdentity (bits.drop drop) params
  | more + 1 =>
    let attempt := engine.binaryToPureIdentity (bits.drop drop) params
    match attempt.outcome with
    | .error (.noMatch _) =>
      let next := dropToPureIdentity engine bits params (drop + 1) more
      ⟨next.outcome, attempt.events ++ next.events⟩
    | _ => attempt

/-- The pure identity URI of a tag in hexadecimal text. The number of its bits is a
    multiple of four, so up to three leading bits may not belong to the tag. -/
def hexToPureIdentity (engine : Engine) (hex : Text) (params : Params) : Traced Text := do
  let bits ← Traced.ofExcept (Bits.ofHex hex)
  engine.dropToPureIdentity bits params 0 3

end EpcTag.Engine
