-- SUMMARY: From captured text or bits to field values, and from field values to bits.
import EpcTag.Bits
import EpcTag.Context
import EpcTag.Validation

/-!
# Field coding

A field of the binary level holds bits, and its value is text. The field of the
same name in the tag URI level, its *tag field*, carries the character set, the
decimal limits and the padding of that text. Decoding turns bits into text:
padding bits are stripped, packed characters unpacked or the number written in
decimal, and pad characters stripped or added. Encoding goes the other way and
fills up to the width of the field.
-/

namespace EpcTag

namespace Field

/-- The value of bits without padding: the unpacked characters or the number. Bits
    without a one hold no characters. -/
def readBits (field : Field) (bits : Text) : Except Error Text :=
  match field.compaction with
  | some method => if bits.contains '1' then method.unpack bits else .ok []
  | none => Bits.toDecimal bits

/-- The bits that hold the value of a field: without the zeros at the edge where
    the field is filled up, if it names one. -/
def strippedBits (field : Field) (bits : Text) : Text :=
  match field.bitPadEdge with
  | none => bits
  | some edge => Bits.strip edge ((field.compaction.map Compaction.width).getD 0) bits

/-- The text that a decoded value is in the tag URI: with the pad characters of the
    binary form removed, or those of the tag form added. -/
def padDecoded (field : Field) (tag : Option Field) (value : Scalar) : Except Error Scalar :=
  if field.padChar ≠ .null then
    if tag.any (·.padChar ≠ .null) then .error (.padConflict field.name)
    else Padding.stripValue value field.padEdge field.padChar
  else match tag with
    | some tag => Padding.padValue value tag.padEdge tag.padChar tag.length
    | none => .ok value

/-- The text that goes into the bits of a field: with the pad characters of the tag
    form removed, or those of the binary form added. -/
def padEncoded (field : Field) (tag : Option Field) (value : Scalar) : Except Error Scalar :=
  match tag.filter (·.padChar ≠ .null) with
  | some tag =>
    if field.padChar ≠ .null then .error (.padConflict field.name)
    else Padding.stripValue value tag.padEdge tag.padChar
  | none => Padding.padValue value field.padEdge field.padChar field.length

/-- The value of a field that holds the given bits. -/
def decode (validator : Validator) (field : Field) (tag : Option Field) (bits : Text) :
    Traced Text := do
  let raw ← field.readBits (field.strippedBits bits)
  if let (none, some tag) := (field.compaction, tag) then
    let _ ← validator.checkRange field.name (.text raw) tag.minimum tag.maximum
  let value ← (← field.padDecoded tag (.text raw)).operand
  match tag with
  | none => pure value
  | some tag =>
    if field.compaction.isSome then
      let _ ← validator.checkCharacterSet field.name (.text value) tag.characterSet
    pure (if tag.length = some 0 then [] else value)

/-- The bits of a value, filled up with zeros to the width of a field. A field of
    no bits takes every value. -/
def fitBits (field : Field) (bits : Text) : Except Error Text :=
  match field.bitLength with
  | none => .ok bits
  | some width =>
    if width = 0 then .ok []
    else if width < bits.length then .error (.bitOverflow field.name bits.length width)
    else
      let fill := List.replicate (width.toNat - bits.length) '0'
      match field.bitPadEdge with
      | some .right => .ok (bits ++ fill)
      | _ => .ok (fill ++ bits)

/-- The bits of a decimal value; a void value is zero. -/
def decimalBits (field : Field) (value : Scalar) : Except Error Text := do
  let text ← value.contentOrVoid
  match Bits.ofDecimal text with
  | .ok bits => .ok bits
  | .error _ => .error (.badValue (.notDecimal field.name text))

/-- The bits of a field that holds the given value. -/
def encode (validator : Validator) (field : Field) (tag : Option Field) (value : Scalar) :
    Traced Text := do
  if let (some _, some tag) := (field.compaction, tag) then
    let _ ← validator.checkCharacterSet field.name value tag.characterSet
  let padded ← field.padEncoded tag value
  match field.compaction with
  | some method => field.fitBits (method.pack (← padded.operand))
  | none =>
    if let some tag := tag then
      let _ ← validator.checkRange field.name padded tag.minimum tag.maximum
    field.fitBits (← field.decimalBits padded)

end Field

namespace LevelOption

/-- The tag field of a name. -/
def tagField? (tagOption : Option LevelOption) (name : Text) : Option Field :=
  tagOption.bind (·.field? name)

/-- The value of a field that captured the given text, which are bits in a binary
    option. -/
def readField (validator : Validator) (binary : Bool) (field : Field) (tag : Option Field)
    (captured : Text) : Traced Text :=
  if binary then field.decode validator tag captured
  else match tag with
    | none => pure captured
    | some tag => do
      let _ ← validator.checkField tag (.text captured)
      pure (if tag.length = some 0 then [] else captured)

/-- The values of fields, stored one after the other. A group that took no part in
    the match has captured nothing. -/
def decodeFields (validator : Validator) (binary : Bool) (tagOption : Option LevelOption)
    (found : Pattern.Match) : List Field → Pairs Text Text → Traced (Pairs Text Text)
  | [], values => pure values
  | field :: rest, values => do
    let captured := (field.group.bind fun group => found.group? group.toNat).getD []
    let value ← readField validator binary field (tagField? tagOption field.name) captured
    Traced.record (.fieldDecoded field.name value)
    decodeFields validator binary tagOption found rest (values.insert field.name value)

/-- The values of all fields of an option whose pattern matched an input. -/
def decode (validator : Validator) (option : LevelOption) (found : Pattern.Match) (binary : Bool)
    (tagOption : Option LevelOption) : Traced (Pairs Text Text) :=
  decodeFields validator binary tagOption found option.fields []

/-- The bits of fields, stored one after the other. -/
def encodeFields (validator : Validator) (key : Text) (tagOption : Option LevelOption)
    (context : Context) : List Field → Pairs Text Text → Traced (Pairs Text Text)
  | [], encoded => pure encoded
  | field :: rest, encoded =>
    match context.field? field.name with
    | none => Traced.fail (.missingField (.inOption field.name key))
    | some value => do
      let bits ← field.encode validator (tagField? tagOption field.name) value
      Traced.record (.fieldEncoded field.name value bits)
      encodeFields validator key tagOption context rest (encoded.insert field.name bits)

/-- The bits of all fields of a binary option, whose values are in a context. -/
def encode (validator : Validator) (option : LevelOption) (context : Context)
    (tagOption : Option LevelOption) : Traced (Pairs Text Text) :=
  encodeFields validator option.key tagOption context option.fields []

/-- Checks the values that a context has for fields. To have nothing is to have no
    value. -/
def validateFields (validator : Validator) (context : Context) : List Field → Traced Unit
  | [] => pure ()
  | field :: rest => do
    let value := (context.field? field.name).getD .null
    if value ≠ .null then
      let _ ← validator.checkField field value
    validateFields validator context rest

/-- Checks the values that a context has for the fields of an option. -/
def validate (validator : Validator) (option : LevelOption) (context : Context) : Traced Unit :=
  validateFields validator context option.fields

end LevelOption

end EpcTag
