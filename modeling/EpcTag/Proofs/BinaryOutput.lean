-- SUMMARY: What is written at the binary level: exactly the bits of a tag, whatever the values come from.
import EpcTag.Proofs.BuiltinSchemes

/-!
# Binary output

The values of a tag come from bits, from texts, from parameters, from rules and
from tables, so nothing is known of them when they are encoded. Still a field is
either refused or filled up to its width, and the widths, the header and the number
of the partition make up the length of the tag. So whatever is written at the binary
level of a built-in scheme is a tag of the scheme.
-/

namespace EpcTag

/-! ## Fields -/

namespace Field

variable {field : Field} {width : Nat} {bits result : Text}

/-- Bits that fit a field are filled up to its width. -/
theorem of_fitBits (hlength : field.bitLength = some (width : Int)) (hwidth : 0 < width)
    (hdigits : Numeral.Digits 2 bits) (h : field.fitBits bits = .ok result) :
    Numeral.Digits 2 result ∧ result.length = width := by
  rcases Nat.lt_or_ge width bits.length with hlt | hle
  · rw [fitBits_of_lt hlength hwidth hlt] at h
    cases h
  · rw [fitBits_of_le hlength hle] at h
    cases h
    refine ⟨Bits.digits_fill _ _ hdigits, ?_⟩
    rw [Bits.length_fill, Nat.add_sub_cancel' hle]

/-- A value that has bits is a decimal number, or void. -/
theorem exists_of_decimalBits {value : Scalar} (h : field.decimalBits value = .ok bits) :
    ∃ text, value.contentOrVoid = .ok text ∧ Numeral.Digits 10 text ∧
      bits = Nat.toDigits 2 (Numeral.value 10 text) := by
  obtain ⟨text, hcontent, h⟩ := bind_eq_ok_iff.mp h
  refine ⟨text, hcontent, ?_⟩
  split at h
  · next found hfound =>
    cases h
    unfold Bits.ofDecimal at hfound
    split at hfound
    · next hempty =>
      cases hfound
      obtain rfl : text = [] := by simpa using hempty
      exact ⟨Numeral.digits_nil 10, rfl⟩
    · split at hfound
      · next hdecimal =>
        cases hfound
        exact ⟨((Numeral.isDecimal_iff text).mp hdecimal).2, rfl⟩
      · cases hfound
  · cases h

theorem digits_of_decimalBits {value : Scalar} (h : field.decimalBits value = .ok bits) :
    Numeral.Digits 2 bits := by
  obtain ⟨text, -, -, rfl⟩ := exists_of_decimalBits h
  exact Numeral.digits_toDigits (by decide) (by decide) _

/-- Whatever is encoded, bits are fitted into the field. -/
theorem exists_fitBits {validator : Validator} {tag : Option Field} {value : Scalar}
    (h : (field.encode validator tag value).outcome = .ok result) :
    ∃ packed, Numeral.Digits 2 packed ∧ field.fitBits packed = .ok result := by
  revert h
  unfold encode
  cases field.compaction with
  | none =>
    -- a check of the tag field may come first; the bits are those of the number
    have hnumber {padded : Scalar} (h : ((liftM (field.decimalBits padded) : Traced Text) >>=
        fun bits => liftM (field.fitBits bits)).outcome = .ok result) :
        ∃ packed, Numeral.Digits 2 packed ∧ field.fitBits packed = .ok result := by
      obtain ⟨packed, hpacked, hfits⟩ := Traced.bind_outcome_eq_ok_iff.mp h
      exact ⟨packed, digits_of_decimalBits hpacked, hfits⟩
    intro h
    obtain ⟨padded, -, h⟩ := Traced.bind_outcome_eq_ok_iff.mp h
    cases tag with
    | none => exact hnumber h
    | some tag =>
      obtain ⟨within, -, h⟩ := Traced.bind_outcome_eq_ok_iff.mp h
      exact hnumber h
  | some method =>
    -- a check of the tag field may come first; the bits are those of the packed text
    have hpack (h : ((liftM (field.padEncoded tag value) : Traced Scalar) >>= fun padded =>
        (liftM padded.operand : Traced Text) >>= fun text =>
          liftM (field.fitBits (method.pack text))).outcome = .ok result) :
        ∃ packed, Numeral.Digits 2 packed ∧ field.fitBits packed = .ok result := by
      obtain ⟨padded, -, h⟩ := Traced.bind_outcome_eq_ok_iff.mp h
      obtain ⟨text, -, hfits⟩ := Traced.bind_outcome_eq_ok_iff.mp h
      exact ⟨_, method.digits_pack text, hfits⟩
    intro h
    cases tag with
    | none => exact hpack h
    | some tag =>
      obtain ⟨conforming, -, h⟩ := Traced.bind_outcome_eq_ok_iff.mp h
      exact hpack h

/-- Whatever is encoded has exactly the width of the field. -/
theorem of_encode {validator : Validator} {tag : Option Field} {value : Scalar}
    (hlength : field.bitLength = some (width : Int)) (hwidth : 0 < width)
    (h : (field.encode validator tag value).outcome = .ok result) :
    Numeral.Digits 2 result ∧ result.length = width := by
  obtain ⟨packed, hpacked, hfits⟩ := exists_fitBits h
  exact of_fitBits hlength hwidth hpacked hfits

end Field

/-! ## Options -/

namespace LevelOption

variable {validator : Validator} {tagOption : Option LevelOption} {context : Context}
  {option : LevelOption} {template : Template}

/-- The bits that a field may be encoded into, whatever its value is. -/
def Encodes (validator : Validator) (tagOption : Option LevelOption) (field : Field) (bits : Text) :
    Prop :=
  ∃ value, (field.encode validator (tagField? tagOption field.name) value).outcome = .ok bits

/-- Encoded fields are stored in their order. -/
theorem exists_of_encodeFields {key : Text} {fields : List Field}
    {stored result : Pairs Text Text} (hnodup : (stored.map Prod.fst ++ fields.map Field.name).Nodup)
    (h : (encodeFields validator key tagOption context fields stored).outcome = .ok result) :
    ∃ bits, List.Forall₂ (Encodes validator tagOption) fields bits ∧
      result = stored ++ (fields.map Field.name).zip bits := by
  induction fields generalizing stored with
  | nil =>
    cases h
    exact ⟨[], .nil, by simp⟩
  | cons field fields ih =>
    unfold encodeFields at h
    split at h
    · cases h
    · next value _ =>
      obtain ⟨bits, hbits, h⟩ := Traced.bind_outcome_eq_ok_iff.mp h
      obtain ⟨_, -, h⟩ := Traced.bind_outcome_eq_ok_iff.mp h
      have hnot : field.name ∉ stored.map Prod.fst := by
        intro hmem
        exact (List.nodup_append.mp hnodup).2.2 _ hmem _ (by simp) rfl
      rw [Pairs.insert_of_not_mem bits hnot] at h
      obtain ⟨rest, hrest, rfl⟩ := ih (by simpa using hnodup) h
      exact ⟨bits :: rest, .cons ⟨value, hbits⟩ hrest, by simp⟩

/-- What an option encodes, whatever the context holds. -/
theorem Follows.exists_of_encode (h : option.Follows template) {result : Pairs Text Text}
    (hresult : (option.encode validator context tagOption).outcome = .ok result) :
    ∃ bits, List.Forall₂ (Encodes validator tagOption) option.fields bits ∧
      result = template.names.zip bits := by
  obtain ⟨bits, hbits, rfl⟩ := exists_of_encodeFields h.nodup_fields hresult
  rw [h.names_eq]
  exact ⟨bits, hbits, rfl⟩

end LevelOption

/-! ## Tags -/

/-- Bits that are a tag of a scheme: of its length, with the prefix of its binary level, and
    matched by the option of the given key. -/
structure Scheme.IsTag (scheme : Scheme) (key bits : Text) : Prop where
  digits : Numeral.Digits 2 bits
  length : (bits.length : Int) = scheme.tagLength
  matched : ∃ level option start, scheme.level? .binary = some level ∧
    level.option? key = some option ∧ level.start = .text start ∧
      start.isPrefixOf bits = true ∧ (option.match? bits).isSome = true

/-- The field of a coding is encoded into bits that fit its slot. -/
theorem Coding.fits_of_encode {coding : Coding} (hwidth : 0 < coding.width) {name bits : Text}
    {group : Nat} {validator : Validator} {tag : Option Field} {value : Scalar}
    (h : ((coding.binaryField name group).encode validator tag value).outcome = .ok bits) :
    coding.bitSlot.Fits bits := by
  have hlength : (coding.binaryField name group).bitLength = some (coding.width : Int) := by
    cases coding with
    | number form width => rfl
    | packed form => exact PackedForm.binaryField_bitLength name group form
  exact Coding.fits_bitSlot_iff.mpr (Field.of_encode hlength hwidth h)

theorem Part.fits_of_encodes {parts : List Part} {bits : List Text} {group : Nat}
    {validator : Validator} {tagOption : Option LevelOption}
    (hwidth : ∀ part ∈ parts, 0 < part.coding.width)
    (h : List.Forall₂ (LevelOption.Encodes validator tagOption) (binaryFields group parts) bits) :
    List.Forall₂ Slot.Fits (parts.map fun part => part.coding.bitSlot) bits := by
  induction parts generalizing group bits with
  | nil =>
    cases h
    exact .nil
  | cons part parts ih =>
    obtain ⟨first, rest, ⟨value, hvalue⟩, hrest, rfl⟩ := List.forall₂_cons_left_iff.mp h
    refine .cons (Coding.fits_of_encode (hwidth part (by simp)) hvalue) (ih ?_ hrest)
    exact fun other hother => hwidth other (by simp [hother])

/-- Bits that fit the slots of parts have their widths together. -/
theorem Part.flatten_of_fits {parts : List Part} {bits : List Text}
    (h : List.Forall₂ Slot.Fits (parts.map fun part => part.coding.bitSlot) bits) :
    Numeral.Digits 2 bits.flatten ∧
      bits.flatten.length = (parts.map fun part => part.coding.width).sum := by
  induction parts generalizing bits with
  | nil =>
    cases h
    exact ⟨Numeral.digits_nil 2, rfl⟩
  | cons part parts ih =>
    obtain ⟨first, rest, hfirst, hrest, rfl⟩ := List.forall₂_cons_left_iff.mp h
    obtain ⟨hdigits, hlen⟩ := Coding.fits_bitSlot_iff.mp hfirst
    obtain ⟨hdigits', hlen'⟩ := ih hrest
    refine ⟨Numeral.digits_append.mpr ⟨hdigits, hdigits'⟩, ?_⟩
    rw [List.flatten_cons, List.length_append, hlen, hlen', List.map_cons, List.sum_cons]

namespace TagForm

variable {Place : Type} {form : TagForm Place} {parts : Place → List Part} {place : Place}
  {bits : List Text} {key result : Text}

/-- The given parts and the literals take up all bits of a tag. -/
@[mk_iff]
structure Fills (form : TagForm Place) (parts : Place → List Part) : Prop where
  type : form.binary.type = .binary
  keys : (form.places.map form.key).Nodup
  follows : ∀ place ∈ form.places,
    (form.binary.option form.key place).Follows (form.binary.template place)
  opens : ∀ place ∈ form.places, form.binary.opens place = true
  fields : ∀ place ∈ form.places, form.binary.fields place = Part.binaryFields 1 (parts place)
  slots : ∀ place ∈ form.places, (form.binary.template place).slots =
    (parts place).map fun part => part.coding.bitSlot
  widths : ∀ place ∈ form.places, ∀ part ∈ parts place, 0 < part.coding.width
  literals : ∀ place ∈ form.places, Numeral.Digits 2 (form.binary.template place).literals ∧
    (form.binary.template place).literals.length +
      ((parts place).map fun part => part.coding.width).sum = form.tagLength

instance (form : TagForm Place) (parts : Place → List Part) : Decidable (form.Fills parts) :=
  decidable_of_iff' _ (fills_iff form parts)

/-- The binary level comes first. -/
theorem Fills.level?_eq (h : form.Fills parts) :
    form.scheme.level? .binary = some (form.level form.binary) := by
  have htype : (form.level form.binary).type = .binary := h.type
  change List.find? _ (form.level form.binary :: _) = _
  rw [List.find?_cons_of_pos (by simpa using htype)]

/-- Bits of all parts make up a tag. -/
theorem Fills.isTag (h : form.Fills parts) (hplace : place ∈ form.places)
    (hfits : List.Forall₂ Slot.Fits ((parts place).map fun part => part.coding.bitSlot) bits) :
    form.scheme.IsTag (form.key place) ((form.binary.template place).text bits) := by
  obtain ⟨hdigits, hroom⟩ := h.literals place hplace
  obtain ⟨hbits, hlen⟩ := Part.flatten_of_fits hfits
  rw [← h.slots place hplace] at hfits
  have hperm := Template.text_perm hfits.length_eq.symm
  refine ⟨?digits, ?length, ?matched⟩
  case digits =>
    intro c hc
    exact Numeral.digits_append.mpr ⟨hdigits, hbits⟩ c (hperm.mem_iff.mp hc)
  case length =>
    rw [hperm.length_eq, List.length_append, hlen, hroom]
    rfl
  case matched =>
    obtain ⟨start, hstart, hprefix, -⟩ := LevelForm.opens_cases (h.opens place hplace) bits
    refine ⟨_, form.binary.option form.key place, start, h.level?_eq, ?_, hstart, hprefix, ?_⟩
    · exact @Engine.option?_of_place Place form.places (form.binary.option form.key)
        (form.level form.binary) place rfl h.keys hplace
    · have hfollows := h.follows place hplace
      rw [hfollows.match?_eq, Template.read?_text hfollows.separated hfits]
      rfl

/-- What is written at the binary level is a tag, whatever the context holds. -/
theorem Fills.isTag_of_write (h : form.Fills parts) {engine : Engine} {context : Context}
    (hwrite : engine.write ⟨form.scheme, key, context⟩ LevelType.binary.name = .ok result) :
    form.scheme.IsTag key result := by
  obtain ⟨⟨level, option⟩, houtput, hwrite⟩ := bind_eq_ok_iff.mp hwrite
  obtain ⟨derived, -, hrender⟩ := bind_eq_ok_iff.mp hwrite
  -- the option is that of a place
  obtain ⟨place, hplace, rfl, rfl⟩ : ∃ place ∈ form.places, form.key place = key ∧
      form.binary.option form.key place = option := by
    rw [Engine.outputOption, Scheme.levelNamed?, LevelType.ofName?_name, Option.bind_some,
      h.level?_eq] at houtput
    dsimp only at houtput
    split at houtput
    · cases houtput
    · next hoption =>
      cases houtput
      have hmem := List.mem_of_find?_eq_some hoption
      obtain ⟨place, hplace, rfl⟩ := List.mem_map.mp hmem
      have hkey := List.find?_some hoption
      exact ⟨place, hplace, eq_of_beq hkey, rfl⟩
  have hfollows := h.follows place hplace
  obtain ⟨encoded, hencode⟩ : ∃ encoded, ((form.binary.option form.key place).encode
      engine.validator derived (form.scheme.tagOption? (form.key place))).outcome =
        .ok encoded := by
    rw [Engine.renderOutput, if_pos rfl] at hrender
    obtain ⟨encoded, hencode, -⟩ := Traced.bind_outcome_eq_ok_iff.mp hrender
    exact ⟨encoded, hencode⟩
  obtain ⟨bits, hbits, rfl⟩ := hfollows.exists_of_encode hencode
  have hfields : (form.binary.option form.key place).fields = Part.binaryFields 1 (parts place) :=
    h.fields place hplace
  have hlen : (form.binary.template place).names.length = bits.length := by
    rw [← hbits.length_eq, ← hfollows.names_eq, List.length_map]
  rw [Engine.renderOutput_of_encode hfollows hlen hencode] at hrender
  cases hrender
  rw [hfields] at hbits
  exact h.isTag hplace (Part.fits_of_encodes (h.widths place hplace) hbits)

end TagForm

/-! ## The built-in schemes -/

namespace Builtin

/-- The parts of all built-in schemes take up all bits. -/
theorem fills :
    (∀ form ∈ Gs1Form.sgtin198 :: Gs1Form.numeric, form.tagForm.Fills form.parts) ∧
      (∀ form ∈ [SingleForm.gid96, .usdod64, .usdod96], form.tagForm.Fills fun _ => form.parts) ∧
        Gs1Form.shortForm.Fills Gs1Form.shortParts := by decide +kernel

/-- A built-in scheme is that of a form whose parts take up all bits. -/
theorem exists_fills {scheme : Scheme} (h : scheme ∈ schemes) :
    ∃ (Place : Type) (form : TagForm Place) (parts : Place → List Part),
      scheme = form.scheme ∧ form.Fills parts := by
  rcases scheme_cases h with ⟨form, hform, rfl⟩ | ⟨form, hform, rfl⟩ | rfl
  · exact ⟨_, _, _, rfl, fills.1 form hform⟩
  · exact ⟨_, _, _, rfl, fills.2.1 form hform⟩
  · exact ⟨_, _, _, rfl, fills.2.2⟩

/-- What is written at the binary level of a built-in scheme is a tag of it. -/
theorem isTag_of_write {engine : Engine} {scheme : Scheme} {key result : Text} {context : Context}
    (hscheme : scheme ∈ schemes)
    (hwrite : engine.write ⟨scheme, key, context⟩ LevelType.binary.name = .ok result) :
    scheme.IsTag key result := by
  obtain ⟨Place, form, parts, rfl, hfills⟩ := exists_fills hscheme
  exact hfills.isTag_of_write hwrite

end Builtin

/-- A value that the built-in engine converts to bits is resolved to a scheme and one of
    its options, and the bits are a tag of that scheme and option, whatever level the value
    comes from and whatever parameters and tables there are. -/
theorem convert_binary_isTag {settings : Engine.Settings} {engine : Engine}
    (hengine : (Engine.builtin settings).outcome = .ok engine) {value : Text}
    {inputLevel : Option Text} {tagLength : Scalar} {params : Params} {result : Text}
    (hresult : (engine.convertFromLevel value inputLevel tagLength params
      LevelType.binary.name).outcome = .ok result) :
    ∃ scheme level option found,
      (engine.index.resolve (Engine.plainValue value) tagLength inputLevel).outcome =
          .ok ⟨scheme, level⟩ ∧
        Engine.select scheme level (Engine.plainValue value)
            (Engine.startContext params scheme) = .ok (option, found) ∧
          scheme.IsTag option.key result := by
  rw [Engine.convertFromLevel_outcome] at hresult
  obtain ⟨reading, hread, hwrite⟩ := bind_eq_ok_iff.mp hresult
  obtain ⟨⟨scheme, level⟩, hresolve, hread⟩ := bind_eq_ok_iff.mp hread
  obtain ⟨⟨option, found⟩, hselect, hread⟩ := bind_eq_ok_iff.mp hread
  obtain ⟨values, -, hread⟩ := bind_eq_ok_iff.mp hread
  obtain ⟨context, -, hreading⟩ := bind_eq_ok_iff.mp hread
  cases hreading
  exact ⟨scheme, level, option, found, hresolve, hselect,
    Builtin.isTag_of_write (Engine.scheme_mem_of_resolve hengine hresolve) hwrite⟩

/-- The element string of a trade item. -/
def itemString : Text := "gtin=00037000302414;serial=10419703191"

/-- What the element string of a trade item does not tell. -/
def itemParams : Params := [("filter", .integer 3), ("companyprefixlength", .text "7")]

/-- The tag of the trade item: header, filter, partition, company prefix, item reference
    and serial number. -/
def itemBits : Text := Text.join
  ["00110000", "011", "101", "000000001001000010001000", "00000111011000100001",
   "00001001101101000100000000110110010111"]

/-- The element string of the trade item is converted to its tag. -/
theorem convert_binary_isTag_item :
    ∃ engine, (Engine.builtin { strict := true }).outcome = .ok engine ∧
      (engine.convertFromLevel itemString (some LevelType.legacy.name) (.integer 96) itemParams
        LevelType.binary.name).outcome = .ok itemBits ∧
      ∃ scheme level option found,
        (engine.index.resolve (Engine.plainValue itemString) (.integer 96)
            (some LevelType.legacy.name)).outcome = .ok ⟨scheme, level⟩ ∧
          Engine.select scheme level (Engine.plainValue itemString)
              (Engine.startContext itemParams scheme) = .ok (option, found) ∧
            scheme.IsTag option.key itemBits := by
  obtain ⟨engine, hengine, hconvert⟩ :
      ∃ engine, (Engine.builtin { strict := true }).outcome = .ok engine ∧
        (engine.convertFromLevel itemString (some LevelType.legacy.name) (.integer 96) itemParams
          LevelType.binary.name).outcome = .ok itemBits :=
    ⟨_, Engine.builtin_outcome _, eq_ok_of_toOption (by decide +kernel)⟩
  exact ⟨engine, hengine, hconvert, convert_binary_isTag hengine hconvert⟩

end EpcTag
