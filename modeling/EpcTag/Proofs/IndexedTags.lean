-- SUMMARY: SGTIN-64: tags that hold the index of a company prefix, which the table turns into the prefix and back.
import EpcTag.Proofs.BinaryOutput
import EpcTag.Proofs.CompanyPrefix
import EpcTag.Proofs.KeyRoundTrip
import EpcTag.Proofs.TagConversion

/-!
# Indexed tags

A tag of 64 bits has no room for a company prefix. It holds an index instead, and the
company prefix table leads from the index to the prefix and from the prefix to the
index. The bits do not say how many digits the prefix has, so they look alike at all
places and the parameter for this length chooses the option. The other levels of the
scheme are those of a trade item.
-/

namespace EpcTag

open Builtin (companyPrefixLengthKey)

namespace Gs1Form

/-! ## The form -/

theorem written_short : shortForm.Written := by decide +kernel

theorem separates_short : shortForm.Separates shortForm.tag where
  selfDescribing := rfl
  extract := rfl
  nodup := written_short.keys.of_map _
  follows := written_short.follows shortForm.tag (by simp [TagForm.sides])
  clashes := by decide +kernel

/-- What the data of a place must satisfy for its tags to be read and written. -/
@[mk_iff]
structure IndexedPlace (place : Place) : Prop where
  opens : ∀ side ∈ [shortForm.binary, shortForm.tag], side.opens place = true
  suits : ∀ part ∈ sgtin64.parts place, part.coding.suits part.slot = true
  widths : ∀ part ∈ shortParts place, 0 < part.coding.width
  numbers : ∀ part ∈ shortParts place, part.coding.isPacked = false
  /-- The company prefix and the item reference have thirteen digits. -/
  digits : place.1.companyBits = none ∧ place.1.referenceBits = 20 ∧ place.1.companyDigits ≤ 12 ∧
    place.1.referenceDigits = 13 - place.1.companyDigits
  /-- The index is not on the tag URI. -/
  untagged : LevelOption.tagField? (shortForm.scheme.tagOption? (shortForm.key place)) indexName =
    none
  /-- The bits look alike at all places. -/
  alike : ∀ other ∈ shortForm.places,
    shortBinarySide.template other = shortBinarySide.template place

instance (place : Place) : Decidable (IndexedPlace place) :=
  decidable_of_iff' _ (indexedPlace_iff place)

theorem indexedPlace : ∀ place ∈ shortForm.places, IndexedPlace place := by decide +kernel

theorem exists_place_short {digits : Nat} (hleast : 6 ≤ digits) (hmost : digits ≤ 12) :
    ∃ place ∈ shortForm.places, place.1.companyDigits = digits := by
  interval_cases digits <;> decide +kernel

/-! ## Fields -/

variable {place : Place} {validator : Validator} {filter index serial : Nat}
  {company reference : Text}

/-- The reference and the serial number. -/
def itemParts (place : Place) : List Part := sgtin64.referencePart place :: sgtin64.serialParts

/-- The fields of a tag whose company prefix has the index `index`. -/
def indexedTexts (filter index : Nat) (reference : Text) (serial : Nat) : List Text :=
  [Text.ofNat filter, Text.ofNat index, reference, Text.ofNat serial]

/-- The fields of its tag URI. -/
def itemTexts (filter : Nat) (company reference : Text) (serial : Nat) : List Text :=
  [Text.ofNat filter, company, reference, Text.ofNat serial]

/-- Every field but the index is on the tag URI. -/
theorem inTag_short (hplace : place ∈ shortForm.places) :
    Part.InTag (shortForm.scheme.tagOption? (shortForm.key place)) [filterPart] ∧
      Part.InTag (shortForm.scheme.tagOption? (shortForm.key place)) (itemParts place) ∧
        Part.InTag (shortForm.scheme.tagOption? (shortForm.key place)) (sgtin64.parts place) := by
  have hin : Part.InTag (shortForm.scheme.tagOption? (shortForm.key place))
      (sgtin64.parts place) := written_short.inTag rfl rfl hplace
  refine ⟨fun part hpart => hin part ?_, fun part hpart => hin part ?_, hin⟩
  · exact List.mem_singleton.mp hpart ▸ List.mem_cons_self ..
  · exact List.mem_cons_of_mem _ (List.mem_cons_of_mem _ hpart)

theorem widths_item (hplace : place ∈ shortForm.places) :
    ∀ part ∈ itemParts place, 0 < part.coding.width := fun part hpart =>
  (indexedPlace place hplace).widths part (List.mem_cons_of_mem _ (List.mem_cons_of_mem _ hpart))

theorem admit_filter (hfilter : filter ≤ 7) : Part.Admit [filterPart] [Text.ofNat filter] :=
  .cons ⟨filter, hfilter, rfl⟩ .nil

/-- The index is decoded as it is, since the tag URI has no field for it. -/
theorem reading_index (hplace : place ∈ shortForm.places) {bits : Text}
    (hbits : Numeral.Digits 2 bits) :
    LevelOption.reading validator true (shortForm.scheme.tagOption? (shortForm.key place))
      (NumberForm.binaryField indexName 2 14) bits = .ok (Text.ofNat (Numeral.value 2 bits)) := by
  rw [LevelOption.reading]
  change (Field.decode validator _ (LevelOption.tagField? _ indexName) bits).outcome = _
  rw [(indexedPlace place hplace).untagged]
  exact Field.decode_untagged hbits

/-- The fields of a tag are decoded from their bits. -/
theorem codes_reading_short (hplace : place ∈ shortForm.places) (hfilter : filter ≤ 7)
    (hitem : Part.Admit (itemParts place) [reference, Text.ofNat serial]) :
    LevelOption.Codes (LevelOption.reading validator true
        (shortForm.scheme.tagOption? (shortForm.key place))) (Part.binaryFields 1 (shortParts place))
      (Part.bits (shortParts place) (indexedTexts filter index reference serial))
      (indexedTexts filter index reference serial) := by
  obtain ⟨hfilterTag, hitemTag, -⟩ := inTag_short hplace
  refine ⟨(Part.codes_reading 1 hfilterTag (by decide) (admit_filter hfilter)).1, ?_,
    Part.codes_reading 3 hitemTag (widths_item hplace) hitem⟩
  have hvalue : Numeral.value 10 (Text.ofNat index) = index :=
    Numeral.value_toDigits (by decide) le_rfl
  refine (reading_index hplace (Numeral.digits_padded (by decide) (by decide) _ _)).trans ?_
  rw [Numeral.value_padded (by decide) (by decide), hvalue]

/-- They are encoded into these bits. -/
theorem codes_encoding_short (hplace : place ∈ shortForm.places) (hfilter : filter ≤ 7)
    (hindex : index < 2 ^ 14) (hitem : Part.Admit (itemParts place) [reference, Text.ofNat serial]) :
    LevelOption.Codes (LevelOption.encoding validator
        (shortForm.scheme.tagOption? (shortForm.key place))) (Part.binaryFields 1 (shortParts place))
      (indexedTexts filter index reference serial)
      (Part.bits (shortParts place) (indexedTexts filter index reference serial)) := by
  obtain ⟨hfilterTag, hitemTag, -⟩ := inTag_short hplace
  refine ⟨(Part.codes_encoding 1 hfilterTag (by decide) (admit_filter hfilter)).1, ?_,
    Part.codes_encoding 3 hitemTag (widths_item hplace) hitem⟩
  have hvalue : Numeral.value 10 (Text.ofNat index) = index :=
    Numeral.value_toDigits (by decide) le_rfl
  rw [LevelOption.encoding]
  change (Field.encode validator _ (LevelOption.tagField? _ indexName) _).outcome =
    .ok (Numeral.padded 2 14 (Numeral.value 10 (Text.ofNat index)))
  rw [(indexedPlace place hplace).untagged, hvalue]
  exact Field.encode_untagged (by decide) hindex

/-! ## Look-ups -/

/-- A look-up in the company prefix table is stored under the name of its output. -/
theorem derive_tableLookup_eq_ok_iff {engine : Engine} {context result : Context}
    {type : RuleType} {name value : Text} {given : Scalar}
    (hvalue : context.field? value = some given) :
    (Rules.derive engine.lookup context
        (Rules.numbered type 1 [tableLookup name value])).outcome = .ok result ↔
      ∃ answer, engine.companyPrefixes.lookup value name given = .ok answer ∧
        result = context.insert (.text name) (.text answer) := by
  have hcall : (tableLookup name value).call.eval engine.lookup context =
      (engine.companyPrefixes.lookup value name given).map .text := by
    rw [tableLookup, RuleCall.eval, RuleParam.value_field hvalue]
    change Engine.lookup engine Engine.companyPrefixTableName value name given = _
    exact if_pos rfl
  rw [Rules.derive_numbered, Rules.assign, hcall]
  cases engine.companyPrefixes.lookup value name given with
  | error error =>
    constructor
    · intro h
      cases h
    · rintro ⟨answer, h, -⟩
      cases h
  | ok answer =>
    constructor
    · intro h
      exact ⟨answer, rfl, (Except.ok.inj h).symm⟩
    · rintro ⟨_, h, rfl⟩
      cases h
      rfl

/-! ## Reading and writing -/

section
variable {engine : Engine} {hint : Scalar} {params : Params} {captures values : List Text}

/-- The option that is asked for is the parameter for the digits of the company prefix. -/
theorem requestedKey_short (params : Params) :
    Engine.requestedKey shortForm.scheme (Engine.startContext params shortForm.scheme) =
      (params.lookup companyPrefixLengthKey).map Scalar.shown := by
  have hoption : shortForm.scheme.optionKey = .text companyPrefixLengthKey := rfl
  rw [Engine.requestedKey_startContext params hoption (by decide), Params.field?_toContext,
    Option.map_map]
  rfl

/-- Bits are read at the place whose number of digits is asked for, and the company prefix
    is looked up. -/
theorem read_short_eq_ok_iff (hplace : place ∈ shortForm.places)
    (hfits : List.Forall₂ Slot.Fits (shortBinarySide.template place).slots captures)
    (hresolve : (engine.index.resolve (Engine.plainValue (shortBinarySide.text place captures))
      hint none).outcome = .ok ⟨shortForm.scheme, shortForm.level shortBinarySide⟩)
    {reading : Engine.Reading} :
    engine.read (shortBinarySide.text place captures) none hint params = .ok reading ↔
      ∃ other ∈ shortForm.places,
        (params.lookup companyPrefixLengthKey).map Scalar.shown = some other.1.key ∧
        ∃ values context, LevelOption.Codes (LevelOption.reading engine.validator true
            (shortForm.scheme.tagOption? (shortForm.key other)))
            (Part.binaryFields 1 (shortParts other)) captures values ∧
          (Rules.derive engine.lookup
            (shortForm.context params other (shortBinarySide.template other).names values)
            (Rules.numbered .extract 1 [tableLookup companyName indexName])).outcome =
              .ok context ∧
          reading = ⟨shortForm.scheme, other.1.key, context⟩ := by
  have hfollows := written_short.follows shortForm.binary (by simp [TagForm.sides])
  obtain ⟨start, -, -, hplain⟩ :=
    LevelForm.opens_cases ((indexedPlace place hplace).opens shortForm.binary (by simp)) captures
  -- all places have the same template, so the bits match at each of them
  have hlike (other : Place) (hother : other ∈ shortForm.places) :
      shortForm.binary.template other = shortBinarySide.template place :=
    (indexedPlace place hplace).alike other hother
  have hread : ∀ other ∈ shortForm.places, (shortForm.binary.template other).read?
      (Engine.plainValue (shortBinarySide.text place captures)) = some captures := by
    intro other hother
    rw [hlike other hother]
    exact (congrArg _ hplain).trans (Template.read?_text (hfollows place hplace).separated hfits)
  have hselect {option : LevelOption} {found : Pattern.Match} :=
    @Engine.select_of_alike_iff Place shortForm.places (shortForm.binary.option shortForm.key)
      shortForm.binary.template shortForm.scheme (shortForm.level shortForm.binary) _
      (Engine.startContext params shortForm.scheme) rfl rfl hfollows written_short.keys (by decide)
      captures hread option found
  rw [requestedKey_short] at hselect
  have hiff (other : Place) (hother : other ∈ shortForm.places)
      (hkey : (params.lookup companyPrefixLengthKey).map Scalar.shown = some other.1.key) :=
    @Engine.read_eq_ok_iff engine _ none hint params _ _ _ _ _ reading hresolve
      (hselect.mpr ⟨other, hother, hkey, rfl, rfl⟩) (hfollows other hother)
      ((hfollows other hother).length_fields ((hlike other hother).symm ▸ hfits))
  constructor
  · intro h
    obtain ⟨option, found, hfound⟩ := Engine.exists_select_of_read hresolve h
    obtain ⟨other, hother, hkey, -, -⟩ := hselect.mp hfound
    exact ⟨other, hother, hkey, (hiff other hother hkey).mp h⟩
  · rintro ⟨other, hother, hkey, h⟩
    exact (hiff other hother hkey).mpr h

/-- A context that gives a new value to the second field of a tag holds this value and the
    other fields. -/
theorem holds_second {context : Context} {old new filter given value reference serial : Text}
    (hholds : context.Holds [filterName, old, sgtin64.rule.referenceName, serialName]
      [filter, given, reference, serial])
    (hnew : new = companyName ∨ new = indexName) :
    Context.Holds (context.insert (.text new) (.text value))
      [filterName, new, sgtin64.rule.referenceName, serialName]
      [filter, value, reference, serial] := by
  obtain ⟨hfilter, hholds⟩ := List.forall₂_cons.mp hholds
  obtain ⟨-, hholds⟩ := List.forall₂_cons.mp hholds
  obtain ⟨hreference, hholds⟩ := List.forall₂_cons.mp hholds
  obtain ⟨hserial, -⟩ := List.forall₂_cons.mp hholds
  have hne : filterName ≠ new ∧ sgtin64.rule.referenceName ≠ new ∧ serialName ≠ new := by
    rcases hnew with rfl | rfl <;> decide
  refine .cons ?_ (.cons ?_ (.cons ?_ (.cons ?_ .nil)))
  · rw [Context.field?_insert, if_neg hne.1, hfilter]
  · rw [Context.field?_insert, if_pos rfl]
  · rw [Context.field?_insert, if_neg hne.2.1, hreference]
  · rw [Context.field?_insert, if_neg hne.2.2, hserial]

/-- The fields of a tag with an index and those of its tag URI are admitted. -/
theorem admit_short (hplace : place ∈ shortForm.places) (hfilter : filter ≤ 7)
    (hindex : index < 2 ^ 14) (hcompany : Numeral.Digits 10 company)
    (hcompanyLen : company.length = place.1.companyDigits)
    (hreference : Numeral.Digits 10 reference)
    (hreferenceLen : reference.length = 13 - place.1.companyDigits)
    (hvalue : Numeral.value 10 reference < 2 ^ 20) (hserial : serial < 2 ^ 25) :
    Part.Admit (itemParts place) [reference, Text.ofNat serial] ∧
      Part.Admit (shortParts place) (indexedTexts filter index reference serial) ∧
        Part.Admit (sgtin64.parts place) (itemTexts filter company reference serial) := by
  obtain ⟨hbits, hreferenceBits, hmost, hdigits⟩ := (indexedPlace place hplace).digits
  have hitem : Part.Admit (itemParts place) [reference, Text.ofNat serial] := by
    refine .cons ⟨Numeral.value 10 reference, ?_, ?_⟩
      (.cons ⟨serial, Nat.le_sub_one_of_lt hserial, rfl⟩ .nil)
    · have hlt := Numeral.value_lt hreference
      rw [hreferenceLen, ← hdigits] at hlt
      rw [NumberForm.maximum, hreferenceBits]
      omega
    · rw [NumberForm.numeral_padded_value hreference (hreferenceLen.trans hdigits.symm)]
  refine ⟨hitem, .cons ⟨filter, hfilter, rfl⟩
    (.cons ⟨index, Nat.le_sub_one_of_lt hindex, rfl⟩ hitem), .cons ⟨filter, hfilter, rfl⟩
    (.cons (Coding.admits_padded hcompany hcompanyLen ?_) hitem)⟩
  rw [hbits]
  exact (Nat.pow_le_pow_right (by decide) hmost).trans (by decide)

/-- A tag whose index the table leads to a company prefix is read as the fields of its tag
    URI, if the digits of the prefix are asked for. -/
theorem exists_read_bits (hplace : place ∈ shortForm.places) (hfilter : filter ≤ 7)
    (hitem : Part.Admit (itemParts place) [reference, Text.ofNat serial])
    (hindexed : Part.Admit (shortParts place) (indexedTexts filter index reference serial))
    (hlookup : engine.companyPrefixes.prefixes.get? (Text.ofNat index) = some company)
    (hkey : (params.lookup companyPrefixLengthKey).map Scalar.shown = some place.1.key)
    (hresolve : (engine.index.resolve (Engine.plainValue (shortBinarySide.text place
      (Part.bits (shortParts place) (indexedTexts filter index reference serial)))) hint
        none).outcome = .ok ⟨shortForm.scheme, shortForm.level shortBinarySide⟩) :
    ∃ context, engine.read (shortBinarySide.text place
        (Part.bits (shortParts place) (indexedTexts filter index reference serial))) none hint
          params = .ok ⟨shortForm.scheme, place.1.key, context⟩ ∧
      context.Holds ((sgtin64.parts place).map Part.name)
        (itemTexts filter company reference serial) := by
  have hfits : List.Forall₂ Slot.Fits (shortBinarySide.template place).slots
      (Part.bits (shortParts place) (indexedTexts filter index reference serial)) :=
    Part.fits_bits (indexedPlace place hplace).widths hindexed
  obtain ⟨stored, hstored⟩ : ∃ stored, stored = shortForm.context params place
    (shortBinarySide.template place).names (indexedTexts filter index reference serial) := ⟨_, rfl⟩
  have hholds : stored.Holds [filterName, indexName, sgtin64.rule.referenceName, serialName]
      (indexedTexts filter index reference serial) := by
    rw [hstored]
    exact Engine.holds_fieldContext _ _ _
      (written_short.follows shortForm.binary (by simp [TagForm.sides]) place hplace).nodup rfl
  have hindex : stored.field? indexName = some (.text (Text.ofNat index)) :=
    (List.forall₂_cons.mp (List.forall₂_cons.mp hholds).2).1
  refine ⟨_, (read_short_eq_ok_iff hplace hfits hresolve).mpr ⟨place, hplace, hkey, _, _,
    codes_reading_short hplace hfilter hitem, ?_, rfl⟩, holds_second hholds (.inl rfl)⟩
  rw [← hstored]
  exact (derive_tableLookup_eq_ok_iff hindex).mpr
    ⟨company, CompanyPrefixTable.lookup_index_eq_ok_iff.mpr hlookup, rfl⟩

/-- Behind the header and the filter come the bits of the index. -/
theorem take_drop_index (place : Place) {filterBits indexBits : Text} {rest : List Text}
    (hfilter : filterBits.length = 3) (hindex : indexBits.length = 14) :
    (((shortBinarySide.template place).text (filterBits :: indexBits :: rest)).drop 5).take 14 =
      indexBits := by
  have hfront : ("10".toList ++ filterBits).length = 5 := by simp [hfilter]
  change (("10".toList ++ (filterBits ++ (indexBits ++ _))).drop 5).take 14 = _
  rw [← List.append_assoc, List.drop_left' hfront, List.take_left' hindex]

/-- Bits that a strict engine reads hold the index of a company prefix, and they are decoded
    at the place whose number of digits is asked for, whatever digits the prefix has. -/
theorem exists_of_read_bits (hstrict : engine.validator.strict = true) {value : Text}
    (hbits : Numeral.Digits 2 value)
    (hresolve : (engine.index.resolve (Engine.plainValue value) hint none).outcome =
      .ok ⟨shortForm.scheme, shortForm.level shortBinarySide⟩)
    {reading : Engine.Reading} (hread : engine.read value none hint params = .ok reading) :
    ∃ place ∈ shortForm.places,
      (params.lookup companyPrefixLengthKey).map Scalar.shown = some place.1.key ∧
      ∃ filter company reference serial context,
        engine.companyPrefixes.prefixes.get?
          (Text.ofNat (Numeral.value 2 ((value.drop 5).take 14))) = some company ∧
        Part.Decode (itemParts place) [reference, serial] ∧
        Context.Holds context [filterName, companyName, sgtin64.rule.referenceName, serialName]
          [filter, company, reference, serial] ∧
        reading = ⟨shortForm.scheme, place.1.key, context⟩ := by
  have hfollows := written_short.follows shortForm.binary (by simp [TagForm.sides])
  obtain ⟨first, hfirst, captures, hfits, rfl⟩ :=
    TagForm.exists_captures_of_read hfollows hbits hresolve hread
  obtain ⟨place, hplace, hkey, values, context, hcodes, hderive, rfl⟩ :=
    (read_short_eq_ok_iff hfirst hfits hresolve).mp hread
  have hlike : shortForm.binary.template first = shortBinarySide.template place :=
    ((indexedPlace first hfirst).alike place hplace).symm
  rw [hlike] at hfits ⊢
  -- the bits of the filter and the index, then those of the item
  obtain ⟨filterBits, _, hfilter, hrest, rfl⟩ := List.forall₂_cons_left_iff.mp hfits
  obtain ⟨indexBits, itemBits, hindex, hitem, rfl⟩ := List.forall₂_cons_left_iff.mp hrest
  obtain ⟨-, hfilterLen⟩ := Coding.fits_bitSlot_iff.mp hfilter
  obtain ⟨hindexDigits, hindexLen⟩ := Coding.fits_bitSlot_iff.mp hindex
  obtain ⟨filter, _, rfl, -, hcodes⟩ := LevelOption.codes_cons_iff.mp hcodes
  obtain ⟨index, item, rfl, hindexCode, hitemCodes⟩ := LevelOption.codes_cons_iff.mp hcodes
  obtain ⟨hdecode, -⟩ := Part.of_codes_reading hstrict (inTag_short hplace).2.1
    (widths_item hplace) hitem hitemCodes
  obtain ⟨reference, _, -, hserial, rfl⟩ := List.forall₂_cons_left_iff.mp hdecode
  obtain ⟨serial, _, -, hnil, rfl⟩ := List.forall₂_cons_left_iff.mp hserial
  cases hnil
  obtain rfl : index = Text.ofNat (Numeral.value 2 indexBits) :=
    Except.ok.inj (hindexCode.symm.trans (reading_index hplace hindexDigits))
  obtain ⟨stored, hstored⟩ : ∃ stored, stored = shortForm.context params place
    (shortBinarySide.template place).names
      [filter, Text.ofNat (Numeral.value 2 indexBits), reference, serial] := ⟨_, rfl⟩
  have hholds : stored.Holds [filterName, indexName, sgtin64.rule.referenceName, serialName]
      [filter, Text.ofNat (Numeral.value 2 indexBits), reference, serial] := by
    rw [hstored]
    exact Engine.holds_fieldContext _ _ _ (hfollows place hplace).nodup rfl
  rw [← hstored] at hderive
  obtain ⟨company, hlookup, rfl⟩ := (derive_tableLookup_eq_ok_iff
    (List.forall₂_cons.mp (List.forall₂_cons.mp hholds).2).1).mp hderive
  refine ⟨place, hplace, hkey, filter, company, reference, serial, _, ?_, hdecode,
    holds_second hholds (.inl rfl), rfl⟩
  rw [take_drop_index place hfilterLen hindexLen]
  exact CompanyPrefixTable.lookup_index_eq_ok_iff.mp hlookup

/-- The fields of a tag URI are written as a tag, if the table leads its company prefix to
    an index. -/
theorem write_bits (hplace : place ∈ shortForm.places) (hfilter : filter ≤ 7)
    (hindex : index < 2 ^ 14)
    (hitem : Part.Admit (itemParts place) [reference, Text.ofNat serial])
    (hlookup : engine.companyPrefixes.lookup companyName indexName (.text company) =
      .ok (Text.ofNat index)) {context : Context}
    (hholds : context.Holds ((sgtin64.parts place).map Part.name)
      (itemTexts filter company reference serial)) :
    engine.write ⟨shortForm.scheme, place.1.key, context⟩ LevelType.binary.name =
      .ok (shortBinarySide.text place
        (Part.bits (shortParts place) (indexedTexts filter index reference serial))) := by
  have hside : shortForm.binary ∈ shortForm.sides := by simp [TagForm.sides]
  have hcompany : context.field? companyName = some (.text company) :=
    (List.forall₂_cons.mp (List.forall₂_cons.mp hholds).2).1
  have hderive := (@derive_tableLookup_eq_ok_iff engine context _ .format indexName companyName _
    hcompany).mpr ⟨_, hlookup, rfl⟩
  refine (Engine.write_outcome (written_short.outputOption_eq shortForm.binary hside hplace)
    hderive).trans ?_
  exact Engine.renderOutput_binary (written_short.follows shortForm.binary hside place hplace)
    (holds_second hholds (.inr rfl)) (codes_encoding_short hplace hfilter hindex hitem)

/-- A tag URI is read as its fields. -/
theorem exists_read_uri (params : Params) (hplace : place ∈ shortForm.places)
    (hitem : Part.Admit (sgtin64.parts place) (itemTexts filter company reference serial))
    (hresolve : (engine.index.resolve (Engine.plainValue (sgtin64.tagSide.text place
      (itemTexts filter company reference serial))) hint none).outcome =
        .ok ⟨shortForm.scheme, shortForm.level sgtin64.tagSide⟩) :
    ∃ context, engine.read (sgtin64.tagSide.text place
        (itemTexts filter company reference serial)) none hint params =
          .ok ⟨shortForm.scheme, place.1.key, context⟩ ∧
      context.Holds ((sgtin64.parts place).map Part.name)
        (itemTexts filter company reference serial) := by
  obtain ⟨start, -, -, hplain⟩ :=
    LevelForm.opens_cases ((indexedPlace place hplace).opens shortForm.tag (by simp))
      (itemTexts filter company reference serial)
  have hfits : List.Forall₂ Slot.Fits (sgtin64.tagSide.template place).slots
      (itemTexts filter company reference serial) :=
    Part.fits_texts (indexedPlace place hplace).suits hitem
  refine ⟨_, (separates_short.read_eq_ok_iff hplace hplain hfits hresolve).mpr
    ⟨_, Part.codes_reading_text (inTag_short hplace).2.2 hitem ?_, rfl⟩, ?_⟩
  · exact Part.names_textFields 1 _
  · exact Engine.holds_fieldContext _ _ _
      (written_short.follows shortForm.tag (by simp [TagForm.sides]) place hplace).nodup rfl

/-- The fields of a tag URI are written as the tag URI. -/
theorem write_uri (hplace : place ∈ shortForm.places)
    (hitem : Part.Admit (sgtin64.parts place) (itemTexts filter company reference serial))
    {context : Context} (hholds : context.Holds ((sgtin64.parts place).map Part.name)
      (itemTexts filter company reference serial)) :
    engine.write ⟨shortForm.scheme, place.1.key, context⟩ LevelType.tagEncoding.name =
      .ok (sgtin64.tagSide.text place (itemTexts filter company reference serial)) :=
  written_short.write_parts shortForm.tag (by simp [TagForm.sides]) (by decide) rfl hplace rfl
    hholds hitem.decode

/-! ## Element strings -/

/-- The element string of a trade item. -/
def itemString (gtin serial : Text) : Text := Text.join ["gtin=", gtin, ";serial=", serial]

theorem legacyTemplate_text (gtin serial : Text) :
    sgtin64.legacyTemplate.text [gtin, serial] = itemString gtin serial := by
  change "gtin=".toList ++ (gtin ++ (";serial=".toList ++ (serial ++ []))) = _
  simp [itemString, Text.join]

theorem length_join_gtinKey (company reference : Text) :
    (gtinKey.join company reference).length = company.length + reference.length := by
  change (reference.take 1 ++ company ++ reference.drop 1).length = _
  simp only [List.length_append, List.length_take, List.length_drop]
  omega

/-- The reference and the serial number that bits decode to fit into an element string. -/
theorem fits_item (hplace : place ∈ shortForm.places) {serial : Text}
    (hitem : Part.Decode (itemParts place) [reference, serial]) :
    reference.length = place.1.referenceDigits ∧ Slot.number.Fits serial := by
  have hfits := Part.fits_texts (fun part hpart => (indexedPlace place hplace).suits part
    (List.mem_cons_of_mem _ (List.mem_cons_of_mem _ hpart)))
    (hitem.admits (fun part hpart => (indexedPlace place hplace).numbers part
      (List.mem_cons_of_mem _ (List.mem_cons_of_mem _ hpart))))
  obtain ⟨hreference, hserials⟩ := List.forall₂_cons.mp hfits
  exact ⟨hreference.1, (List.forall₂_cons.mp hserials).1⟩

/-- A company prefix, which may have any number of digits, and the fields of an item are
    written as an element string. -/
theorem exists_write_itemString (hplace : place ∈ shortForm.places) {context : Context}
    {serial : Text} (hholds : context.Holds [companyName, sgtin64.rule.referenceName, serialName]
      [company, reference, serial]) (hcompany : Numeral.Digits 10 company)
    (hitem : Part.Decode (itemParts place) [reference, serial]) :
    ∃ gtin, engine.write ⟨shortForm.scheme, place.1.key, context⟩ LevelType.legacy.name =
        .ok (itemString gtin serial) ∧
      Numeral.Digits 10 gtin ∧ gtin.length + place.1.companyDigits = 14 + company.length := by
  obtain ⟨hreferenceDecode, hserialDecode⟩ := List.forall₂_cons.mp hitem
  have hreference := Coding.digits_of_decodable hreferenceDecode
  obtain ⟨hreferenceLen, -⟩ := fits_item hplace hitem
  obtain ⟨-, -, hmost, hdigits⟩ := (indexedPlace place hplace).digits
  have hbody := gtinKey.digits_join hcompany hreference
  obtain ⟨digit, hdigit, hone⟩ := CheckDigit.exists_compute hbody
  obtain ⟨result, hassign, hresult, hchecks⟩ := @exists_format_legacy sgtin64 place [digit] company
    reference [serial] (by decide) (by decide) engine.lookup engine.validator context hholds
    hcompany hreference hserialDecode hdigit
  have hside : sgtin64.legacySide ∈ shortForm.sides :=
    List.mem_append_right _ (List.mem_cons_self ..)
  have hwrite := written_short.write_text sgtin64.legacySide hside
    (by decide : LevelType.legacy ≠ .binary) hplace hassign hresult hchecks
  refine ⟨gtinKey.join company reference ++ [digit], hwrite.trans ?_,
    Numeral.digits_append.mpr ⟨hbody, hone⟩, ?_⟩
  · exact congrArg Except.ok (legacyTemplate_text _ _)
  · rw [List.length_append, length_join_gtinKey, List.length_singleton]
    omega

end

end Gs1Form

end EpcTag
