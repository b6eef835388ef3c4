-- SUMMARY: Strict checks exclude overflow: what passes the declared limits fits into its field, whatever is converted.
import EpcTag.Proofs.BinaryOutput
import EpcTag.Proofs.CleanRuns
import EpcTag.Proofs.SafeRules

/-!
# Room for values

A number is checked against the limits of its tag field right before it is encoded,
whatever it comes from, so a strict engine only encodes numbers that fit. Characters have
no such limit, so what bounds their number is the form of the input: the bits that they are
unpacked from, or the pattern that captures them. Whether it does can be told from the data
of a scheme. Only two of the built-in schemes have less room than they can be given: the
index of a company prefix has no tag field, and a short code may be read with a sixth
character.
-/

namespace EpcTag

/-! ## Fields -/

namespace Field

variable {validator : Validator} {field : Field} {name tagName : Text} {group tagGroup : Nat}

/-- A number that passes the limits of the tag field has no more bits than the field. -/
def FitsLimits (validator : Validator) (field tag : Field) : Prop :=
  ∀ value passed bits,
    (validator.checkRange field.name value tag.minimum tag.maximum).outcome = .ok passed →
    field.decimalBits value = .ok bits →
    ∃ width ∈ field.bitLength, (bits.length : Int) ≤ width

/-- Bits that are not too many do not overflow. -/
theorem avoids_fitBits_of_le {width : Int} {bits : Text} (hlength : field.bitLength = some width)
    (hle : (bits.length : Int) ≤ width) : Avoids Error.isOverflow (field.fitBits bits) := by
  obtain ⟨count, rfl⟩ := Int.eq_ofNat_of_zero_le ((Int.natCast_nonneg bits.length).trans hle)
  rw [fitBits_of_le hlength (Int.ofNat_le.mp hle)]
  trivial

/-- A strict validator only passes numbers that fit. -/
theorem fitsLimits_number (hstrict : validator.strict = true) {width : Nat} (hwidth : 0 < width)
    (form : NumberForm) :
    (NumberForm.binaryField name group width).FitsLimits validator
      (form.textField tagName tagGroup width) := by
  intro value passed bits hpassed hbits
  obtain ⟨text, hcontent, hdigits, rfl⟩ := exists_of_decimalBits hbits
  have hsame : validator.checkRange name value (.text (Text.ofNat 0))
      (.text (Text.ofNat (form.maximum width))) =
        validator.checkRange name (.text text) (.text (Text.ofNat 0))
          (.text (Text.ofNat (form.maximum width))) := by
    rw [Validator.checkRange, Validator.checkRange, hcontent, Scalar.contentOrVoid_text]
  rw [NumberForm.binaryField_name, NumberForm.textField_minimum, NumberForm.textField_maximum,
    hsame] at hpassed
  have hle : Numeral.value 10 text ≤ form.maximum width := by
    by_cases hnil : text = []
    · rw [hnil, Numeral.value_nil]
      exact Nat.zero_le _
    · exact (validator.checkRange_passes_iff name _ text).mp ⟨passed, hpassed⟩ hstrict
        ((Numeral.isDecimal_iff text).mpr ⟨hnil, hdigits⟩)
  refine ⟨width, rfl, Int.ofNat_le.mpr ?_⟩
  exact (Nat.length_toDigits_le_iff (by decide) hwidth).mpr (NumberForm.lt_of_le_maximum hle)

/-- A number is encoded right after its limits have been checked, so it fits if those do. -/
theorem avoids_encode_number {tag : Field} (hcompaction : field.compaction = none)
    (hfits : field.FitsLimits validator tag) (value : Scalar) :
    Avoids Error.isOverflow (field.encode validator (some tag) value).outcome := by
  unfold encode
  rw [hcompaction]
  refine (field.clean_padEncoded (some tag) value).overflow.traced_bind fun padded => ?_
  -- the limits are those of what is encoded, without the padding of the tag URI
  rw [Traced.bind_outcome]
  refine (validator.clean_checkRange _ _ _ _).overflow.bind_eq fun passed hpassed => ?_
  rw [Traced.bind_outcome]
  refine (field.clean_decimalBits padded).overflow.bind_eq fun bits hbits => ?_
  obtain ⟨width, hwidth, hle⟩ := hfits padded passed bits hpassed hbits
  exact avoids_fitBits_of_le hwidth hle

/-- Characters that the bits have room for fit. -/
theorem avoids_encode_packed {form : PackedForm} {text : Text} (hlen : text.length ≤ form.count) :
    Avoids Error.isOverflow ((form.binaryField name group).encode validator
      (some (form.textField tagName tagGroup)) (.text text)).outcome := by
  rw [encode_packed_outcome hlen]
  exact (validator.clean_checkCharacterSet _ _ _).overflow.map

end Field

/-! ## Parts -/

namespace Coding

variable {coding : Coding} {validator : Validator} {name : Text} {group tagGroup : Nat}

/-- The number of characters that the bits have room for. The size of a number is a matter
    of its limits. -/
def room? : Coding → Option Nat
  | .number _ _ => none
  | .packed form => some form.count

/-- A value is a text for whose characters there is room. -/
def HasRoom (coding : Coding) (value : Scalar) : Prop :=
  ∀ count ∈ coding.room?, ∃ text, value = .text text ∧ text.length ≤ count

theorem Decodable.hasRoom {text : Text} (h : coding.Decodable text) :
    coding.HasRoom (.text text) := by
  rintro count hcount
  cases coding with
  | number form width => cases hcount
  | packed form =>
    cases hcount
    rcases h with h | ⟨-, rfl⟩
    · exact ⟨text, rfl, h.2.2.1⟩
    · exact ⟨[], rfl, Nat.zero_le _⟩

/-- A strict validator lets no value be encoded for which there is no room. -/
theorem avoids_encode (hstrict : validator.strict = true) (hwidth : 0 < coding.width)
    {value : Scalar} (h : coding.HasRoom value) :
    Avoids Error.isOverflow ((coding.binaryField name group).encode validator
      (some (coding.textField name tagGroup)) value).outcome := by
  cases coding with
  | number form width =>
    exact Field.avoids_encode_number rfl (Field.fitsLimits_number hstrict hwidth form) value
  | packed form =>
    obtain ⟨text, rfl, hlen⟩ := h form.count rfl
    exact Field.avoids_encode_packed hlen

end Coding

namespace Part

variable {parts : List Part} {tagOption : Option LevelOption} {validator : Validator}

theorem exists_of_mem_binaryFields {group : Nat} {field : Field}
    (h : field ∈ binaryFields group parts) :
    ∃ part ∈ parts, ∃ number, field = part.coding.binaryField part.name number := by
  induction parts generalizing group with
  | nil => cases h
  | cons part parts ih =>
    rcases List.mem_cons.mp h with rfl | h
    · exact ⟨part, List.mem_cons_self, group, rfl⟩
    · obtain ⟨other, hother, hfield⟩ := ih h
      exact ⟨other, List.mem_cons_of_mem _ hother, hfield⟩

/-- A strict validator lets no field of a tag overflow, if there is room for the characters
    that the context has. -/
theorem avoids_encode (hstrict : validator.strict = true) {group : Nat}
    (htag : InTag tagOption parts) (hwidth : ∀ part ∈ parts, 0 < part.coding.width)
    {context : Context}
    (hroom : ∀ part ∈ parts, ∀ value, context.field? part.name = some value →
      part.coding.HasRoom value) :
    ∀ field ∈ binaryFields group parts, ∀ value, context.field? field.name = some value →
      Avoids Error.isOverflow
        (field.encode validator (LevelOption.tagField? tagOption field.name) value).outcome := by
  intro field hfield value hvalue
  obtain ⟨part, hpart, number, rfl⟩ := exists_of_mem_binaryFields hfield
  rw [Coding.binaryField_name] at hvalue ⊢
  obtain ⟨tagNumber, htagField⟩ := htag part hpart
  rw [htagField]
  exact Coding.avoids_encode hstrict (hwidth part hpart) (hroom part hpart value hvalue)

end Part

/-! ## Inputs -/

namespace Slot

/-- The greatest number of characters that a slot takes. -/
def most? : Slot → Option Nat
  | .one _ => some 1
  | .exactly _ count => some count
  | .between _ _ most => most
  | .number => none

theorem length_le_of_fits {slot : Slot} {text : Text} {most : Nat} (hmost : slot.most? = some most)
    (h : slot.Fits text) : text.length ≤ most := by
  cases slot with
  | number => cases hmost
  | one class_ =>
    cases hmost
    exact h.1.le
  | «exactly» class_ count =>
    cases hmost
    exact h.1.le
  | between class_ least most =>
    cases hmost
    exact of_decide_eq_true h.1.2

end Slot

/-- A decoded text of each part is in the context. -/
theorem Part.Decode.exists_of_holds {parts : List Part} {texts : List Text} {context : Context}
    (h : Decode parts texts) (hholds : context.Holds (parts.map Part.name) texts) {part : Part}
    (hpart : part ∈ parts) :
    ∃ text, context.field? part.name = some (.text text) ∧ part.coding.Decodable text := by
  induction h with
  | nil => cases hpart
  | cons htext _ ih =>
    obtain ⟨hvalue, hholds⟩ := List.forall₂_cons.mp hholds
    rcases List.mem_cons.mp hpart with rfl | hpart
    · exact ⟨_, hvalue, htext⟩
    · exact ih hholds hpart

/-- Reading does not fit bits into a field. -/
theorem Engine.avoids_read (engine : Engine) (value : Text) (inputLevel : Option Text)
    (tagLength : Scalar) (params : Params) :
    Avoids Error.isOverflow (engine.read value inputLevel tagLength params) := by
  refine (engine.index.clean_resolve _ _ _).overflow.bind fun candidate => ?_
  refine (clean_select _ _ _ _).overflow.bind fun chosen => ?_
  refine (LevelOption.clean_decodeFields _ _ _ _ _ _).overflow.bind fun values => ?_
  exact (engine.avoids_derive _ _).bind fun context => trivial

/-- The value of a field in a text is no longer than what stands there. -/
theorem LevelOption.length_le_of_reading {validator : Validator} {tagOption : Option LevelOption}
    {field : Field} {captured value : Text}
    (h : reading validator false tagOption field captured = .ok value) :
    value.length ≤ captured.length := by
  rw [reading, readField.eq_def, if_neg Bool.false_ne_true] at h
  split at h
  · cases h
    exact le_rfl
  · next tag _ =>
    obtain ⟨passed, -, h⟩ := Traced.bind_outcome_eq_ok_iff.mp h
    cases h
    split
    · exact Nat.zero_le _
    · exact le_rfl

namespace TagForm

variable {Place : Type} {form : TagForm Place} {side : LevelForm Place} {engine : Engine}
  {inputLevel : Option Text} {hint : Scalar} {params : Params} {value : Text}
  {reading : Engine.Reading}

/-- What the data of a form must satisfy for the bits to have room for the characters of
    every value that is read: outside of bits these are captured by a slot that bounds their
    number, and no rule assigns others. -/
@[mk_iff]
structure Roomy (form : TagForm Place) : Prop where
  bounded : ∀ side ∈ form.sides, side.type ≠ .binary → ∀ place ∈ form.places,
    ∀ part ∈ form.parts place, ∀ count ∈ part.coding.room?,
      ∃ pair ∈ (side.fields place).zip (side.template place).slots, pair.1.name = part.name ∧
        ∃ most ∈ pair.2.most?, most ≤ count
  kept : ∀ side ∈ form.sides, ∀ place ∈ form.places, ∀ part ∈ form.parts place,
    part.coding.room?.isSome = true → ∀ step ∈ side.extract, step.name ≠ part.name

instance (form : TagForm Place) : Decidable form.Roomy := decidable_of_iff' _ (roomy_iff form)

/-- What a strict engine reads has room on the tag. -/
theorem Lawful.hasRoom_of_read (h : form.Lawful) (hroomy : form.Roomy)
    (hstrict : engine.validator.strict = true) (hside : side ∈ form.sides)
    (hresolve : (engine.index.resolve (Engine.plainValue value) hint inputLevel).outcome =
      .ok ⟨form.scheme, form.level side⟩)
    (hread : engine.read value inputLevel hint params = .ok reading) :
    ∃ place ∈ form.places, ∃ context, reading = ⟨form.scheme, form.key place, context⟩ ∧
      ∀ part ∈ form.parts place, ∀ value, context.field? part.name = some value →
        part.coding.HasRoom value := by
  obtain ⟨place, hplace, captures, values, context, hfits, hcodes, hextract, rfl⟩ :=
    h.written.exists_of_read hside hresolve hread
  refine ⟨place, hplace, context, rfl, fun part hpart value hvalue count hcount => ?_⟩
  have hkept : part.name ∉ side.extract.map Assignment.name := by
    intro hmem
    obtain ⟨step, hstep, hname⟩ := List.mem_map.mp hmem
    exact hroomy.kept side hside place hplace part hpart (Option.isSome_of_mem hcount) step hstep
      hname
  rw [Rules.field?_of_assign hkept hextract] at hvalue
  have hholds := h.written.holds_of_codes hside hplace hcodes params
  by_cases htype : side.type = .binary
  · -- the characters are those that bits are unpacked to
    obtain rfl : side = form.binary := List.inj_on_of_nodup_map h.types_nodup hside
      (by simp [sides]) (htype.trans h.type_eq.1.symm)
    rw [(h.slots place hplace).1] at hfits
    rw [(h.fields place hplace).1, decide_eq_true htype] at hcodes
    rw [(h.fields place hplace).1, Part.names_binaryFields] at hholds
    obtain ⟨hdecode, -⟩ := Part.of_codes_reading hstrict (h.inTag hplace) (h.widths place hplace)
      hfits hcodes
    obtain ⟨text, htext, hdecodable⟩ := hdecode.exists_of_holds hholds hpart
    cases htext.symm.trans hvalue
    exact hdecodable.hasRoom count hcount
  · -- the characters are those that a slot captures
    obtain ⟨pair, hpair, hname, most, hmost, hle⟩ :=
      hroomy.bounded side hside htype place hplace part hpart count hcount
    rw [decide_eq_false htype] at hcodes
    have hbound : ∀ field ∈ side.fields place, ∀ slot ∈ (side.template place).slots,
        ∀ captured value, slot.Fits captured →
        LevelOption.reading engine.validator false (form.scheme.tagOption? (form.key place)) field
          captured = .ok value → ∀ most ∈ slot.most?, value.length ≤ most :=
      fun _ _ _ _ _ _ hcaptured hvalue _ hmost =>
        (LevelOption.length_le_of_reading hvalue).trans (Slot.length_le_of_fits hmost hcaptured)
    obtain ⟨text, htext, hlength⟩ :=
      LevelOption.exists_of_codes hfits hcodes hholds hbound pair hpair
    rw [hname] at htext
    cases htext.symm.trans hvalue
    exact ⟨text, rfl, (hlength most hmost).trans hle⟩

/-! ## Tags -/

/-- No tag overflows that a strict engine writes. -/
theorem Lawful.avoids_write (h : form.Lawful) (hstrict : engine.validator.strict = true)
    {place : Place} (hplace : place ∈ form.places) {context : Context}
    (hroom : ∀ part ∈ form.parts place, ∀ value, context.field? part.name = some value →
      part.coding.HasRoom value) :
    Avoids Error.isOverflow
      (engine.write ⟨form.scheme, form.key place, context⟩ LevelType.binary.name) := by
  have hside : form.binary ∈ form.sides := by simp [sides]
  have hderive : (Rules.derive engine.lookup context
      (form.level form.binary).formatRules).outcome = .ok context := by
    refine (Rules.derive_numbered context form.binary.format).trans ?_
    rw [(h.clashes form.binary (by simp)).2.1]
    rfl
  have houtput := h.written.outputOption_eq form.binary hside hplace
  rw [h.type_eq.1] at houtput
  rw [Engine.write_outcome houtput hderive]
  refine Engine.avoids_renderOutput (fun _ => Error.isPeculiar_of_isOverflow) _ ?_
  change ∀ field ∈ form.binary.fields place, _
  rw [(h.fields place hplace).1]
  exact Part.avoids_encode hstrict (h.inTag hplace) (h.widths place hplace) hroom

/-- A value that is found at a level of a form with room is converted to bits by a strict
    engine, or it is refused for another reason than their number. -/
theorem Lawful.avoids_convert (h : form.Lawful) (hroomy : form.Roomy)
    (hstrict : engine.validator.strict = true) {level : Level} (hlevel : level ∈ form.scheme.levels)
    (hresolve : (engine.index.resolve (Engine.plainValue value) hint inputLevel).outcome =
      .ok ⟨form.scheme, level⟩) (params : Params) :
    Avoids Error.isOverflow
      (engine.convertFromLevel value inputLevel hint params LevelType.binary.name).outcome := by
  obtain ⟨side, hside, rfl⟩ := List.mem_map.mp hlevel
  rw [Engine.convertFromLevel_outcome]
  refine (engine.avoids_read _ _ _ _).bind_eq fun reading hread => ?_
  obtain ⟨place, hplace, context, rfl, hroom⟩ :=
    h.hasRoom_of_read hroomy hstrict hside hresolve hread
  exact h.avoids_write hstrict hplace hroom

/-- Whatever number passes the limits of its tag field fits into the bits of a tag. -/
theorem Lawful.fitsLimits (h : form.Lawful) {validator : Validator}
    (hstrict : validator.strict = true) :
    ∀ level ∈ form.scheme.level? .binary, ∀ option ∈ level.options, ∀ field ∈ option.fields,
      field.compaction = none → ∃ tag,
        LevelOption.tagField? (form.scheme.tagOption? option.key) field.name = some tag ∧
          field.FitsLimits validator tag := by
  have hfound := h.written.level?_eq form.binary (by simp [sides])
  rw [h.type_eq.1] at hfound
  rw [hfound]
  rintro _ ⟨⟩ option hoption field hfield hcompaction
  obtain ⟨place, hplace, rfl⟩ := List.mem_map.mp hoption
  change field ∈ form.binary.fields place at hfield
  rw [(h.fields place hplace).1] at hfield
  obtain ⟨part, hpart, number, rfl⟩ := Part.exists_of_mem_binaryFields hfield
  obtain ⟨tagNumber, htag⟩ := h.inTag hplace part hpart
  have hwidth := h.widths place hplace part hpart
  rw [Coding.binaryField_name]
  refine ⟨_, htag, ?_⟩
  cases hcoding : part.coding with
  | number form width =>
    rw [hcoding] at hwidth
    exact Field.fitsLimits_number hstrict hwidth form
  | packed form =>
    rw [hcoding] at hcompaction
    exact absurd hcompaction (by simp [Coding.binaryField])

end TagForm

/-! ## The built-in schemes -/

namespace Builtin

theorem roomy_gs1 : ∀ form ∈ Gs1Form.sgtin198 :: Gs1Form.numeric, form.tagForm.Roomy := by
  decide +kernel

theorem roomy_single : ∀ form ∈ [SingleForm.gid96, .usdod96], form.tagForm.Roomy := by
  decide +kernel

-- the bits of a short code have no room for the sixth character of an element string
example : ¬ SingleForm.usdod64.tagForm.Roomy := by decide +kernel

end Builtin

/-- A strict engine never has too many bits for a field of the built-in schemes, but for
    SGTIN-64 and USDOD-64: no value that is found at one of their levels overflows when it is
    converted to bits, whether its level is given or not and whatever the parameters are.
    Every number on the tags has a tag field, and what passes its limits has no more bits than
    the tag has for it. -/
theorem convert_fits {settings : Engine.Settings} {engine : Engine}
    (hengine : (Engine.builtin settings).outcome = .ok engine) (hstrict : settings.strict = true)
    {value : Text} {inputLevel : Option Text} {tagLength : Scalar} {params : Params}
    {scheme : Scheme} {level : Level}
    (hresolve : (engine.index.resolve (Engine.plainValue value) tagLength inputLevel).outcome =
      .ok ⟨scheme, level⟩)
    (hname : scheme.name ∈ (["SGTIN-96", "SGTIN-198", "SSCC-96", "SGLN-96", "GRAI-96", "GID-96",
      "USDOD-96"] : List Text)) :
    (∀ field needed allowed, (engine.convertFromLevel value inputLevel tagLength params
      LevelType.binary.name).outcome ≠ .error (.bitOverflow field needed allowed)) ∧
    ∀ binary ∈ scheme.level? .binary, ∀ option ∈ binary.options, ∀ field ∈ option.fields,
      field.compaction = none → ∃ tag,
        LevelOption.tagField? (scheme.tagOption? option.key) field.name = some tag ∧
          field.FitsLimits engine.validator tag := by
  obtain ⟨start, hentry, -⟩ := Engine.exists_entry_of_resolve hengine hresolve
  obtain ⟨hscheme, hlevel, -⟩ := LevelIndex.mem_allEntries_iff.mp hentry
  have hstrict : engine.validator.strict = true :=
    (Engine.strict_of_builtin hengine).trans hstrict
  rcases Builtin.scheme_cases hscheme with ⟨form, hform, rfl⟩ | ⟨form, hform, rfl⟩ | rfl
  · have hlawful := (Builtin.lawful_gs1 form hform).tagForm
    have havoids := hlawful.avoids_convert (Builtin.roomy_gs1 form hform) hstrict hlevel hresolve
      params
    exact ⟨havoids.ne_bitOverflow, hlawful.fitsLimits hstrict⟩
  · have hlawful := Builtin.lawful_single form hform
    have hform : form ∈ [SingleForm.gid96, .usdod96] := by
      simp only [List.mem_cons, List.not_mem_nil, or_false] at hform ⊢
      rcases hform with rfl | rfl | rfl
      · exact .inl rfl
      · exact absurd hname (by decide)
      · exact .inr rfl
    have havoids := hlawful.avoids_convert (Builtin.roomy_single form hform) hstrict hlevel
      hresolve params
    exact ⟨havoids.ne_bitOverflow, hlawful.fitsLimits hstrict⟩
  · exact absurd hname (by decide)

/-- The parameters of a trade item, with a filter that needs four bits. -/
def wideParams : Params :=
  [("filter", .integer 9), ("companyprefixlength", .integer 7), ("taglength", .integer 96)]

/-- A filter that overflows the three bits of a tag is out of its range for a strict
    engine. -/
theorem convert_fits_filter :
    ∃ strict lenient scheme level, (Engine.builtin { strict := true }).outcome = .ok strict ∧
      (Engine.builtin {}).outcome = .ok lenient ∧
      (strict.index.resolve (Engine.plainValue itemString) (wideParams.get Engine.tagLengthName)
        none).outcome = .ok ⟨scheme, level⟩ ∧ scheme.name = "SGTIN-96".toList ∧
      (lenient.convert itemString wideParams LevelType.binary.name).outcome =
        .error (.bitOverflow "filter" 4 3) ∧
      (∀ field needed allowed, (strict.convert itemString wideParams
        LevelType.binary.name).outcome ≠ .error (.bitOverflow field needed allowed)) ∧
      ∀ binary ∈ scheme.level? .binary, ∀ option ∈ binary.options, ∀ field ∈ option.fields,
        field.compaction = none → ∃ tag,
          LevelOption.tagField? (scheme.tagOption? option.key) field.name = some tag ∧
            field.FitsLimits strict.validator tag := by
  refine ⟨_, _, Gs1Form.sgtin96.tagForm.scheme,
    Gs1Form.sgtin96.tagForm.level Gs1Form.sgtin96.legacySide, Engine.builtin_outcome _,
    Engine.builtin_outcome _, ?resolved, rfl, by decide +kernel,
    convert_fits (Engine.builtin_outcome _) rfl ?resolved (by decide)⟩
  case resolved =>
    refine eq_ok_of_toOption ?_
    decide +kernel

end EpcTag
