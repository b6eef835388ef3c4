-- SUMMARY: Element strings of GS1 schemes: what is read from them and what is written as them.
import EpcTag.Proofs.Gs1Forms

/-!
# Element strings

An element string is read into the company prefix, the reference and the serial
number of its scheme, and these are written as an element string with the check
digit of the key. The check digit of the input is not looked at.
-/

namespace EpcTag

open Builtin (companyPrefixLengthKey)

/-! ## Keys -/

namespace KeyRule

variable {rule : KeyRule} {body check : Text}

theorem names_pieces (rule : KeyRule) : rule.pieces.names = rule.fieldNames := by
  cases rule <;> rfl

theorem names_fields (rule : KeyRule) : rule.fields.map Field.name = rule.fieldNames := by
  cases rule <;> rfl

theorem length_fieldTexts (rule : KeyRule) (body check : Text) :
    rule.fieldNames.length = (rule.fieldTexts body check).length := by
  cases rule <;> rfl

theorem fieldNames_subset (rule : KeyRule) : rule.fieldNames ⊆ rule.names := by
  cases rule <;> simp [fieldNames, names]

theorem extract_subset (rule : KeyRule) :
    rule.extract.map Assignment.name ⊆ rule.names := by
  cases rule <;> simp [extract, names, cut, cutAt, concat]

theorem format_subset (rule : KeyRule) : rule.format.map Assignment.name ⊆ rule.names := by
  cases rule <;> simp [format, names, cut, cutAt, concat, check]

/-- The fields of a key are none of those that a tag has. -/
theorem not_mem_fieldNames (hnodup : rule.names.Nodup) :
    companyName ∉ rule.fieldNames ∧ rule.referenceName ∉ rule.fieldNames ∧
      companyPrefixLengthKey ∉ rule.fieldNames := by
  cases rule with
  | leading key indicator body remainder reference count =>
    simp only [names, List.nodup_cons, List.mem_cons, List.not_mem_nil, or_false, not_or] at hnodup
    simp only [fieldNames, referenceName, List.mem_singleton]
    grind
  | joined key body reference count =>
    simp only [names, List.nodup_cons, List.mem_cons, List.not_mem_nil, or_false, not_or] at hnodup
    simp only [fieldNames, referenceName, List.mem_singleton]
    grind
  | separate body reference count =>
    simp only [names, List.nodup_cons, List.mem_cons, List.not_mem_nil, or_false, not_or] at hnodup
    simp only [fieldNames, referenceName, List.mem_cons, List.not_mem_nil, or_false, not_or]
    grind

/-- A key and its check digit fill the fields of an element string. -/
theorem fits_pieces (hbody : Numeral.Digits 10 body) (hlen : body.length = rule.bodyLength)
    (hcheck : Numeral.Digits 10 check) (hone : check.length = 1) :
    List.Forall₂ Slot.Fits rule.pieces.slots (rule.fieldTexts body check) := by
  have hall {text : Text} (h : Numeral.Digits 10 text) :
      text.all Pattern.digitClass.has = true := (Pattern.all_has_digitClass_iff text).mpr h
  have hkey : (body ++ check).length = rule.bodyLength + 1 := by
    rw [List.length_append, hlen, hone]
  have hboth := hall (Numeral.digits_append.mpr ⟨hbody, hcheck⟩)
  cases rule with
  | leading key indicator body remainder reference count => exact .cons ⟨hkey, hboth⟩ .nil
  | joined key body reference count => exact .cons ⟨hkey, hboth⟩ .nil
  | separate body reference count =>
    exact .cons ⟨hlen, hall hbody⟩ (.cons ⟨hone, hall hcheck⟩ .nil)

/-- The fields of an element string are filled by a key and its check digit. -/
theorem exists_of_fits_pieces {texts : List Text}
    (h : List.Forall₂ Slot.Fits rule.pieces.slots texts) :
    ∃ body check, Numeral.Digits 10 body ∧ body.length = rule.bodyLength ∧
      texts = rule.fieldTexts body check := by
  have hjoined {count : Nat} {text : Text}
      (hfits : (Slot.exactly Pattern.digitClass (count + 1)).Fits text) :
      ∃ body check, Numeral.Digits 10 body ∧ body.length = count ∧ text = body ++ check := by
    refine ⟨text.take count, text.drop count, ((Pattern.all_has_digitClass_iff text).mp hfits.2).take count, ?_,
      (List.take_append_drop count text).symm⟩
    rw [List.length_take, hfits.1, Nat.min_eq_left (Nat.le_succ count)]
  cases rule with
  | leading key indicator body remainder reference count =>
    obtain ⟨text, _, hfits, hnil, rfl⟩ := List.forall₂_cons_left_iff.mp h
    cases hnil
    obtain ⟨body, check, hbody, hlen, rfl⟩ := hjoined hfits
    exact ⟨body, check, hbody, hlen, rfl⟩
  | joined key body reference count =>
    obtain ⟨text, _, hfits, hnil, rfl⟩ := List.forall₂_cons_left_iff.mp h
    cases hnil
    obtain ⟨body, check, hbody, hlen, rfl⟩ := hjoined hfits
    exact ⟨body, check, hbody, hlen, rfl⟩
  | separate body reference count =>
    obtain ⟨text, _, hfits, hrest, rfl⟩ := List.forall₂_cons_left_iff.mp h
    obtain ⟨check, _, -, hnil, rfl⟩ := List.forall₂_cons_left_iff.mp hrest
    cases hnil
    exact ⟨text, check, (Pattern.all_has_digitClass_iff text).mp hfits.2, hfits.1, rfl⟩

/-- Digits pass the checks of a field of the key. -/
theorem checkField_keyField (validator : Validator) (name : Text) (group digits : Nat)
    {text : Text} (h : Numeral.Digits 10 text) :
    ∃ passed, (validator.checkField (keyField name group digits) (.text text)).outcome =
      .ok passed := by
  have hset : Validator.readSet (Validator.starred Builtin.digitSet) =
      .ok (Pattern.star Pattern.digitClass) := rfl
  obtain ⟨conforming, hconforming⟩ :=
    (validator.checkCharacterSet_passes_iff name hset text).mpr fun _ =>
      (Pattern.all_has_digitClass_iff text).mpr h
  have hrange : (validator.checkRange name (.text text) .null .null).outcome = .ok true := by
    rw [Validator.checkRange]
    simp only [Scalar.contentOrVoid_text, Traced.bind_outcome, Traced.liftM_outcome, Except.bind]
    split <;> rfl
  refine ⟨true && conforming, ?_⟩
  simp only [Validator.checkField, keyField, Traced.bind_outcome_eq_ok_iff, hconforming, hrange,
    Traced.pure_outcome, Except.ok.injEq, exists_eq_left']

theorem checkField_fields (validator : Validator) (rule : KeyRule)
    (hbody : Numeral.Digits 10 body) (hcheck : Numeral.Digits 10 check) :
    List.Forall₂ (fun field text =>
      ∃ passed, (validator.checkField field (.text text)).outcome = .ok passed)
      rule.fields (rule.fieldTexts body check) := by
  have hboth := Numeral.digits_append.mpr ⟨hbody, hcheck⟩
  cases rule with
  | leading key indicator body remainder reference count =>
    exact .cons (checkField_keyField validator _ _ _ hboth) .nil
  | joined key body reference count => exact .cons (checkField_keyField validator _ _ _ hboth) .nil
  | separate body reference count =>
    exact .cons (checkField_keyField validator _ _ _ hbody)
      (.cons (checkField_keyField validator _ _ _ hcheck) .nil)

end KeyRule

/-! ## Lawful GS1 schemes -/

namespace Gs1Form

/-- What the data of a GS1 scheme must satisfy for its element strings to be read and
    written. -/
@[mk_iff]
structure Lawful (form : Gs1Form) : Prop where
  tagForm : form.tagForm.Lawful
  names : (filterName :: serialName :: form.rule.names).Nodup
  suits : ∀ place ∈ form.tagForm.places, ∀ part ∈ form.parts place,
    part.coding.suits part.slot = true
  /-- The digits of a company prefix and a reference are those of a key, and their bits
      have room for them. -/
  digits : ∀ partition ∈ form.partitions,
    partition.companyDigits + partition.referenceDigits = form.rule.bodyLength ∧
      form.rule.ahead ≤ partition.referenceDigits ∧
      10 ^ partition.companyDigits ≤ 2 ^ partition.companyBits.getD 64 ∧
      10 ^ partition.referenceDigits ≤ 2 ^ partition.referenceBits

instance (form : Gs1Form) : Decidable form.Lawful := decidable_of_iff' _ (lawful_iff form)

variable {form : Gs1Form} {place : Place} {engine : Engine} {hint : Scalar} {params : Params}
  {body check digit company reference : Text} {serials : List Text}

/-- The text of an element string. -/
def legacyText (form : Gs1Form) (body check : Text) (serials : List Text) : Text :=
  form.legacyTemplate.text (form.rule.fieldTexts body check ++ serials)

/-- A key without a serial number. -/
theorem legacyText_none (h : form.serial = none) (body check : Text) :
    form.legacyText body check [] =
      Text.join [form.legacyStart, form.rule.lead, body, check] := by
  rw [legacyText, legacyTemplate, h]
  cases form.rule <;> simp [KeyRule.pieces, KeyRule.fieldTexts, Text.join]

/-- A key with a serial number. -/
theorem legacyText_some {serial : Builtin.Serial} (h : form.serial = some serial)
    (body check text : Text) :
    form.legacyText body check [text] =
      Text.join [form.legacyStart, form.rule.lead, body, check, form.rule.mark.text [], text] := by
  rw [legacyText, legacyTemplate, h]
  cases form.rule <;>
    simp [KeyRule.pieces, KeyRule.mark, KeyRule.fieldTexts, Text.join]

theorem legacySide_text (place : Place) (values : List Text) :
    form.legacySide.text place values = form.legacyTemplate.text values := rfl

theorem legacySide_mem (form : Gs1Form) : form.legacySide ∈ form.tagForm.sides := by
  simp [TagForm.sides, tagForm]

theorem names_legacyTemplate (form : Gs1Form) :
    form.legacyTemplate.names = form.rule.fieldNames ++ form.serialParts.map Part.name := by
  rw [legacyTemplate, Template.names_append]
  change Template.names form.rule.pieces ++ _ = _
  rw [KeyRule.names_pieces, serialParts]
  congr 1
  cases form.serial with
  | none => rfl
  | some serial =>
    rw [Template.names_append]
    cases form.rule <;> cases serial <;> rfl

theorem slots_legacyTemplate (form : Gs1Form) :
    form.legacyTemplate.slots = form.rule.pieces.slots ++ form.serialParts.map Part.slot := by
  rw [legacyTemplate, Template.slots_append]
  change Template.slots form.rule.pieces ++ _ = _
  rw [serialParts]
  congr 1
  cases form.serial with
  | none => rfl
  | some serial =>
    rw [Template.slots_append]
    cases form.rule <;> cases serial <;> rfl

/-- The serial number comes behind the filter, the company prefix and the reference. -/
theorem serialParts_subset (form : Gs1Form) (place : Place) :
    form.serialParts ⊆ form.parts place := fun _ hpart =>
  List.mem_cons_of_mem _ (List.mem_cons_of_mem _ (List.mem_cons_of_mem _ hpart))

theorem serialName_of_mem {name : Text} (h : name ∈ form.serialParts.map Part.name) :
    name = serialName := by
  simp only [serialParts, List.map_map, List.mem_map, Option.mem_toList] at h
  obtain ⟨serial, -, rfl⟩ := h
  cases serial <;> rfl

/-- The company prefix, the reference and the serial number become the fields of an element
    string, which pass their checks. -/
theorem exists_format_legacy (hnames : form.rule.names.Nodup)
    (hserial : serialName ∉ form.rule.names) {lookup : TableLookup} {validator : Validator}
    {context : Context} (hholds : context.Holds (companyName :: form.rule.referenceName ::
      form.serialParts.map Part.name) (company :: reference :: serials))
    (hcompany : Numeral.Digits 10 company) (hreference : Numeral.Digits 10 reference)
    (hserials : Part.Decode form.serialParts serials)
    (hdigit : CheckDigit.compute (form.rule.join company reference) = .ok digit) :
    ∃ result, Rules.assign lookup context form.rule.format = .ok result ∧
      result.Holds form.legacyTemplate.names
        (form.rule.fieldTexts (form.rule.join company reference) digit ++ serials) ∧
      List.Forall₂ (fun field text =>
        ∃ passed, (validator.checkField field (.text text)).outcome = .ok passed)
        (form.legacySide.fields place)
        (form.rule.fieldTexts (form.rule.join company reference) digit ++ serials) := by
  obtain ⟨hcompanyHolds, hholds⟩ := List.forall₂_cons.mp hholds
  obtain ⟨hreferenceHolds, hserialHolds⟩ := List.forall₂_cons.mp hholds
  have hbody := form.rule.digits_join hcompany hreference
  have hdigits : Numeral.Digits 10 digit := by
    obtain ⟨c, hc, hdigits⟩ := CheckDigit.exists_compute hbody
    rw [hdigit] at hc
    rwa [Except.ok.inj hc]
  obtain ⟨result, hassign, hkeyHolds⟩ := @KeyRule.exists_format form.rule lookup context
    digit hnames company reference hcompanyHolds hreferenceHolds hdigit
  have hframe {name : Text} (hname : name ∉ form.rule.names) :
      result.field? name = context.field? name :=
    Rules.field?_of_assign (fun hmem => hname (form.rule.format_subset hmem)) hassign
  refine ⟨result, hassign, ?_, ?_⟩
  · rw [names_legacyTemplate, Context.holds_append_iff (form.rule.length_fieldTexts _ _)]
    refine ⟨hkeyHolds, Context.Holds.of_eq hserialHolds fun name hname => hframe ?_⟩
    rw [serialName_of_mem hname]
    exact hserial
  · exact List.rel_append (KeyRule.checkField_fields _ _ hbody hdigits)
      (Part.checkField_texts _ hserials)

namespace Lawful

theorem names_nodup (h : form.Lawful) : form.rule.names.Nodup :=
  (List.nodup_cons.mp (List.nodup_cons.mp h.names).2).2

/-- The serial number is none of the names of a key. -/
theorem serialName_not_mem (h : form.Lawful) : serialName ∉ form.rule.names :=
  (List.nodup_cons.mp (List.nodup_cons.mp h.names).2).1

theorem filterName_not_mem (h : form.Lawful) : filterName ∉ form.rule.names :=
  fun hmem => (List.nodup_cons.mp h.names).1 (List.mem_cons_of_mem _ hmem)

/-- A company prefix and a reference with the digits of a place are admitted. -/
theorem admit_key (h : form.Lawful) (hplace : place ∈ form.tagForm.places)
    (hcompany : Numeral.Digits 10 company) (hcompanyLen : company.length = place.1.companyDigits)
    (hreference : Numeral.Digits 10 reference)
    (hreferenceLen : reference.length = place.1.referenceDigits)
    (hserials : Part.Admit form.serialParts serials) :
    Part.Admit (form.tagForm.identityParts place) (company :: reference :: serials) := by
  obtain ⟨-, -, hcompanyFits, hreferenceFits⟩ :=
    h.digits place.1 (List.fst_mem_of_mem_zipIdx hplace)
  exact .cons (Coding.admits_padded hcompany hcompanyLen hcompanyFits)
    (.cons (Coding.admits_padded hreference hreferenceLen hreferenceFits) hserials)

/-- A key is divided into texts that its parts admit. -/
theorem admit_identity (h : form.Lawful) (hplace : place ∈ form.tagForm.places)
    (hbody : Numeral.Digits 10 body) (hlen : body.length = form.rule.bodyLength)
    (hserials : Part.Admit form.serialParts serials) :
    Part.Admit (form.tagForm.identityParts place)
      (form.rule.company place.1.companyDigits body ::
        form.rule.reference place.1.companyDigits body :: serials) := by
  obtain ⟨hsum, hahead, -, -⟩ := h.digits place.1 (List.fst_mem_of_mem_zipIdx hplace)
  obtain ⟨hlen₁, hlen₂⟩ := KeyRule.length_company_reference hlen hsum hahead
  exact h.admit_key hplace (form.rule.digits_company _ hbody) hlen₁
    (form.rule.digits_reference _ hbody) hlen₂ hserials

/-- The fields of a key are not on the tag. -/
theorem tagField?_eq_none (h : form.Lawful) (hplace : place ∈ form.tagForm.places) {name : Text}
    (hname : name ∈ form.rule.fieldNames) :
    LevelOption.tagField? (form.tagForm.scheme.tagOption? place.1.key) name = none := by
  have hmem := form.rule.fieldNames_subset hname
  obtain ⟨hcompany, hreference, -⟩ := KeyRule.not_mem_fieldNames h.names_nodup
  have htag : form.tagForm.scheme.tagOption? place.1.key =
      some (form.tagSide.option form.tagForm.key place) := h.tagForm.tagOption?_eq hplace
  have hnames : (form.tagSide.option form.tagForm.key place).fields.map Field.name =
      (form.parts place).map Part.name := Part.names_textFields 1 _
  rw [htag]
  refine List.find?_eq_none.mpr fun field hfield heq => ?_
  have hin : name ∈ (form.parts place).map Part.name := by
    rw [← hnames, ← eq_of_beq heq]
    exact List.mem_map_of_mem (List.mem_reverse.mp hfield)
  change name ∈ filterName :: companyName :: form.rule.referenceName ::
    form.serialParts.map Part.name at hin
  simp only [List.mem_cons] at hin
  rcases hin with rfl | rfl | rfl | hin
  · exact h.filterName_not_mem hmem
  · exact hcompany hname
  · exact hreference hname
  · rw [serialName_of_mem hin] at hmem
    exact h.serialName_not_mem hmem

/-- The fields of a key and the serial number are what stands in an element string, if the
    serial number passes its checks. -/
theorem codes_legacy_iff (h : form.Lawful) (hplace : place ∈ form.tagForm.places)
    {texts values : List Text} (hlen : form.rule.fieldNames.length = texts.length)
    (hfits : List.Forall₂ Slot.Fits (form.serialParts.map Part.slot) serials)
    {validator : Validator} :
    LevelOption.Codes (LevelOption.reading validator false
        (form.tagForm.scheme.tagOption? place.1.key)) (form.legacySide.fields place)
      (texts ++ serials) values ↔
        values = texts ++ serials ∧ Part.Pass validator form.serialParts serials := by
  have hkeyLen : form.rule.fields.length = texts.length := by
    rw [← hlen, ← KeyRule.names_fields, List.length_map]
  have huntagged : ∀ field ∈ form.rule.fields,
      LevelOption.tagField? (form.tagForm.scheme.tagOption? place.1.key) field.name = none := by
    intro field hfield
    refine h.tagField?_eq_none hplace ?_
    rw [← KeyRule.names_fields]
    exact List.mem_map_of_mem hfield
  have hserials (rest : List Text) := @Part.codes_reading_text_iff form.serialParts rest _ validator
    (fun part hpart => h.tagForm.inTag hplace part (form.serialParts_subset place hpart))
    (fun part hpart => Coding.retains_of_suits (h.suits place hplace part
      (form.serialParts_subset place hpart)))
    _ (Part.names_textFields (form.rule.fields.length + 1) form.serialParts) _ hfits
  -- the fields of the key have no checks, those of the serial number are on the tag
  rw [legacySide, LevelOption.codes_append_iff hkeyLen]
  constructor
  · rintro ⟨first, rest, rfl, hfirst, hrest⟩
    obtain rfl := (LevelOption.codes_untagged_iff huntagged hkeyLen).mp hfirst
    obtain ⟨rfl, hpass⟩ := (hserials rest).mp hrest
    exact ⟨rfl, hpass⟩
  · rintro ⟨rfl, hpass⟩
    exact ⟨texts, serials, rfl, (LevelOption.codes_untagged_iff huntagged hkeyLen).mpr rfl,
      (hserials serials).mpr ⟨rfl, hpass⟩⟩

/-! ## Reading -/

theorem fits_serials (h : form.Lawful) (hplace : place ∈ form.tagForm.places)
    (hserials : Part.Admit form.serialParts serials) :
    List.Forall₂ Slot.Fits (form.serialParts.map Part.slot) serials :=
  Part.fits_texts (fun part hpart => h.suits place hplace part
    (form.serialParts_subset place hpart)) hserials

/-- The digits of a key, its check digit and the serial number fit into an element string. -/
theorem fits_legacy (h : form.Lawful) (hplace : place ∈ form.tagForm.places)
    (hbody : Numeral.Digits 10 body) (hlen : body.length = form.rule.bodyLength)
    (hcheck : Numeral.Digits 10 check) (hone : check.length = 1)
    (hserials : Part.Admit form.serialParts serials) :
    List.Forall₂ Slot.Fits (form.legacySide.template place).slots
      (form.rule.fieldTexts body check ++ serials) := by
  have hslots : (form.legacySide.template place).slots = _ := form.slots_legacyTemplate
  rw [hslots]
  exact List.rel_append (KeyRule.fits_pieces hbody hlen hcheck hone)
    (h.fits_serials hplace hserials)

/-- An element string has the option of the place whose number of digits is asked for. -/
theorem select_legacy (h : form.Lawful) (hplace : place ∈ form.tagForm.places)
    (hkey : params.toContext.field? companyPrefixLengthKey = some (.text place.1.key))
    {value : Text} {captures : List Text}
    (hread : (form.legacySide.template place).read? value = some captures) :
    Engine.select form.tagForm.scheme (form.tagForm.level form.legacySide) value
        (Engine.startContext params form.tagForm.scheme) =
      .ok (form.legacySide.option form.tagForm.key place, ⟨Template.captured 1 captures []⟩) := by
  have hrequested : Engine.requestedKey form.tagForm.scheme
      (Engine.startContext params form.tagForm.scheme) = some place.1.key := by
    have hoption : form.tagForm.scheme.optionKey = .text companyPrefixLengthKey := rfl
    rw [Engine.requestedKey_startContext params hoption (by decide), hkey]
    rfl
  exact @Engine.select_of_requestedKey Place form.tagForm.places
    (form.legacySide.option form.tagForm.key) form.legacySide.template form.tagForm.scheme
    (form.tagForm.level form.legacySide) _ (Engine.startContext params form.tagForm.scheme) place
    rfl rfl (h.tagForm.follows form.legacySide form.legacySide_mem) h.tagForm.keys hplace hrequested
    captures hread

/-- The key of an element string whose fields are stored is divided, and the other fields
    stay. -/
theorem exists_extract_legacy (h : form.Lawful) (hplace : place ∈ form.tagForm.places)
    (hlen : body.length = form.rule.bodyLength)
    (hserials : Part.Admit form.serialParts serials) :
    ∃ context, Rules.assign engine.lookup (Engine.fieldContext params form.tagForm.scheme
        place.1.key (form.legacySide.template place).names
          (form.rule.fieldTexts body check ++ serials)) form.rule.extract = .ok context ∧
      context.Holds ((form.tagForm.identityParts place).map Part.name)
        (form.rule.company place.1.companyDigits body ::
          form.rule.reference place.1.companyDigits body :: serials) ∧
      context.field? filterName = params.toContext.field? filterName := by
  have hfollow := h.tagForm.follows form.legacySide form.legacySide_mem place hplace
  have hnames : (form.legacySide.template place).names =
      form.rule.fieldNames ++ form.serialParts.map Part.name := form.names_legacyTemplate
  have hlength := form.rule.length_fieldTexts body check
  obtain ⟨stored, hstored⟩ : ∃ context, context = Engine.fieldContext params form.tagForm.scheme
    place.1.key (form.rule.fieldNames ++ form.serialParts.map Part.name)
      (form.rule.fieldTexts body check ++ serials) := ⟨_, rfl⟩
  have hholds : stored.Holds (form.rule.fieldNames ++ form.serialParts.map Part.name)
      (form.rule.fieldTexts body check ++ serials) := by
    rw [hstored]
    refine Engine.holds_fieldContext _ _ _ ?_ ?_
    · rw [← hnames]
      exact hfollow.nodup
    · rw [List.length_append, List.length_append, hlength, List.length_map, hserials.length_eq]
  obtain ⟨hkeyHolds, hserialHolds⟩ := (Context.holds_append_iff hlength).mp hholds
  have hother {name : Text} (hname : name ∉ form.rule.fieldNames) (hserial : name ≠ serialName) :
      name ∉ form.rule.fieldNames ++ form.serialParts.map Part.name := by
    rw [List.mem_append, not_or]
    exact ⟨hname, fun hmem => hserial (serialName_of_mem hmem)⟩
  have hoption : form.tagForm.scheme.optionKey = .text companyPrefixLengthKey := rfl
  have hdigits : stored.field? companyPrefixLengthKey =
      some (.text (Text.ofNat place.1.companyDigits)) := by
    rw [hstored, Engine.field?_fieldContext params hoption _
      (hother (KeyRule.not_mem_fieldNames h.names_nodup).2.2 (by decide)), if_pos rfl]
    rfl
  obtain ⟨context, hassign, hcompany, hreference⟩ :=
    @KeyRule.exists_extract form.rule engine.lookup stored body check place.1.companyDigits
      h.names_nodup hkeyHolds hlen hdigits
  -- only the names of the key are assigned to
  have hframe {name : Text} (hname : name ∉ form.rule.names) :
      context.field? name = stored.field? name :=
    Rules.field?_of_assign (fun hmem => hname (form.rule.extract_subset hmem)) hassign
  rw [hnames, ← hstored]
  refine ⟨context, hassign, .cons hcompany (.cons hreference ?_), ?_⟩
  · refine hserialHolds.of_eq fun name hname => hframe ?_
    rw [serialName_of_mem hname]
    exact h.serialName_not_mem
  · rw [hframe h.filterName_not_mem, hstored, Engine.field?_fieldContext params hoption _
      (hother (fun hmem => h.filterName_not_mem (form.rule.fieldNames_subset hmem)) (by decide)),
      if_neg (by decide), if_neg (by decide)]

/-- An element string is read into the company prefix, the reference and the serial
    number, if the length of its company prefix and the tag length are asked for. -/
theorem exists_read_legacy (h : form.Lawful) (hdistinct : LevelIndex.Distinct engine.schemes)
    (hscheme : form.tagForm.scheme ∈ engine.schemes) (hplace : place ∈ form.tagForm.places)
    (hhint : hint.integer? = some (form.tagLength : Int))
    (hkey : params.toContext.field? companyPrefixLengthKey = some (.text place.1.key))
    (hbody : Numeral.Digits 10 body) (hlen : body.length = form.rule.bodyLength)
    (hcheck : Numeral.Digits 10 check) (hone : check.length = 1)
    (hserials : Part.Admit form.serialParts serials) :
    ∃ context, engine.read (form.legacyText body check serials) none hint params =
        .ok ⟨form.tagForm.scheme, place.1.key, context⟩ ∧
      context.Holds ((form.tagForm.identityParts place).map Part.name)
        (form.rule.company place.1.companyDigits body ::
          form.rule.reference place.1.companyDigits body :: serials) ∧
      context.field? filterName = params.toContext.field? filterName := by
  have hside := form.legacySide_mem
  have hfollow := h.tagForm.follows form.legacySide hside place hplace
  have hfits := h.fits_legacy hplace hbody hlen hcheck hone hserials
  have htype : LevelType.legacy ≠ .onsHostname := by decide
  obtain ⟨start, -, -, hplain⟩ := LevelForm.opens_cases
    (h.tagForm.opens form.legacySide hside htype place hplace) _
  have hresolve := h.tagForm.resolve_tagLength hdistinct hscheme hside htype hplace
    (form.rule.fieldTexts body check ++ serials) hhint
  have hselect := h.select_legacy hplace hkey
    ((congrArg _ hplain).trans (Template.read?_text hfollow.separated hfits))
  obtain ⟨context, hassign, hholds, hfilter⟩ :=
    @exists_extract_legacy form place engine params body check serials h hplace hlen hserials
  refine ⟨context, ?_, hholds, hfilter⟩
  rw [legacyText, ← legacySide_text place,
    Engine.read_eq_ok_iff hresolve hselect hfollow (hfollow.length_fields hfits)]
  exact ⟨_, context, (h.codes_legacy_iff hplace (form.rule.length_fieldTexts body check)
      (h.fits_serials hplace hserials)).mpr ⟨rfl, hserials.decode.pass⟩,
    (Rules.derive_numbered _ form.legacySide.extract).trans hassign, rfl⟩

/-! ## Writing -/

/-- A company prefix, a reference and a serial number are written as an element string
    with their check digit. -/
theorem write_legacy (h : form.Lawful) (hplace : place ∈ form.tagForm.places) {context : Context}
    (hholds : context.Holds ((form.tagForm.identityParts place).map Part.name)
      (company :: reference :: serials))
    (hcompany : Numeral.Digits 10 company) (hreference : Numeral.Digits 10 reference)
    (hserials : Part.Decode form.serialParts serials)
    (hdigit : CheckDigit.compute (form.rule.join company reference) = .ok digit) :
    engine.write ⟨form.tagForm.scheme, place.1.key, context⟩ LevelType.legacy.name =
      .ok (form.legacyText (form.rule.join company reference) digit serials) := by
  obtain ⟨result, hassign, hresult, hchecks⟩ := exists_format_legacy h.names_nodup
    h.serialName_not_mem hholds hcompany hreference hserials hdigit
  exact h.tagForm.written.write_text form.legacySide form.legacySide_mem
    (by decide : LevelType.legacy ≠ .binary) hplace hassign hresult hchecks

end Lawful

end Gs1Form

end EpcTag
