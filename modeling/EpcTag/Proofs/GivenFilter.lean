-- SUMMARY: Tag URIs with a filter that is given as a parameter: they can be read again if it is a single digit.
import EpcTag.Proofs.TextReading

/-!
# Given filters

Element strings and pure identity URIs have no filter, so the filter of a tag URI that
is written for them is a parameter. A strict engine checks that it consists of digits
and is not above seven, but it does not count the digits. What it writes can be read
again, and goes to bits and back, exactly if the filter is a single digit.
-/

namespace EpcTag

/-- What is related to appended elements is related to each part. -/
theorem exists_append_of_forall₂ {α β : Type} {R : α → β → Prop} {as as' : List α} {bs : List β}
    (h : List.Forall₂ R (as ++ as') bs) :
    ∃ first rest, bs = first ++ rest ∧ List.Forall₂ R as first ∧ List.Forall₂ R as' rest := by
  induction as generalizing bs with
  | nil => exact ⟨[], bs, rfl, .nil, h⟩
  | cons a as ih =>
    obtain ⟨b, bs, hab, hrest, rfl⟩ := List.forall₂_cons_left_iff.mp h
    obtain ⟨first, rest, rfl, hfirst, hrest⟩ := ih hrest
    exact ⟨b :: first, rest, rfl, .cons hab hfirst, hrest⟩

namespace Gs1Form

variable {form : Gs1Form} {place : Place} {settings : Engine.Settings} {engine : Engine}
  {hint : Scalar} {params : Params} {value filter tag : Text} {texts : List Text}
  {reading : Engine.Reading}

/-- What is read holds all fields of a tag but the filter, which is a parameter. -/
def LacksFilter (form : Gs1Form) (params : Params) (reading : Engine.Reading) : Prop :=
  ∃ place ∈ form.tagForm.places, ∃ texts context,
    Part.Admit (form.tagForm.identityParts place) texts ∧
    context.Holds ((form.tagForm.identityParts place).map Part.name) texts ∧
    context.field? filterName = params.toContext.field? filterName ∧
    reading = ⟨form.tagForm.scheme, place.1.key, context⟩

/-- The slots of the schemes of numbers fix how these are written, and numbers have no
    points. -/
theorem slots_numeric : ∀ form ∈ numeric, ∀ place ∈ form.tagForm.places,
    ∀ part ∈ form.parts place, (part.slot.fixed = true ∨ part.slot = .number) ∧
      part.slot.dotless = true ∧ part.coding.dotless = true := by decide +kernel

/-- Numbers that stand in a text and pass the checks of a strict engine are admitted. -/
theorem admit_of_pass (hform : form ∈ numeric) (hplace : place ∈ form.tagForm.places)
    {validator : Validator} (hstrict : validator.strict = true) {parts : List Part}
    (hsub : parts ⊆ form.parts place) (hpass : Part.Pass validator parts texts)
    (hfits : List.Forall₂ Slot.Fits (parts.map Part.slot) texts) : Part.Admit parts texts :=
  hpass.admit hstrict
    (fun part hpart => isPacked_numeric form hform place hplace part (hsub hpart))
    (fun part hpart => (Builtin.lawful_gs1 form (List.mem_cons_of_mem _ hform)).suits place hplace
      part (hsub hpart))
    (fun part hpart => (slots_numeric form hform place hplace part (hsub hpart)).1) hfits

/-! ## Reading -/

/-- A pure identity URI that a strict engine reads lacks nothing but the filter. -/
theorem lacksFilter_of_identity (hform : form ∈ numeric)
    (hstrict : engine.validator.strict = true)
    (hresolve : (engine.index.resolve (Engine.plainValue value) hint none).outcome =
      .ok ⟨form.tagForm.scheme, form.tagForm.level form.identitySide⟩)
    (hread : engine.read value none hint params = .ok reading) :
    form.LacksFilter params reading := by
  have hforms : form ∈ sgtin198 :: numeric := List.mem_cons_of_mem _ hform
  have hlawful := (Builtin.lawful_gs1 form hforms).tagForm
  obtain ⟨place, hplace, texts, ending, -, -, hfits, hpass, rfl⟩ :=
    (Builtin.verbatim_gs1 hforms).2.exists_of_read hresolve hread
  have hadmits := admit_of_pass hform hplace hstrict (List.drop_subset 1 _) hpass hfits
  refine ⟨place, hplace, texts, _, hadmits, ?_, ?_, rfl⟩
  · exact hlawful.holds_context hplace (List.drop_sublist _ _) hadmits.decode params
  · have hfilter : filterName ∉ (form.tagForm.identityParts place).map Part.name :=
      (List.nodup_cons.mp (hlawful.names_nodup hplace)).1
    have hoption : form.tagForm.scheme.optionKey = .text Builtin.companyPrefixLengthKey := rfl
    rw [TagForm.context, Engine.field?_fieldContext params hoption _ hfilter, if_neg (by decide),
      if_neg (by decide)]

/-- An element string that a strict engine reads lacks nothing but the filter. -/
theorem lacksFilter_of_legacy (hform : form ∈ numeric) (hstrict : engine.validator.strict = true)
    (hresolve : (engine.index.resolve (Engine.plainValue value) hint none).outcome =
      .ok ⟨form.tagForm.scheme, form.tagForm.level form.legacySide⟩)
    (hread : engine.read value none hint params = .ok reading) :
    form.LacksFilter params reading := by
  have hlawful := Builtin.lawful_gs1 form (List.mem_cons_of_mem _ hform)
  obtain ⟨place, hplace, captures, values, context, hfits, hcodes, hextract, rfl⟩ :=
    hlawful.tagForm.written.exists_of_read form.legacySide_mem hresolve hread
  -- the fields of the key, then the serial number
  have hslots : (form.legacySide.template place).slots = _ := form.slots_legacyTemplate
  rw [hslots] at hfits
  obtain ⟨_, serials, rfl, hkey, hserials⟩ := exists_append_of_forall₂ hfits
  obtain ⟨body, check, hbody, hlen, rfl⟩ := KeyRule.exists_of_fits_pieces hkey
  obtain ⟨rfl, hpass⟩ := (hlawful.codes_legacy_iff hplace
    (form.rule.length_fieldTexts body check) hserials).mp hcodes
  have hadmits := admit_of_pass hform hplace hstrict (form.serialParts_subset place) hpass hserials
  obtain ⟨result, hassign, hholds, hfilter⟩ :=
    @Lawful.exists_extract_legacy form place engine params body check serials hlawful hplace hlen
      hadmits
  obtain rfl : context = result := Except.ok.inj (hextract.symm.trans hassign)
  exact ⟨place, hplace, _, context, hlawful.admit_identity hplace hbody hlen hadmits, hholds,
    hfilter, rfl⟩

/-! ## Writing -/

/-- A tag URI is written only if there is a filter, and a strict engine passes digits up to
    seven. -/
theorem LacksFilter.exists_of_write (h : form.LacksFilter params reading) (hform : form ∈ numeric)
    (hstrict : engine.validator.strict = true)
    (hwrite : engine.write reading LevelType.tagEncoding.name = .ok tag) :
    ∃ place ∈ form.tagForm.places, ∃ filter texts,
      (params.lookup filterName).map Scalar.shown = some filter ∧
      Numeral.Digits 10 filter ∧ Numeral.value 10 filter ≤ 7 ∧
      Part.Admit (form.tagForm.identityParts place) texts ∧
      tag = form.tagSide.text place (filter :: texts) := by
  have hlawful := Builtin.lawful_gs1 form (List.mem_cons_of_mem _ hform)
  obtain ⟨place, hplace, texts, context, hadmits, hholds, hgiven, rfl⟩ := h
  have hside : form.tagSide ∈ form.tagForm.sides := by simp [TagForm.sides, tagForm]
  have htype : LevelType.tagEncoding ≠ .binary := by decide
  have hassign : Rules.assign engine.lookup context form.tagSide.format = .ok context := rfl
  have hnames : (form.tagSide.template place).names = (form.parts place).map Part.name :=
    hlawful.tagForm.tag_names hplace
  obtain ⟨given, hfield⟩ := hlawful.tagForm.written.exists_of_write form.tagSide hside htype hplace
    hassign hwrite filterName (by rw [hnames]; exact List.mem_cons_self ..)
  -- parameters are given as they are shown
  rw [hgiven, Params.field?_toContext] at hfield
  obtain ⟨shown, hshown, rfl⟩ := Option.map_eq_some_iff.mp hfield
  have htexts : context.Holds (form.tagSide.template place).names (shown.shown :: texts) := by
    rw [hnames]
    exact .cons (hgiven.trans ((Params.field?_toContext ..).trans hfield)) hholds
  obtain ⟨hpasses, rfl⟩ := (hlawful.tagForm.written.write_text_iff form.tagSide hside htype hplace
    hassign htexts).mp hwrite
  have hpass : Part.Pass engine.validator (form.parts place) (shown.shown :: texts) :=
    (Part.pass_iff 1).mpr hpasses
  obtain ⟨hfilter, -⟩ := List.forall₂_cons.mp hpass
  obtain ⟨hdigits, hle⟩ := Field.checkField_number_iff.mp hfilter hstrict
  exact ⟨place, hplace, shown.shown, texts, by rw [hshown]; rfl, hdigits, hle, hadmits, rfl⟩

/-! ## Reading again -/

/-- A tag URI with a single digit as its filter has admitted texts. -/
theorem admit_parts (hdigits : Numeral.Digits 10 filter) (hlen : filter.length = 1)
    (hle : Numeral.value 10 filter ≤ 7)
    (hadmits : Part.Admit (form.tagForm.identityParts place) texts) :
    Part.Admit (form.parts place) (filter :: texts) :=
  .cons ⟨_, hle, (NumberForm.numeral_digit_value hdigits hlen).symm⟩ hadmits

/-- A tag URI is read only if its filter is a single digit. -/
theorem length_of_read?_tag (hform : form ∈ numeric) (hplace : place ∈ form.tagForm.places)
    {other : Place} (hother : other ∈ form.tagForm.places) (hdigits : Numeral.Digits 10 filter)
    (hadmits : Part.Admit (form.tagForm.identityParts place) texts) {values : List Text}
    (hread : (form.tagSide.template other).read? ((form.tagSide.template place).text
      (filter :: texts)) = some values) : filter.length = 1 := by
  have hlawful := Builtin.lawful_gs1 form (List.mem_cons_of_mem _ hform)
  have hsep := (hlawful.tagForm.follows form.tagSide (by simp [TagForm.sides, tagForm]) other
    hother).separated
  have hdecode : Part.Decode (form.tagForm.identityParts place) texts := hadmits.decode
  have hdotless : ∀ text ∈ texts.dropLast, '.' ∉ text := Part.not_mem_of_decode (fun part hpart =>
    (slots_numeric form hform place hplace part
      (List.mem_of_mem_drop (List.mem_of_mem_dropLast hpart))).2.2) hdecode
  obtain ⟨company, rest, -, -, rfl⟩ := List.forall₂_cons_left_iff.mp hadmits
  have hfront : ∀ text ∈ (filter :: company :: rest).dropLast, '.' ∉ text := by
    intro text htext
    rcases List.mem_cons.mp htext with rfl | htext
    · exact fun hdot => absurd (hdigits _ hdot) (by decide)
    · exact hdotless text htext
  -- the points stand at the same places, so the first field read is the filter
  obtain ⟨hfits, front, last, ending, -, htexts, rfl⟩ := @Template.exists_of_read?_dotted
    (form.tagStart ++ [':']) (form.parts place) (form.parts other) (filter :: company :: rest)
    values (List.cons_ne_nil _ _) (congrArg (· + 1) hadmits.length_eq)
    (congrArg (· + 1) hadmits.length_eq) hsep hfront
    (fun part hpart => (slots_numeric form hform other hother part
      (List.mem_of_mem_dropLast hpart)).2.1) hread
  cases front with
  | nil => simp at htexts
  | cons first front =>
    obtain ⟨rfl, -⟩ := List.cons.inj htexts
    exact (List.forall₂_cons.mp hfits).1.1

/-- What a strict engine writes for a filter of digits goes to bits and back if the filter is
    a single digit, and cannot be read otherwise. -/
theorem convert_tag_of_filter (hengine : (Engine.builtin settings).outcome = .ok engine)
    (hform : form ∈ numeric) (hscheme : form.tagForm.scheme ∈ Builtin.schemes)
    (hplace : place ∈ form.tagForm.places) (hdigits : Numeral.Digits 10 filter)
    (hle : Numeral.value 10 filter ≤ 7)
    (hadmits : Part.Admit (form.tagForm.identityParts place) texts)
    (hhint : LevelIndex.IsHint (params.get Engine.tagLengthName)) :
    if filter.length = 1 then
      ∃ bits, (engine.convert (form.tagSide.text place (filter :: texts)) params
          LevelType.binary.name).outcome = .ok bits ∧
        (engine.convert bits params LevelType.tagEncoding.name).outcome =
          .ok (form.tagSide.text place (filter :: texts))
    else
      (engine.convert (form.tagSide.text place (filter :: texts)) params
        LevelType.binary.name).outcome = .error (.noMatch (.noOption form.name .tagEncoding
          (Engine.plainValue (form.tagSide.text place (filter :: texts))))) := by
  have hlawful := Builtin.lawful_gs1 form (List.mem_cons_of_mem _ hform)
  split
  · next hlen =>
    have hparts := admit_parts hdigits hlen hle hadmits
    exact ⟨_, hlawful.tagForm.convert_tag_to_bits hengine hscheme hplace hparts
        (Part.fits_texts (hlawful.suits place hplace) hparts) hhint,
      hlawful.tagForm.convert_bits_to_tag hengine hscheme hplace hparts hhint⟩
  · next hlen =>
    have hresolve := hlawful.tagForm.resolve_tag hengine hscheme hplace (filter :: texts) hhint
    obtain ⟨-, -, -, hplain⟩ := LevelForm.opens_cases (hlawful.tagForm.opens form.tagSide
      (by simp [TagForm.sides, tagForm]) (by decide : LevelType.tagEncoding ≠ .onsHostname) place
      hplace) (filter :: texts)
    have hunread : engine.read (form.tagSide.text place (filter :: texts)) none _ params = _ :=
      (hlawful.tagForm.separates (by simp)).read_of_unread (fun other hother =>
        Option.eq_none_iff_forall_ne_some.mpr fun values hread =>
          hlen (length_of_read?_tag hform hplace hother hdigits hadmits (hplain ▸ hread))) hresolve
    exact Engine.convert_of_unread hunread _

end Gs1Form

/-! ## The built-in schemes -/

/-- The schemes of keys whose tags hold nothing but numbers. -/
def keyNames : List Text := ["SGTIN-96", "SSCC-96", "SGLN-96", "GRAI-96"]

theorem Builtin.exists_form_of_keyNames {scheme : Scheme} (hscheme : scheme ∈ schemes)
    (hname : scheme.name ∈ keyNames) : ∃ form ∈ Gs1Form.numeric, scheme = form.tagForm.scheme := by
  have hsub : keyNames ⊆ numericNames := by decide
  rcases numeric_cases hscheme (hsub hname) with h | rfl
  · exact h
  · exact absurd hname (by decide)

/-- A strict engine converts an element string or a pure identity URI to a tag URI only if
    the filter that is given consists of digits and is not above seven. The tag URI goes
    to bits and back if the filter is a single digit, and is refused otherwise. -/
theorem convert_given_filter {settings : Engine.Settings} {engine : Engine}
    (hengine : (Engine.builtin settings).outcome = .ok engine) (hstrict : settings.strict = true)
    {value tag : Text} {params : Params} {scheme : Scheme} {level : Level}
    (hresolve : (engine.index.resolve (Engine.plainValue value) (params.get Engine.tagLengthName)
      none).outcome = .ok ⟨scheme, level⟩)
    (hname : scheme.name ∈ keyNames) (hlevel : level.type = .legacy ∨ level.type = .pureIdentity)
    (htag : (engine.convert value params LevelType.tagEncoding.name).outcome = .ok tag) :
    ∃ filter, (params.lookup filterName).map Scalar.shown = some filter ∧
      Numeral.Digits 10 filter ∧ Numeral.value 10 filter ≤ 7 ∧
      ∀ other : Params, LevelIndex.IsHint (other.get Engine.tagLengthName) →
        if filter.length = 1 then
          ∃ bits, (engine.convert tag other LevelType.binary.name).outcome = .ok bits ∧
            (engine.convert bits other LevelType.tagEncoding.name).outcome = .ok tag
        else
          (engine.convert tag other LevelType.binary.name).outcome =
            .error (.noMatch (.noOption scheme.name .tagEncoding (Engine.plainValue tag))) := by
  obtain ⟨start, hmem, -⟩ := Engine.exists_entry_of_resolve hengine hresolve
  obtain ⟨hscheme, (hlevels : level ∈ scheme.levels), -⟩ := LevelIndex.mem_allEntries_iff.mp hmem
  obtain ⟨form, hform, rfl⟩ := Builtin.exists_form_of_keyNames hscheme hname
  have hlawful := Builtin.lawful_gs1 form (List.mem_cons_of_mem _ hform)
  have hvalidator := (Engine.strict_of_builtin hengine).trans hstrict
  obtain ⟨reading, hread, hwrite⟩ := Engine.convert_eq_ok_iff.mp htag
  have hlacks : form.LacksFilter params reading := by
    have htypes := hlawful.tagForm.types_nodup
    rcases hlevel with htype | htype
    · rw [TagForm.level_eq_of_type htypes form.legacySide_mem hlevels htype] at hresolve
      exact Gs1Form.lacksFilter_of_legacy hform hvalidator hresolve hread
    · have hside : form.identitySide ∈ form.tagForm.sides := by
        simp [TagForm.sides, Gs1Form.tagForm]
      rw [TagForm.level_eq_of_type htypes hside hlevels htype] at hresolve
      exact Gs1Form.lacksFilter_of_identity hform hvalidator hresolve hread
  obtain ⟨place, hplace, filter, texts, hfilter, hdigits, hle, hadmits, rfl⟩ :=
    hlacks.exists_of_write hform hvalidator hwrite
  exact ⟨filter, hfilter, hdigits, hle, fun other hhint =>
    Gs1Form.convert_tag_of_filter hengine hform hscheme hplace hdigits hle hadmits hhint⟩

/-- The parameters for a GTIN with a company prefix of seven digits. -/
def gtinParams (filter : Text) : Params :=
  [("taglength", .text "96"), ("companyprefixlength", .text "7"), ("filter", .text filter)]

theorem convert_given_filter_gtin :
    ∃ engine scheme level, (Engine.builtin { strict := true }).outcome = .ok engine ∧
      (engine.index.resolve (Engine.plainValue "gtin=00037000302414;serial=1041970")
        ((gtinParams "3").get Engine.tagLengthName) none).outcome = .ok ⟨scheme, level⟩ ∧
      (engine.convert "gtin=00037000302414;serial=1041970" (gtinParams "3")
        LevelType.tagEncoding.name).outcome =
          .ok "urn:epc:tag:sgtin-96:3.0037000.030241.1041970".toList ∧
      ∃ filter, ((gtinParams "3").lookup filterName).map Scalar.shown = some filter ∧
        Numeral.Digits 10 filter ∧ Numeral.value 10 filter ≤ 7 ∧
        ∀ other : Params, LevelIndex.IsHint (other.get Engine.tagLengthName) →
          if filter.length = 1 then
            ∃ bits, (engine.convert "urn:epc:tag:sgtin-96:3.0037000.030241.1041970" other
                LevelType.binary.name).outcome = .ok bits ∧
              (engine.convert bits other LevelType.tagEncoding.name).outcome =
                .ok "urn:epc:tag:sgtin-96:3.0037000.030241.1041970".toList
          else
            (engine.convert "urn:epc:tag:sgtin-96:3.0037000.030241.1041970" other
              LevelType.binary.name).outcome = .error (.noMatch (.noOption scheme.name .tagEncoding
                (Engine.plainValue "urn:epc:tag:sgtin-96:3.0037000.030241.1041970"))) := by
  have hengine := Engine.builtin_outcome { strict := true }
  refine ⟨_, Gs1Form.sgtin96.tagForm.scheme,
    Gs1Form.sgtin96.tagForm.level Gs1Form.sgtin96.legacySide, hengine, ?resolved, ?converted,
    convert_given_filter hengine rfl ?resolved (by decide) (.inl rfl) ?converted⟩
  case resolved =>
    refine eq_ok_of_toOption ?_
    decide +kernel
  case converted =>
    refine eq_ok_of_toOption ?_
    decide +kernel

/-- A filter with a leading zero is written but not read. -/
theorem not_convert_given_filter :
    ¬ ∀ (settings : Engine.Settings) (engine : Engine) (value tag : Text) (params : Params)
      (scheme : Scheme) (level : Level), (Engine.builtin settings).outcome = .ok engine →
        settings.strict = true →
        (engine.index.resolve (Engine.plainValue value) (params.get Engine.tagLengthName)
          none).outcome = .ok ⟨scheme, level⟩ →
        scheme.name ∈ keyNames → level.type = .legacy ∨ level.type = .pureIdentity →
        (engine.convert value params LevelType.tagEncoding.name).outcome = .ok tag →
          ∃ bits, (engine.convert tag [] LevelType.binary.name).outcome = .ok bits ∧
            (engine.convert bits [] LevelType.tagEncoding.name).outcome = .ok tag := by
  intro h
  have hback := h { strict := true } _ "gtin=00037000302414;serial=1041970"
    "urn:epc:tag:sgtin-96:03.0037000.030241.1041970" (gtinParams "03")
    Gs1Form.sgtin96.tagForm.scheme (Gs1Form.sgtin96.tagForm.level Gs1Form.sgtin96.legacySide)
    (Engine.builtin_outcome _) rfl ?resolved (by decide) (.inl rfl) ?converted
  · obtain ⟨bits, hbits, -⟩ := hback
    have hsome := congrArg (fun outcome => outcome.toOption.isSome) hbits
    revert hsome
    change _ ≠ true
    decide +kernel
  case resolved =>
    refine eq_ok_of_toOption ?_
    decide +kernel
  case converted =>
    refine eq_ok_of_toOption ?_
    decide +kernel

end EpcTag
