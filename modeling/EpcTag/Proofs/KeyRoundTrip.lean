-- SUMMARY: Element strings by way of a tag or a URI, and pure identity URIs by way of an element string.
import EpcTag.Engine.Gs1Keys
import EpcTag.Proofs.BuiltinSchemes
import EpcTag.Proofs.Dotted

/-!
# Keys by way of a tag

An element string holds a check digit, and no other representation of a GS1 key
does. So a key that is converted to a tag or a URI and back comes with the check
digit that is computed, whatever the digit was before. A pure identity URI holds
no check digit, and it comes back from the element string as it was: the company
prefix and the reference are joined to a key that divides at the same place.
-/

namespace EpcTag

/-! ## Parameters -/

namespace Params

/-- A parameter is a number, given as such or as text. -/
def Says (params : Params) (name : Text) (n : Nat) : Prop :=
  params.get name = .integer n ∨ params.get name = .text (Text.ofNat n)

variable {params : Params} {name : Text} {n : Nat}

theorem Says.integer?_get (h : params.Says name n) : (params.get name).integer? = some (n : Int) := by
  rcases h with h | h <;> rw [h]
  · rfl
  · exact Numeral.readInteger?_ofNat n

/-- A parameter is shown as a conversion holds it. -/
theorem field?_toContext (params : Params) (name : Text) :
    params.toContext.field? name = (params.lookup name).map fun value => .text value.shown := by
  induction params with
  | nil => rfl
  | cons entry params ih =>
    obtain ⟨key, value⟩ := entry
    change Pairs.get? ((Scalar.text key, Scalar.text value.shown) :: Params.toContext params)
      (.text name) = _
    rw [Pairs.get?_cons, List.lookup_cons]
    by_cases hname : name = key
    · simp [hname]
    · have hbeq : (name == key) = false := by simpa using hname
      rw [if_neg (by simpa using hname), hbeq]
      exact ih

theorem Says.shown_lookup (h : params.Says name n) :
    (params.lookup name).map Scalar.shown = some (Text.ofNat n) := by
  rcases h with h | h <;> rw [get] at h <;> cases hlookup : params.lookup name <;>
    rw [hlookup] at h <;> cases h <;> rfl

theorem Says.field?_toContext (h : params.Says name n) :
    params.toContext.field? name = some (.text (Text.ofNat n)) := by
  obtain ⟨value, hvalue, hshown⟩ := Option.map_eq_some_iff.mp h.shown_lookup
  rw [Params.field?_toContext, hvalue, Option.map_some, hshown]

/-- The tag length is given in decimal digits. -/
theorem says_tagLength (tagLength : Nat) :
    Params.Says [(Engine.tagLengthName, .text (Text.ofNat tagLength))] Engine.tagLengthName
      tagLength :=
  .inr rfl

theorem says_tagLength_keyParams (tagLength : Nat) (digits : Text) :
    Params.Says (Engine.keyParams (Text.ofNat tagLength) digits) Engine.tagLengthName tagLength :=
  .inr rfl

theorem says_companyPrefixLength_keyParams (tagLength : Text) (digits : Nat) :
    Params.Says (Engine.keyParams tagLength (Text.ofNat digits)) Builtin.companyPrefixLengthKey
      digits :=
  .inr rfl

end Params

/-! ## By way of a tag -/

/-- The fields of a tag that are written as a tag, a tag URI or a pure identity URI are
    read from there again. -/
theorem TagForm.Lawful.exists_write_read {Place : Type} {form : TagForm Place} (h : form.Lawful)
    {engine : Engine} (hdistinct : LevelIndex.Distinct engine.schemes)
    (hscheme : form.scheme ∈ engine.schemes) {hint : Scalar}
    (hhint : hint.integer? = some (form.tagLength : Int)) {params : Params} {place : Place}
    (hplace : place ∈ form.places) {texts : List Text}
    (hadmits : Part.Admit (form.parts place) texts)
    (hfits : List.Forall₂ Slot.Fits ((form.parts place).map Part.slot) texts)
    {context : Context} (hholds : context.Holds ((form.parts place).map Part.name) texts)
    {side : LevelForm Place} (hside : side ∈ [form.binary, form.tag, form.identity]) :
    ∃ value result, engine.write ⟨form.scheme, form.key place, context⟩ side.type.name =
        .ok value ∧
      engine.read value none hint params = .ok ⟨form.scheme, form.key place, result⟩ ∧
      result.Holds ((form.identityParts place).map Part.name) (texts.drop form.tagOnly) := by
  have hsides : side ∈ form.sides := List.mem_append_left _ hside
  have hdrop {context : Context} (hholds : context.Holds ((form.parts place).map Part.name) texts) :
      context.Holds ((form.identityParts place).map Part.name) (texts.drop form.tagOnly) := by
    rw [identityParts, List.map_drop]
    exact List.forall₂_drop _ hholds
  have hstored := h.holds_context hplace (List.Sublist.refl _) hadmits.decode params
  have hself := h.selfDescribing hside
  have htype : side.type ≠ .onsHostname := fun heq => by simp [heq, LevelType.selfDescribing] at hself
  have hresolve (values : List Text) :=
    h.resolve_tagLength hdistinct hscheme hsides htype hplace values hhint
  simp only [List.mem_cons, List.not_mem_nil, or_false] at hside
  -- a tag and a tag URI have all fields, the identity URI those that are not on the tag only
  rcases hside with rfl | rfl | rfl
  · rw [h.type_eq.1]
    exact ⟨_, _, h.write_binary hplace hholds hadmits, h.read_binary hplace hadmits (hresolve _),
      hdrop hstored⟩
  · rw [h.type_eq.2.1]
    exact ⟨_, _, h.write_tag hplace hholds hadmits.decode,
      h.read_tag hplace hadmits hfits (hresolve _), hdrop hstored⟩
  · rw [h.type_eq.2.2]
    have hadmits : Part.Admit (form.identityParts place) (texts.drop form.tagOnly) :=
      List.forall₂_drop _ hadmits
    have hslots : List.Forall₂ Slot.Fits ((form.identityParts place).map Part.slot)
        (texts.drop form.tagOnly) := by
      rw [identityParts, List.map_drop]
      exact List.forall₂_drop _ hfits
    exact ⟨_, _, h.write_identity hplace (hdrop hholds) hadmits.decode,
      h.read_identity hplace hadmits hslots (hresolve _),
      h.holds_context hplace (List.drop_sublist _ _) hadmits.decode params⟩

/-- An element string is converted to a tag, a tag URI or a pure identity URI, and back to
    an element string with the check digit of the key. -/
theorem Gs1Form.Lawful.convert_legacy_back {form : Gs1Form} (h : form.Lawful)
    {settings : Engine.Settings} {engine : Engine}
    (hengine : (Engine.builtin settings).outcome = .ok engine)
    (hscheme : form.tagForm.scheme ∈ Builtin.schemes) {place : Place}
    (hplace : place ∈ form.tagForm.places) {filter : Nat} (hfilter : filter ≤ 7)
    {params : Params} (hlength : params.Says Engine.tagLengthName form.tagLength)
    (hfilterSaid : params.Says filterName filter)
    (hdigits : params.Says Builtin.companyPrefixLengthKey place.1.companyDigits)
    {body check digit : Text} (hbody : Numeral.Digits 10 body)
    (hlen : body.length = form.rule.bodyLength) (hcheck : Numeral.Digits 10 check)
    (hone : check.length = 1) {serials : List Text}
    (hserials : Part.Admit form.serialParts serials)
    (hdigit : CheckDigit.compute body = .ok digit) {side : LevelForm Place}
    (hside : side ∈ [form.binarySide, form.tagSide, form.identitySide]) :
    ∃ value,
      (engine.convert (form.legacyText body check serials) params side.type.name).outcome =
        .ok value ∧
      (engine.convert value params LevelType.legacy.name).outcome =
        .ok (form.legacyText body digit serials) := by
  have hschemes := Engine.schemes_of_builtin hengine
  have hdistinct : LevelIndex.Distinct engine.schemes := hschemes ▸ Builtin.distinct_schemes
  have hmem : form.tagForm.scheme ∈ engine.schemes := hschemes ▸ hscheme
  have hidentity := h.admit_identity hplace hbody hlen hserials
  -- the element string is read, its fields are written and read again, and the key is joined
  obtain ⟨context, hread, hholds, hother⟩ := h.exists_read_legacy hdistinct hmem
    hplace hlength.integer?_get hdigits.field?_toContext hbody hlen hcheck hone hserials
  have hadmits : Part.Admit (form.parts place) (Text.ofNat filter ::
      form.rule.company place.1.companyDigits body ::
        form.rule.reference place.1.companyDigits body :: serials) :=
    .cons ⟨filter, hfilter, rfl⟩ hidentity
  obtain ⟨value, result, hwrite, hback, hheld⟩ := h.tagForm.exists_write_read
    hdistinct hmem hlength.integer?_get hplace hadmits
    (Part.fits_texts (h.suits place hplace) hadmits)
    (.cons (hother.trans hfilterSaid.field?_toContext) hholds) hside
  refine ⟨value, (Engine.convert_of_read hread _).trans hwrite, ?_⟩
  rw [Engine.convert_of_read hback]
  have hjoin := form.rule.join_company_reference place.1.companyDigits hlen
  have hwritten : engine.write _ _ = _ := h.write_legacy hplace hheld
    (form.rule.digits_company _ hbody) (form.rule.digits_reference _ hbody) hserials.decode
    (hjoin.symm ▸ hdigit)
  rwa [hjoin] at hwritten

/-! ## Keys -/

/-- The GS1 keys that a tag of 96 bits holds. -/
inductive Gs1Key where
  | gtin
  | sscc
  | gln
  | grai
  deriving DecidableEq, Repr

namespace Gs1Key

/-- The element string of a key, its check digit and a serial number. An SSCC has no
    serial number. -/
def elementString (key : Gs1Key) (body check serial : Text) : Text :=
  match key with
  | .gtin => Text.join ["gtin=", body, check, ";serial=", serial]
  | .sscc => Text.join ["sscc=", body, check]
  | .gln => Text.join ["gln=", body, check, ";serial=", serial]
  | .grai => Text.join ["grai=0", body, check, serial]

/-- The number of digits before the check digit. -/
def bodyLength : Gs1Key → Nat
  | .gtin => 13
  | .sscc => 17
  | .gln | .grai => 12

/-- The bits of the serial number, if there is one. -/
def serialBits? : Gs1Key → Option Nat
  | .gtin | .grai => some 38
  | .sscc => none
  | .gln => some 41

/-- The serial numbers of a key: decimal numbers without leading zeros that fit into the
    bits of a tag. -/
def IsSerial (key : Gs1Key) (serial : Text) : Prop :=
  match key.serialBits? with
  | some width => serial ≠ [] ∧ Numeral.Digits 10 serial ∧ Numeral.NoLeadingZero serial ∧
      Numeral.value 10 serial < 2 ^ width
  | none => serial = []

/-- The scheme of a key. -/
def form : Gs1Key → Gs1Form
  | .gtin => .sgtin96
  | .sscc => .sscc96
  | .gln => .sgln96
  | .grai => .grai96

/-- The serial number as the fields of a tag. -/
def serials (key : Gs1Key) (serial : Text) : List Text :=
  match key.serialBits? with
  | some _ => [serial]
  | none => []

theorem form_mem (key : Gs1Key) : key.form ∈ Gs1Form.numeric := by
  cases key <;> simp [form, Gs1Form.numeric]

theorem scheme_mem (key : Gs1Key) : key.form.tagForm.scheme ∈ Builtin.schemes := by
  cases key <;> simp [form, Builtin.schemes]

theorem tagLength_form (key : Gs1Key) : key.form.tagLength = 96 := by cases key <;> rfl

theorem bodyLength_form (key : Gs1Key) : key.form.rule.bodyLength = key.bodyLength := by
  cases key <;> rfl

theorem legacyText_form (key : Gs1Key) (body check serial : Text) :
    key.form.legacyText body check (key.serials serial) = key.elementString body check serial := by
  cases key with
  | gtin =>
    exact Gs1Form.legacyText_some (rfl : Gs1Form.sgtin96.serial = some (.numeric 38)) body check
      serial
  | sscc => exact Gs1Form.legacyText_none rfl body check
  | gln =>
    exact Gs1Form.legacyText_some (rfl : Gs1Form.sgln96.serial = some (.numeric 41)) body check
      serial
  | grai =>
    exact Gs1Form.legacyText_some (rfl : Gs1Form.grai96.serial = some (.numeric 38)) body check
      serial

/-- A serial number is admitted by its field. -/
theorem admit_serials {key : Gs1Key} {serial : Text} (h : key.IsSerial serial) :
    Part.Admit key.form.serialParts (key.serials serial) := by
  have hadmits {width : Nat} (h : serial ≠ [] ∧ Numeral.Digits 10 serial ∧
      Numeral.NoLeadingZero serial ∧ Numeral.value 10 serial < 2 ^ width) :
      (Coding.number .plain width).Admits serial :=
    Coding.admits_plain h.1 h.2.1 h.2.2.1 h.2.2.2
  cases key with
  | gtin => exact .cons (hadmits h) .nil
  | sscc => exact .nil
  | gln => exact .cons (hadmits h) .nil
  | grai => exact .cons (hadmits h) .nil

/-- The number of digits of a reference behind a company prefix of so many digits. -/
def referenceDigits (key : Gs1Key) (digits : Nat) : Nat :=
  ((key.form.partitions.find? (·.companyDigits == digits)).map (·.referenceDigits)).getD 0

theorem exists_partition (key : Gs1Key) {digits : Nat} (hleast : 6 ≤ digits) (hmost : digits ≤ 12) :
    ∃ place ∈ key.form.tagForm.places, place.1.companyDigits = digits ∧
      place.1.referenceDigits = key.referenceDigits digits := by
  have hall : ∀ digits ∈ List.range' 6 7, ∃ place ∈ key.form.tagForm.places,
      place.1.companyDigits = digits ∧ place.1.referenceDigits = key.referenceDigits digits := by
    cases key <;> decide +kernel
  exact hall digits (List.mem_range'_1.mpr ⟨hleast, by omega⟩)

/-- Every key has a place for company prefixes of six to twelve digits. -/
theorem exists_place (key : Gs1Key) {digits : Nat} (hleast : 6 ≤ digits) (hmost : digits ≤ 12) :
    ∃ place ∈ key.form.tagForm.places, place.1.companyDigits = digits := by
  obtain ⟨place, hplace, hdigits, -⟩ := key.exists_partition hleast hmost
  exact ⟨place, hplace, hdigits⟩

theorem elementString_inj (key : Gs1Key) {body serial : Text} {a b : Char} :
    key.elementString body [a] serial = key.elementString body [b] serial ↔ a = b := by
  cases key <;> simp [elementString, Text.join]

end Gs1Key

/-- An element string that is converted to a tag, a tag URI or a pure identity URI and
    back has the computed check digit in place of its own, whether the engine is strict
    or not. -/
theorem convert_key_back {settings : Engine.Settings} {engine : Engine}
    (hengine : (Engine.builtin settings).outcome = .ok engine) (key : Gs1Key)
    {digits filter : Nat} (hleast : 6 ≤ digits) (hmost : digits ≤ 12) (hfilter : filter ≤ 7)
    {params : Params} (hlength : params.Says Engine.tagLengthName 96)
    (hfilterSaid : params.Says filterName filter)
    (hdigits : params.Says Builtin.companyPrefixLengthKey digits) {body serial : Text}
    {check : Char} (hbody : Numeral.Digits 10 body) (hlen : body.length = key.bodyLength)
    (hcheck : Numeral.Digits 10 [check]) (hserial : key.IsSerial serial) {middle : LevelType}
    (hmiddle : middle ∈ [LevelType.binary, .tagEncoding, .pureIdentity]) :
    ∃ digit value, CheckDigit.compute body = .ok [digit] ∧
      (engine.convert (key.elementString body [check] serial) params middle.name).outcome =
        .ok value ∧
      (engine.convert value params LevelType.legacy.name).outcome =
        .ok (key.elementString body [digit] serial) ∧
      (key.elementString body [digit] serial = key.elementString body [check] serial ↔
        check = digit) := by
  have hlawful := Builtin.lawful_gs1 key.form (List.mem_cons_of_mem _ key.form_mem)
  obtain ⟨place, hplace, rfl⟩ := key.exists_place hleast hmost
  obtain ⟨digit, hdigit, -⟩ := CheckDigit.exists_compute hbody
  obtain ⟨side, hside, rfl⟩ : ∃ side ∈ [key.form.binarySide, key.form.tagSide,
      key.form.identitySide], side.type = middle := by
    simp only [List.mem_cons, List.not_mem_nil, or_false] at hmiddle
    rcases hmiddle with rfl | rfl | rfl
    · exact ⟨key.form.binarySide, by simp, rfl⟩
    · exact ⟨key.form.tagSide, by simp, rfl⟩
    · exact ⟨key.form.identitySide, by simp, rfl⟩
  rw [← key.tagLength_form] at hlength
  rw [← key.bodyLength_form] at hlen
  obtain ⟨value, hvalue, hback⟩ := hlawful.convert_legacy_back hengine key.scheme_mem hplace
    hfilter hlength hfilterSaid hdigits hbody hlen hcheck rfl (Gs1Key.admit_serials hserial) hdigit
    hside
  rw [key.legacyText_form] at hvalue hback
  refine ⟨digit, value, hdigit, hvalue, hback, ?_⟩
  rw [key.elementString_inj]
  exact eq_comm

/-- A GTIN with a wrong check digit. -/
theorem convert_key_back_gtin :
    ∃ engine, (Engine.builtin { strict := true }).outcome = .ok engine ∧
      ∃ digit value, CheckDigit.compute "0037000302410" = .ok [digit] ∧
        (engine.convert (Gs1Key.gtin.elementString "0037000302410" ['1'] "10419703")
          [("taglength", .text "96"), ("filter", .integer 3), ("companyprefixlength", .integer 7)]
          LevelType.binary.name).outcome = .ok value ∧
        (engine.convert value
          [("taglength", .text "96"), ("filter", .integer 3), ("companyprefixlength", .integer 7)]
          LevelType.legacy.name).outcome =
            .ok (Gs1Key.gtin.elementString "0037000302410" [digit] "10419703") ∧
        (Gs1Key.gtin.elementString "0037000302410" [digit] "10419703" =
          Gs1Key.gtin.elementString "0037000302410" ['1'] "10419703" ↔ '1' = digit) :=
  ⟨_, Engine.builtin_outcome _, convert_key_back (Engine.builtin_outcome _) .gtin
    (by decide : 6 ≤ 7) (by decide) (by decide : 3 ≤ 7) (.inr rfl) (.inl rfl) (.inl rfl) (by decide)
    rfl (by decide) ⟨by decide, by decide, .inr (by decide), by decide⟩ (by decide)⟩

/-! ## By way of an element string -/

section
variable {form : Gs1Form} (h : form.Lawful) {settings : Engine.Settings} {engine : Engine}
  (hengine : (Engine.builtin settings).outcome = .ok engine)
  (hscheme : form.tagForm.scheme ∈ Builtin.schemes) {place : Gs1Form.Place}
  (hplace : place ∈ form.tagForm.places) {params : Params}
  (hlength : params.Says Engine.tagLengthName form.tagLength) {body digit : Text}
  (hbody : Numeral.Digits 10 body) (hlen : body.length = form.rule.bodyLength)
  {serials : List Text} (hserials : Part.Admit form.serialParts serials)
include h hengine hscheme hplace hlength hbody hlen hserials

/-- An element string is converted to the pure identity URI of the key, whatever its check
    digit is. -/
theorem Gs1Form.Lawful.convert_legacyText
    (hdigits : params.Says Builtin.companyPrefixLengthKey place.1.companyDigits)
    (hdigit : Numeral.Digits 10 digit) (hone : digit.length = 1) :
    (engine.convert (form.legacyText body digit serials) params
        LevelType.pureIdentity.name).outcome =
      .ok (form.tagForm.identity.text place (form.rule.company place.1.companyDigits body ::
        form.rule.reference place.1.companyDigits body :: serials)) := by
  have hschemes := Engine.schemes_of_builtin hengine
  have hadmits := h.admit_identity hplace hbody hlen hserials
  obtain ⟨context, hread, hholds, -⟩ := h.exists_read_legacy (hschemes ▸ Builtin.distinct_schemes)
    (hschemes ▸ hscheme) hplace hlength.integer?_get hdigits.field?_toContext hbody hlen hdigit
    hone hserials
  rw [Engine.convert_of_read hread]
  exact h.tagForm.write_identity hplace hholds hadmits.decode

/-- The pure identity URI of a key is converted to its element string with the check digit of
    the key. -/
theorem Gs1Form.Lawful.convert_identityText (hdigit : CheckDigit.compute body = .ok digit) :
    (engine.convert (form.tagForm.identity.text place
        (form.rule.company place.1.companyDigits body ::
          form.rule.reference place.1.companyDigits body :: serials)) params
        LevelType.legacy.name).outcome = .ok (form.legacyText body digit serials) := by
  have hschemes := Engine.schemes_of_builtin hengine
  have hside : form.tagForm.identity ∈ form.tagForm.sides := by simp [TagForm.sides]
  have hadmits := h.admit_identity hplace hbody hlen hserials
  have hfits := Part.fits_texts (fun part hpart =>
    h.suits place hplace part (List.mem_of_mem_drop hpart)) hadmits
  have hread : engine.read _ none _ params = _ := h.tagForm.read_identity hplace hadmits hfits
    (h.tagForm.resolve_tagLength (hschemes ▸ Builtin.distinct_schemes) (hschemes ▸ hscheme) hside
      (by decide : LevelType.pureIdentity ≠ _) hplace _ hlength.integer?_get)
  have hholds := h.tagForm.holds_context hplace (List.drop_sublist _ _) hadmits.decode params
  have hjoin := form.rule.join_company_reference place.1.companyDigits hlen
  have hwrite : engine.write _ _ = _ := h.write_legacy hplace hholds
    (form.rule.digits_company _ hbody) (form.rule.digits_reference _ hbody) hserials.decode
    (hjoin.symm ▸ hdigit)
  rw [hjoin] at hwrite
  rw [Engine.convert_of_read hread]
  exact hwrite

end

/-- A pure identity URI is converted to an element string with the check digit of the key,
    and this back to the URI. -/
theorem Gs1Form.Lawful.convert_identityText_back {form : Gs1Form} (h : form.Lawful)
    {settings : Engine.Settings} {engine : Engine}
    (hengine : (Engine.builtin settings).outcome = .ok engine)
    (hscheme : form.tagForm.scheme ∈ Builtin.schemes) {place : Place}
    (hplace : place ∈ form.tagForm.places) {params back : Params}
    (hlength : params.Says Engine.tagLengthName form.tagLength)
    (hlengthBack : back.Says Engine.tagLengthName form.tagLength)
    (hdigits : back.Says Builtin.companyPrefixLengthKey place.1.companyDigits)
    {company reference digit : Text} {serials : List Text}
    (hcompany : Numeral.Digits 10 company) (hcompanyLen : company.length = place.1.companyDigits)
    (hreference : Numeral.Digits 10 reference)
    (hreferenceLen : reference.length = place.1.referenceDigits)
    (hserials : Part.Admit form.serialParts serials)
    (hdigit : CheckDigit.compute (form.rule.join company reference) = .ok digit) :
    (engine.convert (form.tagForm.identity.text place (company :: reference :: serials)) params
        LevelType.legacy.name).outcome =
      .ok (form.legacyText (form.rule.join company reference) digit serials) ∧
    (engine.convert (form.legacyText (form.rule.join company reference) digit serials) back
        LevelType.pureIdentity.name).outcome =
      .ok (form.tagForm.identity.text place (company :: reference :: serials)) := by
  obtain ⟨hsum, hahead, -, -⟩ := h.digits place.1 (List.fst_mem_of_mem_zipIdx hplace)
  rw [← hreferenceLen] at hahead
  have hbody := form.rule.digits_join hcompany hreference
  have hlen : (form.rule.join company reference).length = form.rule.bodyLength := by
    rw [form.rule.length_join hahead, hcompanyLen, hreferenceLen, hsum]
  obtain ⟨hdivide, hrest⟩ :
      form.rule.company company.length (form.rule.join company reference) = company ∧
        form.rule.reference company.length (form.rule.join company reference) = reference :=
    form.rule.company_reference_join hahead
  rw [hcompanyLen] at hdivide hrest
  obtain ⟨hdecimal, hone⟩ := CheckDigit.digits_of_compute hbody hdigit
  have hto := h.convert_identityText hengine hscheme hplace hlength hbody hlen hserials hdigit
  have hfrom := h.convert_legacyText hengine hscheme hplace hlengthBack hbody hlen hserials hdigits
    hdecimal hone
  rw [hdivide, hrest] at hto hfrom
  exact ⟨hto, hfrom⟩

namespace Gs1Key

/-- The pure identity URI of a key and its serial number. -/
def identityUri (key : Gs1Key) (company reference serial : Text) : Text :=
  match key with
  | .gtin => Text.join ["urn:epc:id:sgtin:", company, ".", reference, ".", serial]
  | .sscc => Text.join ["urn:epc:id:sscc:", company, ".", reference]
  | .gln => Text.join ["urn:epc:id:sgln:", company, ".", reference, ".", serial]
  | .grai => Text.join ["urn:epc:id:grai:", company, ".", reference, ".", serial]

/-- The digits of a key before the check digit: the first digit of the reference of a GTIN
    or an SSCC stands before the company prefix. -/
def body (key : Gs1Key) (company reference : Text) : Text :=
  match key with
  | .gtin | .sscc => reference.take 1 ++ company ++ reference.drop 1
  | .gln | .grai => company ++ reference

theorem body_eq_join (key : Gs1Key) (company reference : Text) :
    key.body company reference = key.form.rule.join company reference := by
  cases key <;> rfl

theorem identityText_form (key : Gs1Key) (place : Gs1Form.Place) {company reference serial : Text}
    (hcompany : Numeral.Digits 10 company) (hreference : Numeral.Digits 10 reference)
    (hserial : Numeral.Digits 10 serial) :
    key.form.tagForm.identity.text place (company :: reference :: key.serials serial) =
      key.identityUri company reference serial := by
  have hstart : ∀ form ∈ Gs1Form.numeric, UriEscape.Plain (form.identityStart ++ [':']) := by
    decide
  change UriEscape.escape ((key.form.identityStart ++ [':']) ++
    (Template.dotted ((key.form.parts place).drop 1)).text _) = _
  rw [Template.text_dotted (by cases key <;> rfl), UriEscape.escape_append,
    UriEscape.escape_of_plain (hstart _ key.form_mem)]
  cases key <;>
    · simp only [serials, serialBits?, Text.joinWith, UriEscape.escape_append,
        UriEscape.escape_of_digits hcompany, UriEscape.escape_of_digits hreference,
        UriEscape.escape_of_digits hserial, Text.join, List.flatten_cons, List.flatten_nil,
        List.append_nil, List.append_assoc, identityUri]
      rfl

theorem digits_serial {key : Gs1Key} {serial : Text} (h : key.IsSerial serial) :
    Numeral.Digits 10 serial := by
  cases key with
  | sscc =>
    obtain rfl : serial = [] := h
    decide
  | _ => exact h.2.1

end Gs1Key

/-- A pure identity URI is converted to an element string, whose last digit of the key is
    the check digit of the others, and the element string is converted back to the URI,
    whether the engine is strict or not. -/
theorem convert_identity_back {settings : Engine.Settings} {engine : Engine}
    (hengine : (Engine.builtin settings).outcome = .ok engine) (key : Gs1Key)
    {company reference serial : Text} (hcompany : Numeral.Digits 10 company)
    (hleast : 6 ≤ company.length) (hmost : company.length ≤ 12)
    (hreference : Numeral.Digits 10 reference)
    (hreferenceLen : reference.length = key.referenceDigits company.length)
    (hserial : key.IsSerial serial) {params back : Params}
    (hlength : params.Says Engine.tagLengthName 96)
    (hlengthBack : back.Says Engine.tagLengthName 96)
    (hdigits : back.Says Builtin.companyPrefixLengthKey company.length) :
    ∃ digit, (key.body company reference).length = key.bodyLength ∧
      CheckDigit.compute (key.body company reference) = .ok [digit] ∧
      (engine.convert (key.identityUri company reference serial) params
        LevelType.legacy.name).outcome =
          .ok (key.elementString (key.body company reference) [digit] serial) ∧
      (engine.convert (key.elementString (key.body company reference) [digit] serial) back
        LevelType.pureIdentity.name).outcome =
          .ok (key.identityUri company reference serial) := by
  have hlawful := Builtin.lawful_gs1 key.form (List.mem_cons_of_mem _ key.form_mem)
  obtain ⟨place, hplace, hcompanyLen, hplaceLen⟩ := key.exists_partition hleast hmost
  obtain ⟨digit, hdigit, -⟩ :=
    CheckDigit.exists_compute (key.form.rule.digits_join hcompany hreference)
  rw [← key.tagLength_form] at hlength hlengthBack
  rw [← hcompanyLen] at hdigits
  rw [← hplaceLen] at hreferenceLen
  obtain ⟨hforth, hback⟩ := hlawful.convert_identityText_back hengine key.scheme_mem hplace
    hlength hlengthBack hdigits hcompany hcompanyLen.symm hreference hreferenceLen
    (Gs1Key.admit_serials hserial) hdigit
  rw [key.legacyText_form, key.identityText_form place hcompany hreference
    (Gs1Key.digits_serial hserial)] at hforth hback
  obtain ⟨hsum, hahead, -, -⟩ := hlawful.digits place.1 (List.fst_mem_of_mem_zipIdx hplace)
  rw [key.body_eq_join]
  refine ⟨digit, ?_, hdigit, hforth, hback⟩
  rw [key.form.rule.length_join (hreferenceLen ▸ hahead), ← hcompanyLen, hreferenceLen, hsum,
    key.bodyLength_form]

/-- A GLN whose company prefix leaves no digit for the reference. -/
theorem convert_identity_back_gln :
    ∃ engine, (Engine.builtin { strict := true }).outcome = .ok engine ∧
      ∃ digit, (Gs1Key.gln.body "061414112345" []).length = 12 ∧
        CheckDigit.compute (Gs1Key.gln.body "061414112345" []) = .ok [digit] ∧
        (engine.convert (Gs1Key.gln.identityUri "061414112345" [] "400")
          [("taglength", .text "96")] LevelType.legacy.name).outcome =
            .ok (Gs1Key.gln.elementString (Gs1Key.gln.body "061414112345" []) [digit] "400") ∧
        (engine.convert (Gs1Key.gln.elementString (Gs1Key.gln.body "061414112345" []) [digit] "400")
          [("taglength", .integer 96), ("companyprefixlength", .text "12")]
          LevelType.pureIdentity.name).outcome =
            .ok (Gs1Key.gln.identityUri "061414112345" [] "400") :=
  ⟨_, Engine.builtin_outcome _, convert_identity_back (Engine.builtin_outcome _) .gln
    (by decide) (by decide) (by decide) (by decide) rfl
    ⟨by decide, by decide, .inr (by decide), by decide⟩ (.inr rfl) (.inl rfl) (.inr rfl)⟩

end EpcTag
