-- SUMMARY: An SSCC by way of its pure identity URI, with a given or an inferred length of the company prefix.
import EpcTag.Proofs.KeyRoundTrip
import EpcTag.Proofs.KnownPrefixes

/-!
# SSCCs by way of a URI

An SSCC is converted to a pure identity URI that divides its digits behind the company
prefix, whose length is given or inferred from the known company prefixes. The URI is
converted back to the same SSCC, wherever the digits were divided.
-/

namespace EpcTag

namespace Engine

/-- The number of digits that the company prefix is taken to have: the given one, or, if
    none is given, that of the longest known company prefix that starts the digits. -/
inductive Takes (engine : Engine) (digits : Text) : Scalar → Nat → Prop
  | given {length : Scalar} {count : Nat} (hlength : length.integer? = some (count : Int)) :
      Takes engine digits length count
  | inferred {additions : List CompanyPrefixTable.Addition} {companyPrefix : Text}
      (htable : engine.companyPrefixes = .afterAdditions additions)
      (hlongest : CompanyPrefixTable.Longest
        (additions.filterMap CompanyPrefixTable.Addition.added?) digits companyPrefix) :
      Takes engine digits .null companyPrefix.length

variable {engine : Engine}

theorem Takes.companyPrefixLength_outcome {digits : Text} {length : Scalar} {count : Nat}
    (h : engine.Takes digits length count) :
    (engine.companyPrefixLength digits length).outcome = .ok (Text.ofNat count) := by
  cases h with
  | given hlength =>
    have hne : length ≠ .null := by
      rintro rfl
      cases hlength
    rw [companyPrefixLength, if_neg hne]
    simp only [Traced.bind_outcome, Traced.ofExcept_outcome,
      Scalar.toInteger_of_integer? hlength]
    rfl
  | inferred htable hlongest =>
    rw [companyPrefixLength, if_pos rfl, htable,
      CompanyPrefixTable.prefixLength?_afterAdditions hlongest]
    rfl

/-- An element string of a single element. -/
theorem legacyElements_single {label value : Text} (hlabel : '=' ∉ label)
    (hsingle : ';' ∉ label ++ '=' :: value) :
    legacyElements (label ++ '=' :: value) = .ok [(label, value)] := by
  rw [legacyElements, Text.splitAll_of_not_mem hsingle, List.foldlM_cons, addElement,
    Text.splitFirst_append hlabel]
  rfl

end Engine

/-- The pure identity URI of an SSCC whose company prefix has so many digits. The first
    digit of the SSCC starts the reference, which ends before the check digit. -/
def ssccUri (digits : Nat) (sscc : Text) : Text :=
  Gs1Key.sscc.identityUri ((sscc.drop 1).take digits)
    (sscc.take 1 ++ (sscc.take 17).drop (1 + digits)) []

/-- The URI of an SSCC has its company prefix and its reference. -/
theorem identityText_sscc {place : Gs1Form.Place} (hmost : place.1.companyDigits ≤ 12)
    {sscc : Text} (hdigits : Numeral.Digits 10 sscc) :
    Gs1Key.sscc.form.tagForm.identity.text place
        (Gs1Key.sscc.form.rule.company place.1.companyDigits (sscc.take 17) ::
          Gs1Key.sscc.form.rule.reference place.1.companyDigits (sscc.take 17) ::
            Gs1Key.sscc.serials []) = ssccUri place.1.companyDigits sscc := by
  have hbody : Numeral.Digits 10 (sscc.take 17) := hdigits.take 17
  have hcompany : Gs1Key.sscc.form.rule.company place.1.companyDigits (sscc.take 17) =
      (sscc.drop 1).take place.1.companyDigits := by
    change ((sscc.take 17).drop 1).take _ = _
    rw [List.drop_take, List.take_take, Nat.min_eq_left (by omega)]
  have hreference : Gs1Key.sscc.form.rule.reference place.1.companyDigits (sscc.take 17) =
      sscc.take 1 ++ (sscc.take 17).drop (1 + place.1.companyDigits) := by
    change (sscc.take 17).take 1 ++ ((sscc.take 17).drop 1).drop _ = _
    rw [List.take_take, List.drop_drop]
    rfl
  rw [Gs1Key.sscc.identityText_form place (Gs1Key.sscc.form.rule.digits_company _ hbody)
    (Gs1Key.sscc.form.rule.digits_reference _ hbody) (Numeral.digits_nil 10), hcompany,
    hreference, ssccUri]

/-- An SSCC of all digits is converted to its URI and back. -/
theorem convert_sscc {settings : Engine.Settings} {engine : Engine}
    (hengine : (Engine.builtin settings).outcome = .ok engine) {digits : Nat}
    (hleast : 6 ≤ digits) (hmost : digits ≤ 12) {sscc : Text}
    (hdigits : Numeral.Digits 10 sscc) (hlen : sscc.length = 18)
    (hcheck : CheckDigit.compute (sscc.take 17) = .ok (sscc.drop 17)) :
    (engine.convert ("sscc".toList ++ '=' :: sscc)
        (Engine.keyParams (Text.ofNat 96) (Text.ofNat digits))
        LevelType.pureIdentity.name).outcome = .ok (ssccUri digits sscc) ∧
      (engine.convert (ssccUri digits sscc) [(Engine.tagLengthName, .text (Text.ofNat 96))]
        LevelType.legacy.name).outcome = .ok ("sscc".toList ++ '=' :: sscc) := by
  have hlawful := Builtin.lawful_gs1 Gs1Key.sscc.form (List.mem_cons_of_mem _ Gs1Key.sscc.form_mem)
  have hscheme := Gs1Key.sscc.scheme_mem
  obtain ⟨place, hplace, rfl⟩ := Gs1Key.sscc.exists_place hleast hmost
  have hbody : Numeral.Digits 10 (sscc.take 17) := hdigits.take 17
  have hbodyLen : (sscc.take 17).length = Gs1Key.sscc.form.rule.bodyLength := by
    rw [List.length_take, hlen]
    rfl
  obtain ⟨hdecimal, hone⟩ := CheckDigit.digits_of_compute hbody hcheck
  have hserials : Part.Admit Gs1Key.sscc.form.serialParts (Gs1Key.sscc.serials []) :=
    Gs1Key.admit_serials rfl
  have helement : Gs1Key.sscc.form.legacyText (sscc.take 17) (sscc.drop 17)
      (Gs1Key.sscc.serials []) = "sscc".toList ++ '=' :: sscc := by
    rw [Gs1Key.legacyText_form, Gs1Key.elementString]
    simp [Text.join]
  have hto := hlawful.convert_legacyText hengine hscheme hplace
    (Params.says_tagLength_keyParams 96 (Text.ofNat place.1.companyDigits)) hbody hbodyLen hserials
    (Params.says_companyPrefixLength_keyParams (Text.ofNat 96) place.1.companyDigits) hdecimal hone
  have hfrom := hlawful.convert_identityText hengine hscheme hplace (Params.says_tagLength 96) hbody
    hbodyLen hserials hcheck
  rw [helement, identityText_sscc hmost hdigits] at hto hfrom
  exact ⟨hto, hfrom⟩

/-- An SSCC with the right check digit, to which leading zeros may be missing, is converted
    to its pure identity URI and comes back with all its digits, whether the engine is strict
    or not and whatever number of digits the company prefix is given or taken to have. -/
theorem sscc_back {settings : Engine.Settings} {engine : Engine}
    (hengine : (Engine.builtin settings).outcome = .ok engine) {sscc : Text}
    (hdigits : Numeral.Digits 10 sscc) (hlen : sscc.length ≤ 18)
    (hcheck : CheckDigit.compute ((Text.zeroFill 18 sscc).take 17) =
      .ok ((Text.zeroFill 18 sscc).drop 17)) {length : Scalar} {digits : Nat}
    (hlength : engine.Takes (((Text.zeroFill 18 sscc).drop 1).take 16) length digits)
    (hleast : 6 ≤ digits) (hmost : digits ≤ 12) :
    (engine.ssccToPureIdentity sscc length).outcome =
        .ok (ssccUri digits (Text.zeroFill 18 sscc)) ∧
      (engine.pureIdentityToSscc (ssccUri digits (Text.zeroFill 18 sscc))).outcome =
        .ok (Text.zeroFill 18 sscc) := by
  have hfilled : Numeral.Digits 10 (Text.zeroFill 18 sscc) :=
    Numeral.digits_zeroFill (by decide) hdigits 18
  have hfull : (Text.zeroFill 18 sscc).length = 18 := Numeral.length_zeroFill hdigits hlen
  obtain ⟨hto, hfrom⟩ := convert_sscc hengine hleast hmost hfilled hfull hcheck
  constructor
  · have hslice : Text.slice (Text.zeroFill 18 sscc) 1 17 =
        ((Text.zeroFill 18 sscc).drop 1).take 16 := Text.slice_natCast _ 1 16
    have htakes := hlength.companyPrefixLength_outcome
    rw [← hslice] at htakes
    rw [Engine.ssccToPureIdentity, Traced.bind_outcome, htakes]
    have hjoin : Text.join ["sscc=", Text.zeroFill 18 sscc] =
        "sscc".toList ++ '=' :: Text.zeroFill 18 sscc := by
      simp [Text.join]
    rw [hjoin]
    exact hto
  · have hsemicolon : ';' ∉ "sscc".toList ++ '=' :: Text.zeroFill 18 sscc := by
      intro hmem
      rcases List.mem_append.mp hmem with hmem | hmem
      · exact absurd hmem (by decide)
      · rcases List.mem_cons.mp hmem with hmem | hmem
        · exact absurd hmem (by decide)
        · exact absurd (hfilled ';' hmem) (by decide)
    rw [Engine.pureIdentityToSscc, Traced.bind_outcome_eq_ok_iff]
    refine ⟨_, hfrom, ?_⟩
    rw [Traced.bind_outcome_eq_ok_iff]
    exact ⟨_, Engine.legacyElements_single (by decide) hsemicolon, rfl⟩

/-- The longest known company prefix that starts the digits is neither the first nor the last
    one that was added, and what would be a longer one was not added. -/
theorem sscc_back_inferred :
    ∃ engine, (Engine.builtin ⟨.afterAdditions [.known "0037001",
          .indexed (.text "158") "0037000", .indexed (.text "x") "00370003", .known "00370"],
          [], true⟩).outcome = .ok engine ∧
      (engine.ssccToPureIdentity "370003024147856" .null).outcome =
          .ok (ssccUri 7 (Text.zeroFill 18 "370003024147856")) ∧
        (engine.pureIdentityToSscc (ssccUri 7 (Text.zeroFill 18 "370003024147856"))).outcome =
          .ok (Text.zeroFill 18 "370003024147856") :=
  ⟨_, Engine.builtin_outcome _, sscc_back (Engine.builtin_outcome _) (by decide) (by decide) rfl
    (.inferred (Engine.companyPrefixes_of_builtin (Engine.builtin_outcome _))
      (⟨by decide, by decide, by decide⟩ : CompanyPrefixTable.Longest _ _ "0037000"))
    (by decide) (by decide)⟩

end EpcTag
