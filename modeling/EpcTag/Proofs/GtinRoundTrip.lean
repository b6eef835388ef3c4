-- SUMMARY: A GTIN with a serial number by way of its pure identity URI: for which serial numbers it comes back.
import EpcTag.Engine.Gs1Keys
import EpcTag.Proofs.Dotted
import EpcTag.Proofs.KeyRoundTrip

/-!
# GTINs by way of a URI

A GTIN with a serial number is converted to a pure identity URI without a tag
length, which follows from the serial number. On the way back it is guessed again
from what stands behind the last point of the URI, and the element string is cut
at every semicolon. So a serial number comes back exactly if it has no semicolon
and the text behind its last point asks for the same tag length as the whole.
-/

namespace EpcTag

/-! ## Elements -/

namespace Engine

/-- An element from a part without semicolons has none. -/
theorem not_mem_of_addElement {elements result : Pairs Text Text} {part : Text}
    (hpart : ';' ∉ part) (helements : ∀ pair ∈ elements, ';' ∉ pair.2)
    (h : addElement elements part = .ok result) : ∀ pair ∈ result, ';' ∉ pair.2 := by
  rw [addElement] at h
  split at h
  · next label value hsplit =>
    cases h
    rw [Text.splitFirst_eq_some hsplit] at hpart
    intro pair hpair
    rcases Pairs.mem_insert hpair with hold | hnew
    · exact helements pair hold
    · rw [hnew]
      exact fun hmem => hpart (by simp [hmem])
  · cases h

/-- No element of an element string has a semicolon. -/
theorem not_mem_of_legacyElement {legacy label value : Text} {elements : Pairs Text Text}
    (h : legacyElements legacy = .ok elements) (hvalue : legacyElement elements label = .ok value) :
    ';' ∉ value := by
  -- what is stored has no semicolons, and a part adds none
  have hfold (parts : List Text) (hparts : ∀ part ∈ parts, ';' ∉ part)
      (stored : Pairs Text Text) (hstored : ∀ pair ∈ stored, ';' ∉ pair.2)
      (hresult : parts.foldlM addElement stored = .ok elements) :
      ∀ pair ∈ elements, ';' ∉ pair.2 := by
    induction parts generalizing stored with
    | nil =>
      cases hresult
      exact hstored
    | cons part parts ih =>
      rw [List.foldlM_cons] at hresult
      obtain ⟨next, hnext, hrest⟩ := bind_eq_ok_iff.mp hresult
      exact ih (fun other hother => hparts other (by simp [hother])) next
        (not_mem_of_addElement (hparts part (by simp)) hstored hnext) hrest
  rw [legacyElement] at hvalue
  split at hvalue
  · next found hfound =>
    cases hvalue
    exact hfold _ (fun part => Text.not_mem_of_mem_splitAll) [] (by simp) h _
      (Pairs.mem_of_get? hfound)
  · cases hvalue

/-- The elements of an element string without further semicolons. -/
theorem legacyElements_gtin {gtin serial : Text} (hgtin : ';' ∉ gtin) (hserial : ';' ∉ serial) :
    legacyElements (Text.join ["gtin=", gtin, ";serial=", serial]) =
      .ok [("gtin", gtin), ("serial", serial)] := by
  have hjoin : Text.join ["gtin=", gtin, ";serial=", serial] =
      ("gtin".toList ++ '=' :: gtin) ++ ';' :: ("serial".toList ++ '=' :: serial) := by
    simp [Text.join]
  have hfirst : ';' ∉ "gtin".toList ++ '=' :: gtin := by simp [hgtin]
  have hsecond : ';' ∉ "serial".toList ++ '=' :: serial := by simp [hserial]
  have hadd : addElement [] ("gtin".toList ++ '=' :: gtin) = .ok [("gtin".toList, gtin)] := by
    rw [addElement, Text.splitFirst_append (by simp)]
    rfl
  have hadd' : addElement [("gtin".toList, gtin)] ("serial".toList ++ '=' :: serial) =
      .ok [("gtin".toList, gtin), ("serial".toList, serial)] := by
    rw [addElement, Text.splitFirst_append (by simp)]
    rfl
  rw [legacyElements, hjoin, Text.splitAll_append hfirst, Text.splitAll_of_not_mem hsecond,
    List.foldlM_cons, hadd]
  change List.foldlM addElement _ _ = _
  rw [List.foldlM_cons, hadd']
  rfl

end Engine

/-! ## Schemes of serialised GTINs -/

namespace Gs1Form

/-- The schemes of serialised GTINs for tags with a numeric and with an alphanumeric
    serial number. -/
def gtinForms : List Gs1Form := [sgtin96, sgtin198]

variable {form : Gs1Form} {place : Place} {body check digit company reference serial : Text}

theorem gtin_cases (h : form ∈ gtinForms) : form = sgtin96 ∨ form = sgtin198 := by
  simpa only [gtinForms, List.mem_cons, List.not_mem_nil, or_false] using h

theorem lawful_gtin (h : form ∈ gtinForms) : form.Lawful := by
  rcases gtin_cases h with rfl | rfl
  · exact Builtin.lawful_gs1 .sgtin96 (by simp [numeric])
  · exact Builtin.lawful_gs1 .sgtin198 (by simp)

theorem scheme_mem_gtin (h : form ∈ gtinForms) : form.tagForm.scheme ∈ Builtin.schemes := by
  rcases gtin_cases h with rfl | rfl <;> simp [Builtin.schemes]

theorem rule_gtin (h : form ∈ gtinForms) : form.rule = gtinKey := by
  rcases gtin_cases h with rfl | rfl <;> rfl

/-- Both schemes have the same places. -/
theorem places_gtin (h : form ∈ gtinForms) :
    form.tagForm.places = Builtin.sgtinPartitions.zipIdx := by
  rcases gtin_cases h with rfl | rfl <;> rfl

theorem length_serialParts_gtin (h : form ∈ gtinForms) : form.serialParts.length = 1 := by
  rcases gtin_cases h with rfl | rfl <;> rfl

theorem legacyText_gtin (h : form ∈ gtinForms) (body check serial : Text) :
    form.legacyText body check [serial] =
      Text.join ["gtin=", body ++ check, ";serial=", serial] := by
  rcases gtin_cases h with rfl | rfl
  · rw [legacyText_some (rfl : sgtin96.serial = some (.numeric 38))]
    simp only [Text.join, List.flatten_cons, List.append_assoc]
    rfl
  · rw [legacyText_some (rfl : sgtin198.serial = some (.alphanumeric 140))]
    simp only [Text.join, List.flatten_cons, List.append_assoc]
    rfl

theorem identityStart_gtin (h : form ∈ gtinForms) :
    form.identityStart = sgtin96.identityStart := by
  rcases gtin_cases h with rfl | rfl <;> rfl

/-- The pure identity URIs of both schemes look alike. -/
theorem identityText_gtin (h : form ∈ gtinForms) (place : Place)
    (company reference serial : Text) :
    form.identitySide.text place [company, reference, serial] =
      UriEscape.escape ("urn:epc:id:sgtin:".toList ++
        Text.joinWith ['.'] [company, reference, serial]) := by
  have htext : (form.identitySide.template place).text [company, reference, serial] =
      (form.identityStart ++ [':']) ++ Text.joinWith ['.'] [company, reference, serial] := by
    have hlen : ((form.parts place).drop 1).length = 3 :=
      congrArg (· + 2) (length_serialParts_gtin h)
    change (form.identityStart ++ [':']) ++
      (Template.dotted ((form.parts place).drop 1)).text [company, reference, serial] = _
    rw [Template.text_dotted hlen]
  change UriEscape.escape ((form.identitySide.template place).text _) = _
  rw [htext]
  rcases gtin_cases h with rfl | rfl <;> rfl

/-- A serial number asks for the tag length of the scheme that admits it. -/
theorem exists_gtinForm (h : PackedForm.serial.Admits serial) :
    ∃ form ∈ gtinForms, Engine.serialTagLength serial = Text.ofNat form.tagLength ∧
      Part.Admit form.serialParts [serial] := by
  rw [Engine.serialTagLength]
  split
  · next hnumeric =>
    obtain ⟨hdecimal, hzero, hlt⟩ := hnumeric
    obtain ⟨hne, hdigits⟩ := (Numeral.isDecimal_iff serial).mp hdecimal
    exact ⟨sgtin96, by simp [gtinForms], rfl, .cons ⟨_, Nat.le_sub_one_of_lt hlt,
      (Numeral.toDigits_value (by decide) le_rfl hne hdigits hzero).symm⟩ .nil⟩
  · exact ⟨sgtin198, by simp [gtinForms], rfl, .cons h .nil⟩

end Gs1Form

/-- A serial number on a tag of 96 bits has no points. -/
theorem Engine.not_mem_of_serialTagLength {serial : Text}
    (h : serialTagLength serial = Text.ofNat 96) : '.' ∉ serial := by
  rw [serialTagLength] at h
  split at h
  · next hnumeric =>
    intro hmem
    exact absurd (((Numeral.isDecimal_iff serial).mp hnumeric.1).2 '.' hmem) (by decide)
  · exact absurd h (by decide)

/-! ## Conversions -/

section
variable {settings : Engine.Settings} {engine : Engine} {form : Gs1Form} {place : Gs1Form.Place}
  {body digit serial : Text}

/-- The URI of a GTIN with a serial number. -/
def gtinUri (place : Gs1Form.Place) (body serial : Text) : Text :=
  UriEscape.escape ("urn:epc:id:sgtin:".toList ++
    Text.joinWith ['.'] [Gs1Form.gtinKey.company place.1.companyDigits body,
      Gs1Form.gtinKey.reference place.1.companyDigits body, serial])

/-- The conversion of an element string with the tag length that its serial number asks
    for. -/
theorem convert_gtin (hengine : (Engine.builtin settings).outcome = .ok engine)
    (hform : form ∈ Gs1Form.gtinForms) (hplace : place ∈ form.tagForm.places)
    (hbody : Numeral.Digits 10 body) (hlen : body.length = 13)
    (hdigit : Numeral.Digits 10 digit) (hone : digit.length = 1)
    (hserial : Part.Admit form.serialParts [serial]) :
    (engine.convert (Text.join ["gtin=", body ++ digit, ";serial=", serial])
        (Engine.keyParams (Text.ofNat form.tagLength) (Text.ofNat place.1.companyDigits))
        LevelType.pureIdentity.name).outcome = .ok (gtinUri place body serial) := by
  have hkey := Gs1Form.rule_gtin hform
  have hlen : body.length = form.rule.bodyLength := by rw [hkey]; exact hlen
  have huri := (Gs1Form.lawful_gtin hform).convert_legacyText hengine
    (Gs1Form.scheme_mem_gtin hform) hplace
    (Params.says_tagLength_keyParams form.tagLength (Text.ofNat place.1.companyDigits)) hbody hlen hserial
    (Params.says_companyPrefixLength_keyParams (Text.ofNat form.tagLength) place.1.companyDigits) hdigit
    hone
  rw [Gs1Form.legacyText_gtin hform] at huri
  refine huri.trans ?_
  change Except.ok (form.identitySide.text place _) = _
  rw [Gs1Form.identityText_gtin hform, hkey, gtinUri]

/-- The conversion of the URI with the tag length that the serial number asked for. -/
theorem convert_gtinUri (hengine : (Engine.builtin settings).outcome = .ok engine)
    (hform : form ∈ Gs1Form.gtinForms) (hplace : place ∈ form.tagForm.places)
    (hbody : Numeral.Digits 10 body) (hlen : body.length = 13)
    (hdigit : CheckDigit.compute body = .ok digit)
    (hserial : Part.Admit form.serialParts [serial]) :
    (engine.convert (gtinUri place body serial)
        [(Engine.tagLengthName, .text (Text.ofNat form.tagLength))]
        LevelType.legacy.name).outcome =
      .ok (Text.join ["gtin=", body ++ digit, ";serial=", serial]) := by
  have hkey := Gs1Form.rule_gtin hform
  have hlen : body.length = form.rule.bodyLength := by rw [hkey]; exact hlen
  have hlegacy := (Gs1Form.lawful_gtin hform).convert_identityText hengine
    (Gs1Form.scheme_mem_gtin hform) hplace (Params.says_tagLength form.tagLength) hbody hlen hserial hdigit
  have huri : form.tagForm.identity.text place
      [form.rule.company place.1.companyDigits body,
        form.rule.reference place.1.companyDigits body, serial] = gtinUri place body serial := by
    refine (Gs1Form.identityText_gtin hform place _ _ serial).trans ?_
    rw [hkey, gtinUri]
  rwa [huri, Gs1Form.legacyText_gtin hform] at hlegacy

/-- No template of tags with numeric serial numbers reads a URI whose serial number has
    points. -/
theorem unread_gtinUri {other : Gs1Form.Place} (hform : form ∈ Gs1Form.gtinForms)
    (hplace : place ∈ form.tagForm.places) (hother : other ∈ Gs1Form.sgtin96.tagForm.places)
    (hbody : Numeral.Digits 10 body) (hdot : '.' ∈ serial) :
    (Gs1Form.sgtin96.identitySide.template other).read?
      (Engine.plainValue (gtinUri place body serial)) = none := by
  refine Option.eq_none_iff_forall_ne_some.mpr fun values hread => ?_
  have hlawful := Gs1Form.lawful_gtin hform
  have hlawful' : Gs1Form.sgtin96.Lawful := Builtin.lawful_gs1 _ (by simp [Gs1Form.numeric])
  have hkey := Gs1Form.rule_gtin hform
  obtain ⟨company, hcompany⟩ :
    ∃ text, text = Gs1Form.gtinKey.company place.1.companyDigits body := ⟨_, rfl⟩
  obtain ⟨reference, hreference⟩ :
    ∃ text, text = Gs1Form.gtinKey.reference place.1.companyDigits body := ⟨_, rfl⟩
  have hplain : Engine.plainValue (gtinUri place body serial) =
      (form.identitySide.template place).text [company, reference, serial] := by
    obtain ⟨-, -, -, hplain⟩ := LevelForm.opens_cases (hlawful.tagForm.opens form.identitySide
      (by simp [TagForm.sides, Gs1Form.tagForm]) (by decide : LevelType.pureIdentity ≠ _) place
      hplace) [company, reference, serial]
    rw [← hplain, Gs1Form.identityText_gtin hform, gtinUri, hcompany, hreference]
  rw [hplain] at hread
  change Template.read? (.literal (Gs1Form.sgtin96.identityStart ++ [':']) ::
    Template.dotted ((Gs1Form.sgtin96.parts other).drop 1)) (Template.text
      (.literal (form.identityStart ++ [':']) :: Template.dotted ((form.parts place).drop 1)) _) =
        some values at hread
  rw [Gs1Form.identityStart_gtin hform] at hread
  have hsep := (hlawful'.tagForm.follows Gs1Form.sgtin96.identitySide
    (by simp [TagForm.sides, Gs1Form.tagForm]) other hother).separated
  have hlen : ((form.parts place).drop 1).length = 3 :=
    congrArg (· + 2) (Gs1Form.length_serialParts_gtin hform)
  have hdotless : ∀ text ∈ [company, reference, serial].dropLast, '.' ∉ text := by
    have hdigits {text : Text} (h : Numeral.Digits 10 text) : '.' ∉ text :=
      fun hmem => absurd (h '.' hmem) (by decide)
    simp only [List.dropLast, List.mem_cons, List.not_mem_nil, or_false]
    rintro text (rfl | rfl)
    · rw [hcompany]
      exact hdigits (Gs1Form.gtinKey.digits_company _ hbody)
    · rw [hreference]
      exact hdigits (Gs1Form.gtinKey.digits_reference _ hbody)
  have hslots : ∀ part ∈ ((Gs1Form.sgtin96.parts other).drop 1).dropLast,
      part.slot.dotless = true := by
    intro part hpart
    change part ∈ [Gs1Form.companyPart other, Gs1Form.sgtin96.referencePart other] at hpart
    simp only [List.mem_cons, List.not_mem_nil, or_false] at hpart
    rcases hpart with rfl | rfl <;> rfl
  obtain ⟨hfits, front, last, ending, hending, htexts, hvalues⟩ :=
    Template.exists_of_read?_dotted (by simp) hlen rfl hsep hdotless hslots hread
  -- the last value is a number, and but for a line end it is the serial number
  obtain ⟨_, _, -, hfits₁, rfl⟩ := List.forall₂_cons_left_iff.mp hfits
  obtain ⟨_, _, -, hfits₂, rfl⟩ := List.forall₂_cons_left_iff.mp hfits₁
  obtain ⟨value, _, hvalue, hnil, rfl⟩ := List.forall₂_cons_left_iff.mp hfits₂
  cases hnil
  obtain rfl : value = last := by simpa using congrArg List.getLast? hvalues
  obtain rfl : serial = value ++ ending := by simpa using congrArg List.getLast? htexts
  rcases List.mem_append.mp hdot with hmem | hmem
  · exact absurd (List.all_eq_true.mp hvalue.2 _ hmem) (by decide)
  · rcases hending with rfl | rfl
    · cases hmem
    · exact absurd hmem (by decide)

/-- What stands behind the last point of a URI stands behind that of its serial number, or
    is the serial number. -/
theorem afterLast_gtinUri (place : Gs1Form.Place) (body serial : Text) :
    UriEscape.unescape (Text.afterLast '.' (gtinUri place body serial)) =
      Text.afterLast '.' serial := by
  rw [gtinUri, UriEscape.unescape_afterLast]
  have hsplit (company reference : Text) :
      "urn:epc:id:sgtin:".toList ++ Text.joinWith ['.'] [company, reference, serial] =
        ("urn:epc:id:sgtin:".toList ++ company ++ '.' :: reference) ++ '.' :: serial := by
    simp [Text.joinWith]
  rw [hsplit, Text.afterLast_append]

/-- The conversion of a URI whose serial number has points, with the tag length of a numeric
    one. -/
theorem convert_gtinUri_of_mem (hengine : (Engine.builtin settings).outcome = .ok engine)
    (hform : form ∈ Gs1Form.gtinForms) (hplace : place ∈ form.tagForm.places)
    (hbody : Numeral.Digits 10 body) (hdot : '.' ∈ serial) (output : Text) :
    (engine.convert (gtinUri place body serial) [(Engine.tagLengthName, .text (Text.ofNat 96))]
        output).outcome =
      .error (.noMatch (.noOption "SGTIN-96" .pureIdentity
        (Engine.plainValue (gtinUri place body serial)))) := by
  have hlawful : Gs1Form.sgtin96.Lawful := Builtin.lawful_gs1 _ (by simp [Gs1Form.numeric])
  have hschemes := Engine.schemes_of_builtin hengine
  have hplace' : place ∈ Gs1Form.sgtin96.tagForm.places := by
    rwa [Gs1Form.places_gtin hform] at hplace
  have hside : Gs1Form.sgtin96.identitySide ∈ Gs1Form.sgtin96.tagForm.sides := by
    simp [TagForm.sides, Gs1Form.tagForm]
  have hlength : (Scalar.text (Text.ofNat 96)).integer? = some (96 : Int) :=
    Numeral.readInteger?_ofNat 96
  have hresolve := hlawful.tagForm.resolve_tagLength (hschemes ▸ Builtin.distinct_schemes)
    (hschemes ▸ Gs1Form.scheme_mem_gtin (by simp [Gs1Form.gtinForms])) hside
    (by decide : LevelType.pureIdentity ≠ _) hplace'
    [Gs1Form.gtinKey.company place.1.companyDigits body,
      Gs1Form.gtinKey.reference place.1.companyDigits body, serial] hlength
  rw [Gs1Form.identityText_gtin (by simp [Gs1Form.gtinForms]), ← gtinUri] at hresolve
  -- the tag length says that the scheme is the numeric one, whose URIs have no further points
  have hread : engine.read (gtinUri place body serial) none (.text (Text.ofNat 96))
      [(Engine.tagLengthName, .text (Text.ofNat 96))] = _ :=
    (hlawful.tagForm.separates (by simp [Gs1Form.tagForm])).read_of_unread
      (fun other hother => unread_gtinUri hform hplace hother hbody hdot) hresolve
  refine Engine.convert_of_unread ?_ output
  exact hread

/-- A GTIN with a serial number is converted to its URI. -/
theorem gtinSerialToPureIdentity_outcome
    (hengine : (Engine.builtin settings).outcome = .ok engine)
    (hform : form ∈ Gs1Form.gtinForms) (hplace : place ∈ form.tagForm.places)
    (hbody : Numeral.Digits 10 body) (hlen : body.length = 13)
    (hdigit : Numeral.Digits 10 digit) (hone : digit.length = 1)
    (hserial : Part.Admit form.serialParts [serial])
    (hlength : Engine.serialTagLength serial = Text.ofNat form.tagLength) :
    (engine.gtinSerialToPureIdentity (body ++ digit) serial
      (.integer place.1.companyDigits)).outcome = .ok (gtinUri place body serial) := by
  have hgtin : (body ++ digit).length = 14 := by rw [List.length_append, hlen, hone]
  have hne : body ++ digit ≠ [] := List.ne_nil_of_length_eq_add_one hgtin
  rw [Engine.gtinSerialToPureIdentity, Text.zeroFill_of_le hne hgtin.ge, hlength]
  exact convert_gtin hengine hform hplace hbody hlen hdigit hone hserial

/-- The way back is a conversion with the tag length of what stands behind the last point,
    and a look at the elements. -/
theorem pureIdentityToGtinSerial_outcome (place : Gs1Form.Place) (body serial : Text) :
    (engine.pureIdentityToGtinSerial (gtinUri place body serial)).outcome =
      ((engine.convert (gtinUri place body serial) [(Engine.tagLengthName,
        .text (Engine.serialTagLength (Text.afterLast '.' serial)))]
          LevelType.legacy.name).outcome).bind (fun legacy => do
        let elements ← Engine.legacyElements legacy
        let gtin ← Engine.legacyElement elements "gtin"
        let serial ← Engine.legacyElement elements "serial"
        pure (gtin, serial)) := by
  rw [Engine.pureIdentityToGtinSerial, afterLast_gtinUri]
  simp only [Traced.bind_outcome, Traced.ofExcept_outcome, Traced.pure_outcome]
  rfl

end

/-- The tag length is guessed rightly if what stands behind the last point of a serial
    number asks for the same one as the whole. -/
def Engine.TailTells (serial : Text) : Prop :=
  serialTagLength (Text.afterLast '.' serial) = serialTagLength serial

instance (serial : Text) : Decidable (Engine.TailTells serial) :=
  inferInstanceAs (Decidable (_ = _))

/-- A serial number of which the tag length is not guessed rightly has a point, and the
    length of a tag with a numeric serial number is guessed. -/
theorem Engine.eq_of_not_tailTells {serial : Text} (h : ¬ TailTells serial) :
    '.' ∈ serial ∧ serialTagLength (Text.afterLast '.' serial) = Text.ofNat 96 := by
  have hdot : '.' ∈ serial := by
    by_contra hdot
    exact h (congrArg serialTagLength (Text.afterLast_of_not_mem hdot))
  refine ⟨hdot, ?_⟩
  -- there are two lengths, and a serial number with points asks for the other one
  have hlengths (text : Text) : serialTagLength text = Text.ofNat 96 ∨
      serialTagLength text = Text.ofNat 198 := by
    rw [serialTagLength]
    split
    · exact .inl rfl
    · exact .inr rfl
  have hlong := (hlengths serial).resolve_left fun h => not_mem_of_serialTagLength h hdot
  exact (hlengths _).resolve_right fun htail => h (htail.trans hlong.symm)

/-- A GTIN and a serial number that are converted to a URI come back exactly if the serial
    number has no semicolons and the tag length is guessed rightly. -/
theorem gtin_serial_back {settings : Engine.Settings} {engine : Engine}
    (hengine : (Engine.builtin settings).outcome = .ok engine) {digits : Nat}
    (hleast : 6 ≤ digits) (hmost : digits ≤ 12) {body digit serial : Text}
    (hbody : Numeral.Digits 10 body) (hlen : body.length = 13)
    (hdigit : CheckDigit.compute body = .ok digit) (hserial : PackedForm.serial.Admits serial) :
    ∃ uri, (engine.gtinSerialToPureIdentity (body ++ digit) serial (.integer digits)).outcome =
        .ok uri ∧
      ((engine.pureIdentityToGtinSerial uri).outcome = .ok (body ++ digit, serial) ↔
        ';' ∉ serial ∧ Engine.TailTells serial) := by
  obtain ⟨form, hform, hlength, hserials⟩ := Gs1Form.exists_gtinForm hserial
  obtain ⟨place, hplace, rfl⟩ := Gs1Key.gtin.exists_place hleast hmost
  replace hplace : place ∈ form.tagForm.places := by
    rw [Gs1Form.places_gtin hform]
    exact hplace
  have hcomputed : Numeral.Digits 10 digit ∧ digit.length = 1 := by
    obtain ⟨computed, hcomputed, hdecimal⟩ := CheckDigit.exists_compute hbody
    cases hcomputed.symm.trans hdigit
    exact ⟨hdecimal, rfl⟩
  have hgtin : Numeral.Digits 10 (body ++ digit) :=
    Numeral.digits_append.mpr ⟨hbody, hcomputed.1⟩
  refine ⟨_, gtinSerialToPureIdentity_outcome hengine hform hplace hbody hlen hcomputed.1
    hcomputed.2 hserials hlength, ?_⟩
  rw [pureIdentityToGtinSerial_outcome]
  by_cases htells : Engine.TailTells serial
  · rw [htells, hlength, convert_gtinUri hengine hform hplace hbody hlen hdigit hserials]
    change (Engine.legacyElements _ >>= _) = _ ↔ _
    constructor
    · -- an element never has a semicolon
      intro hback
      obtain ⟨elements, helements, hback⟩ := bind_eq_ok_iff.mp hback
      obtain ⟨gtin, -, hback⟩ := bind_eq_ok_iff.mp hback
      obtain ⟨value, hvalue, hback⟩ := bind_eq_ok_iff.mp hback
      cases hback
      exact ⟨Engine.not_mem_of_legacyElement helements hvalue, htells⟩
    · rintro ⟨hsemicolon, -⟩
      have hsemicolon' : ';' ∉ body ++ digit := fun hmem =>
        absurd (hgtin ';' hmem) (by decide)
      rw [Engine.legacyElements_gtin hsemicolon' hsemicolon]
      rfl
  · obtain ⟨hdot, hguess⟩ := Engine.eq_of_not_tailTells htells
    rw [hguess, convert_gtinUri_of_mem hengine hform hplace hbody hdot]
    exact iff_of_false (fun hback => by cases hback) (fun hback => htells hback.2)

/-- The text behind the last point of a serial number is a number, but the whole is not. -/
theorem gtin_serial_back_point :
    ∃ engine, (Engine.builtin { strict := true }).outcome = .ok engine ∧
      ∃ uri, (engine.gtinSerialToPureIdentity ("0003700030241" ++ "4") "A.1"
          (.integer 7)).outcome = .ok uri ∧
        ((engine.pureIdentityToGtinSerial uri).outcome = .ok ("0003700030241" ++ "4", "A.1") ↔
          ';' ∉ "A.1".toList ∧ Engine.TailTells "A.1") :=
  ⟨_, Engine.builtin_outcome _, gtin_serial_back (Engine.builtin_outcome _)
    (by decide : 6 ≤ 7) (by decide) (by decide) rfl (by decide) (by decide)⟩

/-- The URI of that serial number is refused on the way back. -/
theorem not_gtin_serial_back :
    ∃ engine, (Engine.builtin { strict := true }).outcome = .ok engine ∧
      ∃ uri, (engine.gtinSerialToPureIdentity ("0003700030241" ++ "4") "A.1"
          (.integer 7)).outcome = .ok uri ∧
        (engine.pureIdentityToGtinSerial uri).outcome = .error (.noMatch (.noOption "SGTIN-96"
          .pureIdentity "urn:epc:id:sgtin:0037000.030241.A.1")) := by
  obtain ⟨place, hplace, hseven⟩ := Gs1Key.gtin.exists_place (by decide : 6 ≤ 7) (by decide)
  have hform : Gs1Form.sgtin198 ∈ Gs1Form.gtinForms := by simp [Gs1Form.gtinForms]
  replace hplace : place ∈ Gs1Form.sgtin198.tagForm.places := hplace
  have hengine := Engine.builtin_outcome { strict := true }
  have hbody : Numeral.Digits 10 "0003700030241" := by decide
  refine ⟨_, hengine, gtinUri place "0003700030241" "A.1", ?_, ?_⟩
  · have huri := gtinSerialToPureIdentity_outcome hengine hform hplace hbody rfl
      (by decide : Numeral.Digits 10 "4") rfl (.cons (by decide : PackedForm.serial.Admits "A.1") .nil)
      (by decide)
    rwa [hseven] at huri
  · rw [pureIdentityToGtinSerial_outcome,
      (by decide : Engine.serialTagLength (Text.afterLast '.' "A.1") = Text.ofNat 96),
      convert_gtinUri_of_mem hengine hform hplace hbody (by decide)]
    have huri : gtinUri place "0003700030241" "A.1" =
        UriEscape.escape "urn:epc:id:sgtin:0037000.030241.A.1" := by
      rw [gtinUri, hseven]
      decide
    rw [huri, Engine.plainValue_escape (by decide)]
    rfl

end EpcTag
