-- SUMMARY: Tag URIs with serial numbers of any characters, which come back from the bits of a tag.
import EpcTag.Proofs.BinaryOutput
import EpcTag.Proofs.Dotted
import EpcTag.Proofs.KeyRoundTrip
import EpcTag.Proofs.TagConversion

/-!
# Serial numbers by way of bits

A tag of 198 bits holds up to twenty characters of a serial number, and the points
among them do not mark off a field, since the serial number is the last one. It
stands in the tag URI with its reserved characters escaped and in the tag packed
and filled up, and it comes back from there as it was.
-/

namespace EpcTag

/-- The tag URI of a trade item with a serial number. -/
def serialUri (filter : Nat) (company reference serial : Text) : Text :=
  Text.join ["urn:epc:tag:sgtin-198:", Text.ofNat filter, ".", company, ".", reference, ".",
    UriEscape.escape serial]

namespace Gs1Form

variable {place : Place} {filter : Nat} {company reference serial : Text}

/-- Only the serial number of a tag URI needs escapes. -/
theorem tagSide_text {form : Gs1Form} {place : Place} (hlen : (form.parts place).length = 4)
    (hstart : UriEscape.Plain (form.tagStart ++ [':'])) (filter : Nat)
    (hcompany : Numeral.Digits 10 company) (hreference : Numeral.Digits 10 reference)
    (serial : Text) :
    form.tagSide.text place [Text.ofNat filter, company, reference, serial] =
      Text.join [form.tagStart, ":", Text.ofNat filter, ".", company, ".", reference, ".",
        UriEscape.escape serial] := by
  have hfilter : Numeral.Digits 10 (Text.ofNat filter) :=
    Numeral.digits_toDigits (by decide) (by decide) filter
  change UriEscape.escape ((form.tagStart ++ [':']) ++ (Template.dotted (form.parts place)).text
    [Text.ofNat filter, company, reference, serial]) = _
  rw [Template.text_dotted hlen]
  rw [UriEscape.escape_append, UriEscape.escape_of_plain hstart]
  simp only [Text.joinWith, UriEscape.escape_append, UriEscape.escape_of_digits hfilter,
    UriEscape.escape_of_digits hcompany, UriEscape.escape_of_digits hreference]
  simp only [Text.join, List.flatten_cons, List.flatten_nil, List.append_nil, List.append_assoc]
  rfl

/-- All fields of a tag with a serial number of any characters are admitted. -/
theorem admit_sgtin198 (hplace : place ∈ sgtin198.tagForm.places) (hfilter : filter ≤ 7)
    (hcompany : Numeral.Digits 10 company) (hcompanyLen : company.length = place.1.companyDigits)
    (hreference : Numeral.Digits 10 reference)
    (hreferenceLen : reference.length = 13 - place.1.companyDigits)
    (hserial : PackedForm.serial.Admits serial) :
    Part.Admit (sgtin198.parts place) [Text.ofNat filter, company, reference, serial] := by
  have hlawful : sgtin198.Lawful := Builtin.lawful_gs1 _ (by simp)
  obtain ⟨hsum, -⟩ := hlawful.digits place.1 (List.fst_mem_of_mem_zipIdx hplace)
  have hlen : reference.length = place.1.referenceDigits := by
    change _ + _ = 13 at hsum
    omega
  exact .cons ⟨filter, hfilter, rfl⟩ (hlawful.admit_key hplace hcompany hcompanyLen hreference hlen
    (.cons hserial .nil))

end Gs1Form

/-- A tag URI with a serial number of any allowed characters is converted to a tag of 198
    bits, and the tag is converted back to the same URI, whether the engine is strict or
    not. -/
theorem convert_serial_back {settings : Engine.Settings} {engine : Engine}
    (hengine : (Engine.builtin settings).outcome = .ok engine) {params back : Params}
    (hparams : LevelIndex.IsHint (params.get Engine.tagLengthName))
    (hback : LevelIndex.IsHint (back.get Engine.tagLengthName)) {filter digits : Nat}
    (hfilter : filter ≤ 7) (hleast : 6 ≤ digits) (hmost : digits ≤ 12)
    {company reference serial : Text} (hcompany : Numeral.Digits 10 company)
    (hcompanyLen : company.length = digits) (hreference : Numeral.Digits 10 reference)
    (hreferenceLen : reference.length = 13 - digits)
    (hserial : PackedForm.serial.Admits serial) :
    ∃ bits, (engine.convert (serialUri filter company reference serial) params
        LevelType.binary.name).outcome = .ok bits ∧
      Numeral.Digits 2 bits ∧ bits.length = 198 ∧
      (engine.convert bits back LevelType.tagEncoding.name).outcome =
        .ok (serialUri filter company reference serial) := by
  have hlawful : Gs1Form.sgtin198.Lawful := Builtin.lawful_gs1 _ (by simp)
  have hscheme : Gs1Form.sgtin198.tagForm.scheme ∈ Builtin.schemes := by simp [Builtin.schemes]
  obtain ⟨place, hplace, rfl⟩ := Gs1Key.gtin.exists_place hleast hmost
  replace hplace : place ∈ Gs1Form.sgtin198.tagForm.places := hplace
  have hadmits := Gs1Form.admit_sgtin198 hplace hfilter hcompany hcompanyLen hreference
    hreferenceLen hserial
  have hfits := Part.fits_texts (hlawful.suits place hplace) hadmits
  have hto := hlawful.tagForm.convert_tag_to_bits hengine hscheme hplace hadmits hfits hparams
  have hfrom := hlawful.tagForm.convert_bits_to_tag hengine hscheme hplace hadmits hback
  have huri : Gs1Form.sgtin198.tagForm.tag.text place _ = serialUri filter company reference serial :=
    Gs1Form.tagSide_text rfl (by decide) filter hcompany hreference serial
  rw [huri] at hto hfrom
  have htag := (Builtin.fills.1 Gs1Form.sgtin198 (by simp)).isTag hplace
    (Part.fits_bits (hlawful.tagForm.widths place hplace) hadmits)
  refine ⟨_, hto, htag.digits, ?_, hfrom⟩
  exact Int.ofNat.inj htag.length

/-- A serial number with points, escapes and a zero in front. -/
theorem convert_serial_back_points :
    ∃ engine, (Engine.builtin { strict := true }).outcome = .ok engine ∧
      ∃ bits, (engine.convert (serialUri 3 "0614141" "712345" "0.32a/b%.") []
          LevelType.binary.name).outcome = .ok bits ∧
        Numeral.Digits 2 bits ∧ bits.length = 198 ∧
        (engine.convert bits [] LevelType.tagEncoding.name).outcome =
          .ok (serialUri 3 "0614141" "712345" "0.32a/b%.") :=
  ⟨_, Engine.builtin_outcome _, convert_serial_back (Engine.builtin_outcome _) (.inl rfl)
    (.inl rfl) (by decide : 3 ≤ 7) (by decide : 6 ≤ 7) (by decide) (by decide) rfl (by decide) rfl
    (by decide)⟩

example : serialUri 3 "0614141" "712345" "0.32a/b%." =
    "urn:epc:tag:sgtin-198:3.0614141.712345.0.32a%2Fb%25.".toList := by decide +kernel

end EpcTag
