-- SUMMARY: Numbers that the tag URI fills up with zeros: digits come back from the bits, and bits from the digits.
import EpcTag.Proofs.SafeRuns

/-!
# Zero-padded fields

A number has two layers of zeros on the left: those that fill up its bits, and those that
fill up its digits in the tag URI. Reading takes off the zeros of one layer and writing
puts them back, so a number is all that passes between the layers, and either of them is
found again from its number and its width. How many digits the bits could need does not
matter: where they need more than the tag URI asks for, no zeros are put in front.
-/

namespace EpcTag

namespace Validator

variable {validator : Validator} {minimum maximum : Scalar}

/-- A lenient validator passes every text, whatever limits can be read. -/
theorem exists_checkRange_of_lenient (hlenient : validator.strict = false)
    (hmin : readableLimit minimum = true) (hmax : readableLimit maximum = true)
    (field text : Text) :
    ∃ passed, (validator.checkRange field (.text text) minimum maximum).outcome = .ok passed := by
  have hreport (violation : Violation) :
      (validator.report violation >>= fun _ => pure false).outcome = .ok false := by
    rw [Traced.bind_outcome, report_outcome, hlenient]
    rfl
  obtain ⟨below, hbelow⟩ := exists_isBelow hmin (Numeral.value 10 text : Int)
  obtain ⟨above, habove⟩ := exists_isAbove hmax (Numeral.value 10 text : Int)
  simp only [checkRange, Scalar.contentOrVoid_text, Traced.bind_outcome, Traced.liftM_outcome,
    Except.bind]
  split
  · simp only [Traced.bind_outcome, Traced.liftM_outcome, hbelow, Except.bind]
    split
    · exact ⟨false, hreport _⟩
    · simp only [Traced.bind_outcome, Traced.liftM_outcome, habove, Except.bind]
      split
      · exact ⟨false, hreport _⟩
      · exact ⟨true, rfl⟩
  · exact ⟨true, rfl⟩

end Validator

namespace Field

variable {validator : Validator} {field tag : Field} {width digits : Nat} {bits text : Text}

/-- A field of the tag URI that is filled up with zeros on the left to a number of digits. -/
structure ZeroPadded (tag : Field) (digits : Nat) : Prop where
  padChar : tag.padChar = .text "0"
  padEdge : tag.padEdge = some .left
  length : tag.length = some (digits : Int)

/-! ## One layer at a time -/

section
variable (hbare : field.padChar = .null) (htag : tag.ZeroPadded digits)
include hbare htag

/-- A number is filled up to the digits of the tag URI. -/
theorem padDecoded_zeroPadded (n : Nat) :
    field.padDecoded (some tag) (.text (Nat.toDigits 10 n)) =
      .ok (.text (Numeral.padded 10 digits n)) := by
  rw [padDecoded, if_neg (not_not_intro hbare)]
  simp only [htag.padChar, htag.padEdge, htag.length]
  change Except.ok (Scalar.text (Padding.pad _ (some .left) (some ['0']) _)) = _
  rw [Padding.pad_toDigits]

/-- The zeros of the tag URI are taken off, which leaves digits of the same value. -/
theorem exists_padEncoded_zeroPadded (hdigits : Numeral.Digits 10 text) :
    ∃ kept, field.padEncoded (some tag) (.text text) = .ok (.text kept) ∧
      Numeral.Digits 10 kept ∧ Numeral.value 10 kept = Numeral.value 10 text := by
  have hfilter : (some tag).filter (·.padChar ≠ .null) = some tag := by
    simp [htag.padChar]
  have hzero : Numeral.Digits 10 ['0'] := by decide
  refine ⟨Padding.strip text (some .left) (some ['0']), ?_, Padding.digits_strip hdigits _ hzero,
    Padding.value_strip_zeros text⟩
  rw [padEncoded, hfilter]
  simp only [hbare, htag.padChar, htag.padEdge]
  rfl

end

section
variable (hlenient : validator.strict = false) (hnumber : field.compaction = none)
  (hbare : field.padChar = .null) (htag : tag.ZeroPadded digits)
  (hmin : Validator.readableLimit tag.minimum = true)
  (hmax : Validator.readableLimit tag.maximum = true)
include hlenient hnumber hbare htag hmin hmax

/-- Bits are decoded to their number, in the digits of the tag URI. -/
theorem decode_zeroPadded (hedge : field.bitPadEdge ≠ some .right) (hpos : 0 < digits)
    (hbits : Numeral.Digits 2 bits) :
    (field.decode validator (some tag) bits).outcome =
      .ok (Numeral.padded 10 digits (Numeral.value 2 bits)) := by
  obtain ⟨passed, hpassed⟩ := Validator.exists_checkRange_of_lenient hlenient hmin hmax field.name
    (Nat.toDigits 10 (Numeral.value 2 bits))
  have hlength : tag.length ≠ some 0 := by
    rw [htag.length]
    simpa using hpos.ne'
  simp only [decode, hnumber, readBits_left hnumber hedge hbits,
    padDecoded_zeroPadded hbare htag, Traced.bind_outcome, Traced.liftM_outcome, Except.bind,
    hpassed, Scalar.operand_text, Option.isSome_none, Bool.false_eq_true, if_false,
    Traced.pure_outcome, if_neg hlength]

/-- Digits are encoded to their number, in the bits of the field. -/
theorem encode_zeroPadded (hedge : field.bitPadEdge ≠ some .right)
    (hlength : field.bitLength = some (width : Int)) (hwidth : 0 < width)
    (hdigits : Numeral.Digits 10 text) (hlt : Numeral.value 10 text < 2 ^ width) :
    (field.encode validator (some tag) (.text text)).outcome =
      .ok (Numeral.padded 2 width (Numeral.value 10 text)) := by
  obtain ⟨kept, hkept, hkeptDigits, hvalue⟩ := exists_padEncoded_zeroPadded hbare htag hdigits
  obtain ⟨passed, hpassed⟩ :=
    Validator.exists_checkRange_of_lenient hlenient hmin hmax field.name kept
  have hfit : field.fitBits (Nat.toDigits 2 (Numeral.value 10 text)) =
      .ok (Numeral.padded 2 width (Numeral.value 10 text)) := by
    rw [fitBits_of_le hlength ((Nat.length_toDigits_le_iff (by decide) hwidth).mpr hlt),
      getD_bitPadEdge hedge]
    rfl
  simp only [encode, hnumber, hkept, Traced.bind_outcome, Traced.liftM_outcome, Except.bind,
    hpassed, decimalBits_digits field hkeptDigits, hvalue, hfit]

/-! ## Both directions -/

end

end Field

end EpcTag
