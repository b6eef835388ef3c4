-- SUMMARY: Fields in bits and in text: the checks that values pass, and the two directions of the coding of each kind of field.
import EpcTag.FieldCoding
import EpcTag.Builtin.Basic
import EpcTag.Proofs.FieldBits
import EpcTag.Proofs.Matching
import EpcTag.Proofs.TextPadding

/-!
# The coding of fields

The built-in schemes have four kinds of binary field: numbers, which are decimal
text with or without a fixed number of digits, serial numbers packed into seven
bits a character, and codes packed into six or into eight. For each kind, a text
and a bit string that stand for the same value are decoded and encoded into each
other, whatever the validator does with violations, because there are none.
-/

namespace EpcTag

/-! ## Checks -/

namespace Validator

variable (validator : Validator) (field : Text)

/-- A violation is passed over exactly if the validator is not strict. -/
theorem report_outcome (violation : Violation) :
    (validator.report violation).outcome =
      if validator.strict then .error (.violation violation) else .ok () := by
  rw [report]
  split <;> rfl

/-- A value passes a character set if its characters are in the set's class, and any
    value does if the validator is not strict. -/
theorem checkCharacterSet_passes_iff {set : Text} {class_ : CharClass}
    (hset : readSet (starred set) = .ok (Pattern.star class_)) (text : Text) :
    (∃ passed, (validator.checkCharacterSet field (.text text) (.text set)).outcome = .ok passed) ↔
      (validator.strict = true → text.all class_.has = true) := by
  simp only [checkCharacterSet, reduceCtorEq, if_false, Scalar.subject_text, Scalar.operand_text,
    Traced.bind_outcome, Traced.liftM_outcome, Except.bind, hset]
  rw [Pattern.matchesWhole_star]
  split
  · next h => simp [h]
  · next h =>
    simp only [Traced.bind_outcome, report_outcome]
    cases validator.strict <;> simp [Except.bind, h]

/-- A value passes limits from zero up if it is no decimal number or not above the
    upper limit, and any value does if the validator is not strict. -/
theorem checkRange_passes_iff (maximum : Nat) (text : Text) :
    (∃ passed, (validator.checkRange field (.text text) (.text (Text.ofNat 0))
        (.text (Text.ofNat maximum))).outcome = .ok passed) ↔
      (validator.strict = true → Numeral.isDecimal text = true →
        Numeral.value 10 text ≤ maximum) := by
  have hbelow : isBelow (Numeral.value 10 text) (.text (Text.ofNat 0)) = .ok false := by
    simp only [isBelow, Scalar.toInteger, Numeral.readInteger?_ofNat, Except.map]
    exact congrArg Except.ok (decide_eq_false (by omega))
  have habove : isAbove (Numeral.value 10 text) (.text (Text.ofNat maximum)) =
      .ok (decide (maximum < Numeral.value 10 text)) := by
    simp only [isAbove, Scalar.toInteger, Numeral.readInteger?_ofNat, Except.map, Int.ofNat_lt]
  simp only [checkRange, Scalar.contentOrVoid_text, Traced.bind_outcome, Traced.liftM_outcome,
    Except.bind]
  by_cases hdecimal : Numeral.isDecimal text = true
  · simp only [hdecimal, if_true, Traced.bind_outcome, Traced.liftM_outcome, hbelow, habove,
      Except.bind, Bool.false_eq_true, if_false, decide_eq_true_eq]
    by_cases hle : Numeral.value 10 text ≤ maximum
    · rw [if_neg (by omega)]
      simp [hle]
    · rw [if_pos (by omega), Traced.bind_outcome, report_outcome]
      cases validator.strict <;> simp [Except.bind, hle]
  · simp [hdecimal]

end Validator

/-! ## Padding -/

namespace Padding

theorem digits_strip {text : Text} (htext : Numeral.Digits 10 text) (edge : Option Edge)
    {padding : Text} (hpadding : Numeral.Digits 10 padding) :
    Numeral.Digits 10 (strip text edge (some padding)) := by
  match edge with
  | none => exact htext
  | some .left =>
    rw [strip]
    split
    · exact hpadding
    · exact htext.of_mem fun c hc => (List.dropWhile_suffix _).subset hc
  | some .right =>
    rw [strip]
    split
    · exact hpadding
    · refine htext.of_mem fun c hc => ?_
      exact List.mem_reverse.mp ((List.dropWhile_suffix _).subset (List.mem_reverse.mp hc))

/-- Zeros that are taken off the left edge do not count. -/
theorem value_strip_zeros (text : Text) :
    Numeral.value 10 (strip text (some .left) (some ['0'])) = Numeral.value 10 text := by
  have hzeros := congrArg (Numeral.value 10) (inward_eq_replicate_append .left '0' text)
  rw [Edge.inward, Edge.inward, Numeral.value_replicate_zero] at hzeros
  exact hzeros.symm

/-- A written number is filled up with zeros on the left to a numeral of fixed width. -/
theorem pad_toDigits (digits n : Nat) :
    pad (Nat.toDigits 10 n) (some .left) (some ['0']) (some (digits : Int)) =
      Numeral.padded 10 digits n := by
  have hpad := inward_pad .left '0' (Nat.toDigits 10 n) digits
  rwa [Int.toNat_sub] at hpad

end Padding

/-! ## Numbers -/

/-- How a number is written in a text. -/
inductive NumberForm where
  /-- In a single digit. -/
  | digit
  /-- Without leading zeros. -/
  | plain
  /-- With leading zeros up to a fixed number of digits. -/
  | padded (digits : Nat)
  deriving DecidableEq, Repr

namespace NumberForm

/-- A number in its form. -/
def numeral : NumberForm → Nat → Text
  | .digit, n | .plain, n => Nat.toDigits 10 n
  | .padded digits, n => if digits = 0 then [] else Numeral.padded 10 digits n

/-- The greatest number that has the form and fits into `width` bits. -/
def maximum (width : Nat) : NumberForm → Nat
  | .digit | .plain => 2 ^ width - 1
  | .padded digits => min (10 ^ digits - 1) (2 ^ width - 1)

/-- The field of a number in bits. -/
def binaryField (name : Text) (group width : Nat) : Field :=
  { name, group := some group, bitLength := some width, bitPadEdge := some .left }

/-- The field of a number in a text. -/
def textField (name : Text) (group width : Nat) (form : NumberForm) : Field :=
  let field : Field :=
    { name, group := some group, characterSet := .text Builtin.digitSet,
      minimum := .text (Text.ofNat 0), maximum := .text (Text.ofNat (form.maximum width)) }
  match form with
  | .digit => { field with length := some 1 }
  | .plain => field
  | .padded digits =>
    { field with length := some digits, padChar := .text "0", padEdge := some .left }

variable {form : NumberForm} {width n : Nat}

@[simp] theorem binaryField_name (name : Text) (group width : Nat) :
    (binaryField name group width).name = name := rfl

@[simp] theorem binaryField_compaction (name : Text) (group width : Nat) :
    (binaryField name group width).compaction = none := rfl

section
variable (name : Text) (group width : Nat) (form : NumberForm)

@[simp] theorem textField_name : (textField name group width form).name = name := by
  cases form <;> rfl

@[simp] theorem textField_group : (textField name group width form).group = some (group : Int) := by
  cases form <;> rfl

@[simp] theorem textField_characterSet :
    (textField name group width form).characterSet = .text Builtin.digitSet := by
  cases form <;> rfl

@[simp] theorem textField_minimum :
    (textField name group width form).minimum = .text (Text.ofNat 0) := by
  cases form <;> rfl

@[simp] theorem textField_maximum :
    (textField name group width form).maximum = .text (Text.ofNat (form.maximum width)) := by
  cases form <;> rfl

end

theorem lt_of_le_maximum (h : n ≤ form.maximum width) : n < 2 ^ width := by
  have hpos : 0 < 2 ^ width := Nat.two_pow_pos width
  cases form <;> simp only [maximum] at h <;> omega

theorem digits_numeral (form : NumberForm) (n : Nat) : Numeral.Digits 10 (form.numeral n) := by
  cases form with
  | digit => exact Numeral.digits_toDigits (by decide) le_rfl n
  | plain => exact Numeral.digits_toDigits (by decide) le_rfl n
  | padded digits =>
    rw [numeral]
    split
    · exact Numeral.digits_nil 10
    · exact Numeral.digits_padded (by decide) le_rfl _ _

/-- The value of a number in its form is the number. -/
theorem value_numeral (h : n ≤ form.maximum width) : Numeral.value 10 (form.numeral n) = n := by
  cases form with
  | digit => exact Numeral.value_toDigits (by decide) le_rfl
  | plain => exact Numeral.value_toDigits (by decide) le_rfl
  | padded digits =>
    rw [numeral]
    split
    · next hzero =>
      simp only [maximum, hzero, pow_zero, Nat.sub_self, Nat.zero_min, Nat.le_zero] at h
      rw [Numeral.value_nil, h]
    · exact Numeral.value_padded (by decide) le_rfl _ _

/-- The value of a number in its form is not above the number: without digits it is zero. -/
theorem value_numeral_le (form : NumberForm) (n : Nat) :
    Numeral.value 10 (form.numeral n) ≤ n := by
  cases form with
  | digit => exact (Numeral.value_toDigits (by decide) le_rfl).le
  | plain => exact (Numeral.value_toDigits (by decide) le_rfl).le
  | padded digits =>
    rw [numeral]
    split
    · exact Nat.zero_le n
    · exact (Numeral.value_padded (by decide) le_rfl _ _).le

/-- A run of as many digits as a form asks for is a number in this form. -/
theorem numeral_padded_value {digits : Nat} {text : Text} (hdigits : Numeral.Digits 10 text)
    (hlen : text.length = digits) :
    (NumberForm.padded digits).numeral (Numeral.value 10 text) = text := by
  rw [numeral]
  split
  · next hzero => exact (List.length_eq_zero_iff.mp (hlen.trans hzero)).symm
  · exact Numeral.padded_value (by decide) le_rfl (by omega) hdigits hlen

/-- A single digit is a number in the form of a digit. -/
theorem numeral_digit_value {text : Text} (hdigits : Numeral.Digits 10 text)
    (hlen : text.length = 1) : NumberForm.digit.numeral (Numeral.value 10 text) = text := by
  obtain ⟨c, rfl⟩ := List.length_eq_one_iff.mp hlen
  refine Numeral.toDigits_value (by decide) le_rfl (List.cons_ne_nil c []) hdigits ?_
  rw [Numeral.NoLeadingZero, List.head?_cons]
  by_cases hzero : c = '0'
  · exact .inl (by rw [hzero])
  · exact .inr fun hhead => hzero (Option.some.inj hhead)

theorem value_le_maximum_padded {digits : Nat} {text : Text} (hdigits : Numeral.Digits 10 text)
    (hlen : text.length = digits) (hfits : 10 ^ digits ≤ 2 ^ width) :
    Numeral.value 10 text ≤ (NumberForm.padded digits).maximum width := by
  have hlt := Numeral.value_lt hdigits
  rw [hlen] at hlt
  rw [maximum]
  omega

end NumberForm

namespace Field

open NumberForm

variable {validator : Validator} {name tagName : Text} {group tagGroup width : Nat}
  {form : NumberForm}

/-- The bits of a number without padding have the value of all bits. -/
theorem readBits_number {bits : Text} (hdigits : Numeral.Digits 2 bits) :
    (binaryField name group width).readBits ((binaryField name group width).strippedBits bits) =
      .ok (Nat.toDigits 10 (Numeral.value 2 bits)) :=
  readBits_left rfl (fun h => nomatch h) hdigits

/-- A number is filled up or left as it is, as its form says. -/
theorem padDecoded_number (name tagName : Text) (group tagGroup width : Nat) (form : NumberForm)
    (n : Nat) :
    ((binaryField name group width).padDecoded (some (textField tagName tagGroup width form))
        (.text (Nat.toDigits 10 n))).bind Scalar.operand =
      .ok (match form with
        | .padded digits => Numeral.padded 10 digits n
        | _ => Nat.toDigits 10 n) := by
  cases form with
  | digit => rfl
  | plain => rfl
  | padded digits => exact congrArg Except.ok (Padding.pad_toDigits digits n)

/-- A number decodes to its form, unless it is above the limit and the validator is
    strict. -/
theorem decode_number_iff {bits text : Text} (hdigits : Numeral.Digits 2 bits) :
    ((binaryField name group width).decode validator (some (textField tagName tagGroup width form))
        bits).outcome = .ok text ↔
      (validator.strict = true → Numeral.value 2 bits ≤ form.maximum width) ∧
        text = form.numeral (Numeral.value 2 bits) := by
  have hpasses := validator.checkRange_passes_iff name (form.maximum width)
    (Nat.toDigits 10 (Numeral.value 2 bits))
  have hdecimal : Numeral.isDecimal (Nat.toDigits 10 (Numeral.value 2 bits)) = true :=
    (Numeral.isDecimal_iff _).mpr
      ⟨Nat.toDigits_ne_nil, Numeral.digits_toDigits (by decide) le_rfl _⟩
  rw [Numeral.value_toDigits (by decide) le_rfl] at hpasses
  simp only [hdecimal, forall_const] at hpasses
  obtain ⟨value, hvalue, hoperand⟩ := bind_eq_ok_iff.mp
    (padDecoded_number name tagName group tagGroup width form (Numeral.value 2 bits))
  -- only a number that is padded to no digits has length zero, and it is empty anyway
  have hlength : (if (textField tagName tagGroup width form).length = some 0 then []
      else match form with
        | .padded digits => Numeral.padded 10 digits (Numeral.value 2 bits)
        | _ => Nat.toDigits 10 (Numeral.value 2 bits)) = form.numeral (Numeral.value 2 bits) := by
    cases form with
    | digit => rfl
    | plain => rfl
    | padded digits => simp [textField, numeral]
  simp only [decode, binaryField_compaction, binaryField_name, readBits_number hdigits,
    textField_minimum, textField_maximum,
    Traced.bind_outcome_eq_ok_iff, Traced.liftM_outcome, Except.ok.injEq, exists_eq_left',
    Option.isSome_none, Bool.false_eq_true, if_false, hvalue, hoperand, Traced.pure_outcome,
    hlength]
  rw [exists_and_right, hpasses]
  exact and_congr_right fun _ => eq_comm

/-- The digits behind the zeros that a padded number starts with are written without
    padding. -/
theorem padEncoded_number (name tagName : Text) (group tagGroup width : Nat) (form : NumberForm)
    (n : Nat) :
    ∃ text, (binaryField name group width).padEncoded (some (textField tagName tagGroup width form))
        (.text (form.numeral n)) = .ok (.text text) ∧
      Numeral.Digits 10 text ∧ Numeral.value 10 text = Numeral.value 10 (form.numeral n) := by
  have hdigits := form.digits_numeral n
  cases form with
  | digit => exact ⟨_, rfl, hdigits, rfl⟩
  | plain => exact ⟨_, rfl, hdigits, rfl⟩
  | padded digits =>
    have hzero : Numeral.Digits 10 ['0'] := by decide
    exact ⟨Padding.strip ((NumberForm.padded digits).numeral n) (some .left) (some ['0']), rfl,
      Padding.digits_strip hdigits _ hzero, Padding.value_strip_zeros _⟩

/-- Digits are turned into the bits of their value. -/
theorem decimalBits_digits (field : Field) {text : Text} (hdigits : Numeral.Digits 10 text) :
    field.decimalBits (.text text) = .ok (Nat.toDigits 2 (Numeral.value 10 text)) := by
  unfold decimalBits
  simp only [Scalar.contentOrVoid_text, bind, Except.bind, Bits.ofDecimal_of_digits hdigits]

/-- The bits of a number are filled up to the width of the field. -/
theorem fitBits_number {n : Nat} (hwidth : 0 < width) (hlt : n < 2 ^ width) :
    (binaryField name group width).fitBits (Nat.toDigits 2 n) =
      .ok (Numeral.padded 2 width n) :=
  fitBits_of_le rfl ((Nat.length_toDigits_le_iff (by decide) hwidth).mpr hlt)

/-- What is left of a number in its form encodes to bits in the width of the field, if the
    number is not above the limit or the validator is not strict. -/
theorem encode_number {n : Nat} (hwidth : 0 < width)
    (hle : validator.strict = true → n ≤ form.maximum width) (hlt : n < 2 ^ width) :
    ((binaryField name group width).encode validator (some (textField tagName tagGroup width form))
        (.text (form.numeral n))).outcome =
      .ok (Numeral.padded 2 width (Numeral.value 10 (form.numeral n))) := by
  obtain ⟨text, htext, hdigits, hvalue⟩ :=
    padEncoded_number name tagName group tagGroup width form n
  obtain ⟨value, hnumeral⟩ : ∃ value, value = Numeral.value 10 (form.numeral n) := ⟨_, rfl⟩
  rw [← hnumeral] at hvalue ⊢
  have hbelow : value ≤ n := hnumeral ▸ form.value_numeral_le n
  obtain ⟨passed, hpassed⟩ := (validator.checkRange_passes_iff name (form.maximum width) text).mpr
    fun hstrict _ => by
      rw [hvalue]
      exact hbelow.trans (hle hstrict)
  have hbits : (binaryField name group width).decimalBits (.text text) =
      .ok (Nat.toDigits 2 value) := hvalue ▸ decimalBits_digits _ hdigits
  have hfit : (binaryField name group width).fitBits (Nat.toDigits 2 value) =
      .ok (Numeral.padded 2 width value) := fitBits_number hwidth (hbelow.trans_lt hlt)
  simp only [encode, binaryField_compaction, binaryField_name, textField_minimum,
    textField_maximum, Traced.bind_outcome_eq_ok_iff, Traced.liftM_outcome, htext, hbits, hfit,
    hpassed, Except.ok.injEq, exists_eq_left']

/-- A number that is not on the tag URI is decoded as it is. -/
theorem decode_untagged {bits : Text} (hdigits : Numeral.Digits 2 bits) :
    ((binaryField name group width).decode validator none bits).outcome =
      .ok (Text.ofNat (Numeral.value 2 bits)) := by
  simp only [decode, binaryField_compaction, readBits_number hdigits, Traced.bind_outcome,
    Traced.liftM_outcome, Except.bind]
  rfl

/-- A number that is not on the tag URI is encoded as it is. -/
theorem encode_untagged {n : Nat} (hwidth : 0 < width) (hlt : n < 2 ^ width) :
    ((binaryField name group width).encode validator none (.text (Text.ofNat n))).outcome =
      .ok (Numeral.padded 2 width n) := by
  have hpadded : (binaryField name group width).padEncoded none (.text (Text.ofNat n)) =
      .ok (.text (Text.ofNat n)) := rfl
  have hbits := decimalBits_digits (binaryField name group width)
    (Numeral.digits_toDigits (by decide : 1 < 10) le_rfl n)
  rw [Numeral.value_toDigits (by decide) le_rfl] at hbits
  simp only [encode, binaryField_compaction, Traced.bind_outcome, Traced.liftM_outcome, hpadded,
    Except.bind]
  change ((binaryField name group width).decimalBits (.text (Nat.toDigits 10 n))).bind _ = _
  rw [hbits]
  exact fitBits_number hwidth hlt

/-- A strict validator passes digits for a number, if they do not exceed its maximum. -/
theorem checkField_number_iff {text : Text} :
    (∃ passed, (validator.checkField (textField tagName tagGroup width form)
        (.text text)).outcome = .ok passed) ↔
      (validator.strict = true →
        Numeral.Digits 10 text ∧ Numeral.value 10 text ≤ form.maximum width) := by
  have hset : Validator.readSet (Validator.starred Builtin.digitSet) =
      .ok (Pattern.star Pattern.digitClass) := rfl
  have hcharacters := validator.checkCharacterSet_passes_iff tagName hset text
  have hrange := validator.checkRange_passes_iff tagName (form.maximum width) text
  rw [Pattern.all_has_digitClass_iff] at hcharacters
  simp only [Validator.checkField, textField_name, textField_characterSet, textField_minimum,
    textField_maximum, Traced.bind_outcome_eq_ok_iff, Traced.pure_outcome, Except.ok.injEq]
  constructor
  · rintro ⟨passed, conforming, hconforming, within, hwithin, -⟩ hstrict
    have hdigits := hcharacters.mp ⟨conforming, hconforming⟩ hstrict
    refine ⟨hdigits, ?_⟩
    -- a text without digits is no decimal number, but its value is zero
    by_cases hnil : text = []
    · rw [hnil, Numeral.value_nil]
      exact Nat.zero_le _
    · exact hrange.mp ⟨within, hwithin⟩ hstrict ((Numeral.isDecimal_iff text).mpr ⟨hnil, hdigits⟩)
  · intro h
    obtain ⟨conforming, hconforming⟩ := hcharacters.mpr fun hstrict => (h hstrict).1
    obtain ⟨within, hwithin⟩ := hrange.mpr fun hstrict _ => (h hstrict).2
    exact ⟨within && conforming, conforming, hconforming, within, hwithin, rfl⟩

/-- A number in its form passes the checks of its field. -/
theorem checkField_number {n : Nat} (h : n ≤ form.maximum width) :
    ∃ passed, (validator.checkField (textField tagName tagGroup width form)
      (.text (form.numeral n))).outcome = .ok passed :=
  checkField_number_iff.mpr fun _ => ⟨form.digits_numeral n, by rwa [value_numeral h]⟩

end Field

end EpcTag
