-- SUMMARY: The fields of a tag, one after the other: texts that are admitted, decoded from their bits and encoded into them.
import EpcTag.Proofs.OptionCoding
import EpcTag.Proofs.PackedFields
import EpcTag.Proofs.Resolution

/-!
# The fields of a tag

A part of a tag has a name and a coding, which says how its text is written and
packed. The parts of a tag are decoded and encoded one after the other, and what
holds of one field holds of all of them: an admitted text has bits of its own,
it is decoded from them and encoded into them, and it passes the checks.
-/

namespace EpcTag

/-! ## Codings -/

/-- How the text of a field is coded in bits. -/
inductive Coding where
  | number (form : NumberForm) (width : Nat)
  | packed (form : PackedForm)
  deriving DecidableEq, Repr

namespace Coding

/-- The number of bits. -/
def width : Coding → Nat
  | .number _ width => width
  | .packed form => form.width

/-- The field in a binary option. -/
def binaryField (name : Text) (group : Nat) : Coding → Field
  | .number _ width => NumberForm.binaryField name group width
  | .packed form => form.binaryField name group

/-- The field in a text. -/
def textField (name : Text) (group : Nat) : Coding → Field
  | .number form width => form.textField name group width
  | .packed form => form.textField name group

/-- The bits of a text. -/
def bits : Coding → Text → Text
  | .number _ width, text => Numeral.padded 2 width (Numeral.value 10 text)
  | .packed form, text => form.bits text

/-- The texts that are restored from their bits. -/
def Admits : Coding → Text → Prop
  | .number form width, text => ∃ n ≤ form.maximum width, text = form.numeral n
  | .packed form, text => form.Admits text

def isPacked : Coding → Bool
  | .number _ _ => false
  | .packed _ => true

/-- The texts that bits decode to: besides those that are restored, the void text of
    bits without characters. -/
def Decodable (coding : Coding) (text : Text) : Prop :=
  coding.Admits text ∨ (coding.isPacked = true ∧ text = [])

variable {coding : Coding} {validator : Validator} {name : Text} {group tagGroup : Nat}
  {text bits : Text}

@[simp] theorem binaryField_name (name : Text) (group : Nat) (coding : Coding) :
    (coding.binaryField name group).name = name := by
  cases coding <;> simp [binaryField]

@[simp] theorem textField_name (name : Text) (group : Nat) (coding : Coding) :
    (coding.textField name group).name = name := by
  cases coding with
  | number form width => simp [textField]
  | packed form => rfl

theorem Admits.decodable (h : coding.Admits text) : coding.Decodable text := .inl h

/-- Digits of the right number are admitted, if the bits have room for them. -/
theorem admits_padded {digits width : Nat} (hdigits : Numeral.Digits 10 text)
    (hlen : text.length = digits) (hfits : 10 ^ digits ≤ 2 ^ width) :
    (Coding.number (.padded digits) width).Admits text :=
  ⟨_, NumberForm.value_le_maximum_padded hdigits hlen hfits,
    (NumberForm.numeral_padded_value hdigits hlen).symm⟩

/-- A number without leading zeros is admitted, if the bits have room for it. -/
theorem admits_plain {width : Nat} (hne : text ≠ []) (hdigits : Numeral.Digits 10 text)
    (hzero : Numeral.NoLeadingZero text) (hlt : Numeral.value 10 text < 2 ^ width) :
    (Coding.number .plain width).Admits text :=
  ⟨_, Nat.le_sub_one_of_lt hlt, (Numeral.toDigits_value (by decide) le_rfl hne hdigits hzero).symm⟩

theorem decodable_iff_of_not_packed (h : coding.isPacked = false) :
    coding.Decodable text ↔ coding.Admits text := by
  simp [Decodable, h]

/-- The text of a number consists of digits. -/
theorem digits_of_decodable {form : NumberForm} {width : Nat}
    (h : (Coding.number form width).Decodable text) : Numeral.Digits 10 text := by
  obtain ⟨n, -, rfl⟩ := (decodable_iff_of_not_packed rfl).mp h
  exact form.digits_numeral n

theorem digits_bits (coding : Coding) (text : Text) : Numeral.Digits 2 (coding.bits text) := by
  cases coding with
  | number form width => exact Numeral.digits_padded (by decide) (by decide) _ _
  | packed form => exact form.digits_bits text

theorem length_bits (hwidth : 0 < coding.width) (h : coding.Admits text) :
    (coding.bits text).length = coding.width := by
  cases coding with
  | number form width =>
    obtain ⟨n, hn, rfl⟩ := h
    refine Numeral.length_padded (by decide) hwidth ?_
    rw [NumberForm.value_numeral hn]
    exact NumberForm.lt_of_le_maximum hn
  | packed form => exact PackedForm.length_bits h.2.2.1

/-- An admitted text is decoded from its bits. -/
theorem decode_bits (hwidth : 0 < coding.width) (h : coding.Admits text) :
    ((coding.binaryField name group).decode validator (some (coding.textField name tagGroup))
      (coding.bits text)).outcome = .ok text := by
  cases coding with
  | number form width =>
    obtain ⟨n, hn, rfl⟩ := h
    have hbits : Numeral.value 2 ((Coding.number form width).bits (form.numeral n)) = n := by
      rw [Coding.bits, Numeral.value_padded (by decide) (by decide), NumberForm.value_numeral hn]
    refine (Field.decode_number_iff (digits_bits _ _)).mpr ⟨fun _ => ?_, ?_⟩
    · rwa [hbits]
    · rw [hbits]
  | packed form => exact Field.decode_packed h

/-- An admitted text is encoded into its bits. -/
theorem encode_text (hwidth : 0 < coding.width) (h : coding.Admits text) :
    ((coding.binaryField name group).encode validator (some (coding.textField name tagGroup))
      (.text text)).outcome = .ok (coding.bits text) := by
  cases coding with
  | number form width =>
    obtain ⟨n, hn, rfl⟩ := h
    exact Field.encode_number hwidth (fun _ => hn) (NumberForm.lt_of_le_maximum hn)
  | packed form => exact Field.encode_packed (fun _ => h.2.1) h.2.2.1

/-- A text passes the checks of a field. -/
def Passes (validator : Validator) (coding : Coding) (name text : Text) : Prop :=
  ∃ passed, (validator.checkField (coding.textField name 0) (.text text)).outcome = .ok passed

/-- The checks of a field are the same for all groups. -/
theorem checkField_textField (validator : Validator) (coding : Coding) (name : Text)
    (group other : Nat) (value : Scalar) :
    validator.checkField (coding.textField name group) value =
      validator.checkField (coding.textField name other) value := by
  cases coding with
  | number form width => cases form <;> rfl
  | packed form => rfl

/-- A text that is decoded passes the checks of its field. -/
theorem checkField_text (validator : Validator) (name : Text) (group : Nat)
    (h : coding.Decodable text) :
    ∃ passed, (validator.checkField (coding.textField name group) (.text text)).outcome =
      .ok passed := by
  rcases h with h | ⟨hpacked, rfl⟩
  · cases coding with
    | number form width =>
      obtain ⟨n, hn, rfl⟩ := h
      exact Field.checkField_number hn
    | packed form => exact Field.checkField_packed h.2.1
  · cases coding with
    | number form width => cases hpacked
    | packed form => exact Field.checkField_packed (by rfl)

/-- Only a number of no digits has a field of no characters. -/
theorem exists_eq_of_length_textField (h : (coding.textField name group).length = some 0) :
    ∃ width, coding = .number (.padded 0) width := by
  cases coding with
  | number form width =>
    cases form with
    | digit => simp [textField, NumberForm.textField] at h
    | plain => simp [textField, NumberForm.textField] at h
    | padded digits =>
      obtain rfl : digits = 0 := by simpa [textField, NumberForm.textField] using h
      exact ⟨width, rfl⟩
  | packed form => simp [textField, PackedForm.textField] at h

/-- An admitted text is what it reads as in a text. -/
theorem readField_text (h : coding.Admits text) (field : Field) :
    (LevelOption.readField validator false field (some (coding.textField name group))
      text).outcome = .ok text := by
  refine (LevelOption.readField_text_eq_ok_iff ?_).mpr ⟨rfl, ?_⟩
  · rintro _ ⟨⟩ hlength
    obtain ⟨width, rfl⟩ := exists_eq_of_length_textField hlength
    obtain ⟨n, -, rfl⟩ := h
    rfl
  · rintro _ ⟨⟩
    exact checkField_text validator name group h.decodable

/-- What a strict validator lets bits decode to is encoded into the same bits, or it is
    void. -/
theorem of_decode (hstrict : validator.strict = true) (hwidth : 0 < coding.width)
    (hdigits : Numeral.Digits 2 bits) (hlen : bits.length = coding.width)
    (h : ((coding.binaryField name group).decode validator (some (coding.textField name tagGroup))
      bits).outcome = .ok text) :
    coding.Decodable text ∧ (coding.Admits text → coding.bits text = bits) := by
  cases coding with
  | number form width =>
    obtain ⟨hle, rfl⟩ := (Field.decode_number_iff hdigits).mp h
    have hle := hle hstrict
    refine ⟨.inl ⟨_, hle, rfl⟩, fun _ => ?_⟩
    rw [Coding.bits, NumberForm.value_numeral hle]
    exact Numeral.padded_value (by decide) (by decide) hwidth hdigits hlen
  | packed form =>
    rcases Field.of_decode_packed hstrict hdigits hlen h with ⟨hadmits, hbits⟩ | ⟨rfl, -⟩
    · exact ⟨.inl hadmits, fun _ => hbits⟩
    · exact ⟨.inr ⟨rfl, rfl⟩, fun hadmits => absurd rfl hadmits.1⟩

/-! ## Slots -/

/-- The class of the bits. -/
def bitClass : CharClass := ⟨false, [⟨'0', '0'⟩, ⟨'1', '1'⟩]⟩

/-- The slot of the bits of a field. -/
def bitSlot (coding : Coding) : Slot := .exactly bitClass coding.width

/-- Does a slot admit every text that a coding admits? -/
def suits : Coding → Slot → Bool
  | .number .digit 3, .one class_ => class_ = ⟨false, [⟨'0', '7'⟩]⟩
  | .number .plain _, .number => true
  | .number .plain _, .between class_ 1 none => class_ = Pattern.digitClass
  | .number (.padded digits) _, .exactly class_ count => class_ = Pattern.digitClass ∧ count = digits
  | .packed .serial, .between class_ 1 (some 20) => class_ = PackedForm.serial.class_
  | .packed .shortCode, .exactly class_ 5 => class_ = PackedForm.shortCode.class_
  | _, _ => false

/-- Is a text of a slot a value of the field? A field of no characters needs a slot of
    none. -/
def retains : Coding → Slot → Bool
  | .number (.padded 0) _, .exactly _ 0 => true
  | .number (.padded 0) _, _ => false
  | _, _ => true

theorem retains_of_suits {slot : Slot} (h : coding.suits slot = true) :
    coding.retains slot = true := by
  unfold suits at h
  split at h
  · rfl
  · rfl
  · rfl
  · next digits width class_ count =>
    obtain ⟨rfl, rfl⟩ := of_decide_eq_true h
    cases count <;> rfl
  · rfl
  · rfl
  · cases h

/-- The text of a slot that is dropped when it is read is empty. -/
theorem eq_nil_of_fits {slot : Slot} (hretains : coding.retains slot = true) (hfits : slot.Fits text)
    (hlength : (coding.textField name group).length = some 0) : text = [] := by
  obtain ⟨width, rfl⟩ := exists_eq_of_length_textField hlength
  unfold retains at hretains
  split at hretains
  · exact List.length_eq_zero_iff.mp hfits.1
  · cases hretains
  · next hother hpadded => exact (hother width rfl).elim

theorem fits_bitSlot_iff :
    (bitSlot coding).Fits bits ↔ Numeral.Digits 2 bits ∧ bits.length = coding.width := by
  have hbit : bitClass.has = Numeral.isBit := by
    funext c
    have hzero := Pattern.has_char '0' c
    have hone := Pattern.has_char '1' c
    rw [Bool.eq_iff_iff]
    simp only [CharClass.has, List.any_cons, List.any_nil, Bool.or_false, Bool.bne_false] at hzero hone
    simp only [bitClass, CharClass.has, List.any_cons, List.any_nil, Bool.or_false, Bool.bne_false,
      Bool.or_eq_true, hzero, hone, Numeral.isBit, beq_iff_eq]
  change bits.length = coding.width ∧ bits.all bitClass.has = true ↔ _
  rw [hbit, Numeral.all_isBit_iff, and_comm]

theorem fits_of_suits {slot : Slot} (hsuits : coding.suits slot = true) (h : coding.Admits text) :
    slot.Fits text := by
  unfold suits at hsuits
  split at hsuits
  · next class_ =>
    obtain rfl := of_decide_eq_true hsuits
    obtain ⟨n, hn, rfl⟩ := h
    change n ≤ 7 at hn
    rw [NumberForm.numeral]
    interval_cases n <;> exact ⟨rfl, rfl⟩
  · next width =>
    obtain ⟨n, -, rfl⟩ := h
    exact ⟨⟨Nat.toDigits_ne_nil, Numeral.noLeadingZero_toDigits (by decide) le_rfl n⟩,
      (Numeral.all_isAsciiDigit_iff _).mpr (NumberForm.digits_numeral .plain n)⟩
  · next width class_ =>
    obtain rfl := of_decide_eq_true hsuits
    obtain ⟨n, -, rfl⟩ := h
    exact ⟨⟨List.length_pos_iff.mpr Nat.toDigits_ne_nil, rfl⟩,
      (Pattern.all_has_digitClass_iff _).mpr (NumberForm.digits_numeral .plain n)⟩
  · next digits width class_ count =>
    obtain ⟨rfl, rfl⟩ := of_decide_eq_true hsuits
    obtain ⟨n, hn, rfl⟩ := h
    refine ⟨?_, (Pattern.all_has_digitClass_iff _).mpr (NumberForm.digits_numeral _ n)⟩
    rw [NumberForm.numeral]
    split
    · next hzero => exact hzero.symm
    · next hzero =>
      refine Numeral.length_padded (by decide) (by omega) ?_
      rw [NumberForm.maximum] at hn
      have hpos : 0 < 10 ^ count := Nat.pow_pos (by decide)
      omega
  · next class_ =>
    obtain rfl := of_decide_eq_true hsuits
    exact ⟨⟨List.length_pos_iff.mpr h.1, by simpa [PackedForm.count] using h.2.2.1⟩, h.2.1⟩
  · next class_ =>
    obtain rfl := of_decide_eq_true hsuits
    exact ⟨h.2.2.2 rfl, h.2.1⟩
  · cases hsuits

/-- A strict validator passes only numbers that are admitted, if the slot fixes how they are
    written. -/
theorem admits_of_passes {form : NumberForm} {width : Nat} (hstrict : validator.strict = true)
    {slot : Slot} (hsuits : (number form width).suits slot = true)
    (hslot : slot.fixed = true ∨ slot = .number) (hfits : slot.Fits text)
    (hpasses : Passes validator (number form width) name text) :
    (number form width).Admits text := by
  obtain ⟨hdigits, hle⟩ := Field.checkField_number_iff.mp hpasses hstrict
  refine ⟨_, hle, ?_⟩
  -- a slot that takes more than one way of writing a number is excluded
  unfold suits at hsuits
  split at hsuits
  · next hcoding =>
    cases hcoding
    exact (NumberForm.numeral_digit_value hdigits hfits.1).symm
  · next hcoding =>
    cases hcoding
    exact (Numeral.toDigits_value (by decide) le_rfl hfits.1.1 hdigits hfits.1.2).symm
  · simp [Slot.fixed] at hslot
  · next hcoding =>
    cases hcoding
    obtain ⟨-, rfl⟩ := of_decide_eq_true hsuits
    exact (NumberForm.numeral_padded_value hdigits hfits.1).symm
  · next hcoding => cases hcoding
  · next hcoding => cases hcoding
  · cases hsuits

end Coding

/-! ## Parts -/

/-- A field of a tag. -/
structure Part where
  name : Text
  coding : Coding
  /-- The texts that a URI can have for the field. -/
  slot : Slot
  deriving DecidableEq, Repr

namespace Part

/-- The fields of a binary option, captured by groups in ascending order. -/
def binaryFields : Nat → List Part → List Field
  | _, [] => []
  | group, part :: parts => part.coding.binaryField part.name group :: binaryFields (group + 1) parts

/-- The fields of an option for texts, captured by groups in ascending order. -/
def textFields : Nat → List Part → List Field
  | _, [] => []
  | group, part :: parts => part.coding.textField part.name group :: textFields (group + 1) parts

/-- The texts that the parts admit. -/
def Admit (parts : List Part) (texts : List Text) : Prop :=
  List.Forall₂ (fun part text => part.coding.Admits text) parts texts

/-- The texts that bits of the parts decode to. -/
def Decode (parts : List Part) (texts : List Text) : Prop :=
  List.Forall₂ (fun part text => part.coding.Decodable text) parts texts

/-- The bits of texts. -/
def bits (parts : List Part) (texts : List Text) : List Text :=
  List.zipWith (fun part text => part.coding.bits text) parts texts

/-- The tag option has the field of every part. -/
def InTag (tagOption : Option LevelOption) (parts : List Part) : Prop :=
  ∀ part ∈ parts, ∃ group,
    LevelOption.tagField? tagOption part.name = some (part.coding.textField part.name group)

variable {parts : List Part} {texts : List Text} {tagOption : Option LevelOption}
  {validator : Validator}

theorem names_textFields (group : Nat) (parts : List Part) :
    (textFields group parts).map Field.name = parts.map Part.name := by
  induction parts generalizing group with
  | nil => rfl
  | cons part parts ih => simp [textFields, ih]

theorem names_binaryFields (group : Nat) (parts : List Part) :
    (binaryFields group parts).map Field.name = parts.map Part.name := by
  induction parts generalizing group with
  | nil => rfl
  | cons part parts ih => simp [binaryFields, ih]

theorem mem_textFields {part : Part} (group : Nat) (h : part ∈ parts) :
    ∃ number, part.coding.textField part.name number ∈ textFields group parts := by
  induction parts generalizing group with
  | nil => cases h
  | cons other parts ih =>
    rcases List.mem_cons.mp h with rfl | h
    · exact ⟨group, by simp [textFields]⟩
    · obtain ⟨number, hnumber⟩ := ih (group + 1) h
      exact ⟨number, by simp [textFields, hnumber]⟩

/-- An option with the fields of all parts has the field of every part. -/
theorem inTag_of_fields {option : LevelOption} (hfields : option.fields = textFields 1 parts)
    (hnodup : (parts.map Part.name).Nodup) : InTag (some option) parts := by
  intro part hpart
  obtain ⟨group, hgroup⟩ := mem_textFields 1 hpart
  refine ⟨group, ?_⟩
  rw [← names_textFields 1, ← hfields] at hnodup
  rw [← hfields] at hgroup
  change option.fields.reverse.find? (·.name == part.name) = _
  have hnodup : (option.fields.reverse.map Field.name).Nodup := by
    rw [List.map_reverse]
    exact List.nodup_reverse.mpr hnodup
  have hfound := find?_eq_of_nodup_map hnodup (List.mem_reverse.mpr hgroup)
  rwa [Coding.textField_name] at hfound

/-- The bits of admitted texts fit their slots. -/
theorem fits_bits (hwidth : ∀ part ∈ parts, 0 < part.coding.width) (h : Admit parts texts) :
    List.Forall₂ Slot.Fits (parts.map fun part => part.coding.bitSlot) (bits parts texts) := by
  induction h with
  | nil => exact .nil
  | @cons part text parts texts htext _ ih =>
    refine .cons ?_ (ih fun other hother => hwidth other (by simp [hother]))
    exact Coding.fits_bitSlot_iff.mpr
      ⟨part.coding.digits_bits text, Coding.length_bits (hwidth part (by simp)) htext⟩

/-- Admitted texts fit the slots of a URI. -/
theorem fits_texts (hsuits : ∀ part ∈ parts, part.coding.suits part.slot = true)
    (h : Admit parts texts) : List.Forall₂ Slot.Fits (parts.map Part.slot) texts := by
  induction h with
  | nil => exact .nil
  | @cons part text parts texts htext _ ih =>
    exact .cons (Coding.fits_of_suits (hsuits part (by simp)) htext)
      (ih fun other hother => hsuits other (by simp [hother]))

theorem Admit.decode (h : Admit parts texts) : Decode parts texts :=
  h.imp fun _ _ => Coding.Admits.decodable

/-- Numbers that bits decode to are admitted. -/
theorem Decode.admits (h : Decode parts texts)
    (hnumbers : ∀ part ∈ parts, part.coding.isPacked = false) : Admit parts texts := by
  induction h with
  | nil => exact .nil
  | @cons part text parts texts htext _ ih =>
    exact .cons ((Coding.decodable_iff_of_not_packed (hnumbers part (by simp))).mp htext)
      (ih fun other hother => hnumbers other (by simp [hother]))

/-- Admitted texts are decoded from their bits. -/
theorem codes_reading (group : Nat) (htag : InTag tagOption parts)
    (hwidth : ∀ part ∈ parts, 0 < part.coding.width) (h : Admit parts texts) :
    LevelOption.Codes (LevelOption.reading validator true tagOption) (binaryFields group parts)
      (bits parts texts) texts := by
  induction h generalizing group with
  | nil => trivial
  | @cons part text parts texts htext _ ih =>
    obtain ⟨number, hnumber⟩ := htag part (by simp)
    refine ⟨?_, ih (group + 1) (fun other hother => htag other (by simp [hother]))
      (fun other hother => hwidth other (by simp [hother]))⟩
    rw [LevelOption.reading, Coding.binaryField_name, hnumber]
    exact Coding.decode_bits (hwidth part (by simp)) htext

/-- Admitted texts are encoded into their bits. -/
theorem codes_encoding (group : Nat) (htag : InTag tagOption parts)
    (hwidth : ∀ part ∈ parts, 0 < part.coding.width) (h : Admit parts texts) :
    LevelOption.Codes (LevelOption.encoding validator tagOption) (binaryFields group parts)
      texts (bits parts texts) := by
  induction h generalizing group with
  | nil => trivial
  | @cons part text parts texts htext _ ih =>
    obtain ⟨number, hnumber⟩ := htag part (by simp)
    refine ⟨?_, ih (group + 1) (fun other hother => htag other (by simp [hother]))
      (fun other hother => hwidth other (by simp [hother]))⟩
    rw [LevelOption.encoding, Coding.binaryField_name, hnumber]
    exact Coding.encode_text (hwidth part (by simp)) htext

/-- Decoded texts pass the checks of their fields. -/
theorem checkField_texts (group : Nat) (h : Decode parts texts) :
    List.Forall₂ (fun field text =>
      ∃ passed, (validator.checkField field (.text text)).outcome = .ok passed)
      (textFields group parts) texts := by
  induction h generalizing group with
  | nil => exact .nil
  | cons htext _ ih => exact .cons (Coding.checkField_text validator _ _ htext) (ih (group + 1))

/-- Admitted texts are what they read as in a text. -/
theorem codes_reading_text (htag : InTag tagOption parts) (h : Admit parts texts)
    {fields : List Field} (hfields : fields.map Field.name = parts.map Part.name) :
    LevelOption.Codes (LevelOption.reading validator false tagOption) fields texts texts := by
  induction h generalizing fields with
  | nil =>
    obtain rfl : fields = [] := by simpa using hfields
    trivial
  | @cons part text parts texts htext _ ih =>
    cases fields with
    | nil => simp at hfields
    | cons field fields =>
      simp only [List.map_cons, List.cons.injEq] at hfields
      obtain ⟨number, hnumber⟩ := htag part (by simp)
      refine ⟨?_, ih (fun other hother => htag other (by simp [hother])) hfields.2⟩
      rw [LevelOption.reading, hfields.1, hnumber]
      exact Coding.readField_text htext field

/-- The texts pass the checks of the fields. -/
def Pass (validator : Validator) (parts : List Part) (texts : List Text) : Prop :=
  List.Forall₂ (fun part text => part.coding.Passes validator part.name text) parts texts

theorem pass_iff (group : Nat) :
    Pass validator parts texts ↔
      List.Forall₂ (fun field text =>
        ∃ passed, (validator.checkField field (.text text)).outcome = .ok passed)
        (textFields group parts) texts := by
  induction parts generalizing group texts with
  | nil => simp [Pass, textFields]
  | cons part parts ih =>
    cases texts with
    | nil => simp [Pass, textFields]
    | cons text texts =>
      rw [textFields, List.forall₂_cons, ← ih (group + 1), Pass, List.forall₂_cons, Coding.Passes,
        Coding.checkField_textField validator part.coding part.name 0 group]
      rfl

theorem Decode.pass (h : Decode parts texts) : Pass validator parts texts :=
  (pass_iff 1).mpr (checkField_texts 1 h)

/-- Numbers that a strict validator passes are admitted, if the slots fix how they are
    written. -/
theorem Pass.admit (h : Pass validator parts texts) (hstrict : validator.strict = true)
    (hnumbers : ∀ part ∈ parts, part.coding.isPacked = false)
    (hsuits : ∀ part ∈ parts, part.coding.suits part.slot = true)
    (hslots : ∀ part ∈ parts, part.slot.fixed = true ∨ part.slot = .number)
    (hfits : List.Forall₂ Slot.Fits (parts.map Part.slot) texts) : Admit parts texts := by
  induction h with
  | nil => exact .nil
  | @cons part text parts texts htext _ ih =>
    obtain ⟨hfit, hfits⟩ := List.forall₂_cons.mp hfits
    refine .cons ?_ (ih (fun other hother => hnumbers other (by simp [hother]))
      (fun other hother => hsuits other (by simp [hother]))
      (fun other hother => hslots other (by simp [hother])) hfits)
    obtain ⟨name, coding, slot⟩ := part
    cases coding with
    | number form width =>
      exact Coding.admits_of_passes hstrict (hsuits _ (List.mem_cons_self ..))
        (hslots _ (List.mem_cons_self ..)) hfit htext
    | packed form => cases hnumbers _ (List.mem_cons_self ..)

/-- The fields of a text have what stands in the text, if that passes the checks. -/
theorem codes_reading_text_iff (htag : InTag tagOption parts)
    (hretains : ∀ part ∈ parts, part.coding.retains part.slot = true) {fields : List Field}
    (hfields : fields.map Field.name = parts.map Part.name) {captures : List Text}
    (hfits : List.Forall₂ Slot.Fits (parts.map Part.slot) captures) :
    LevelOption.Codes (LevelOption.reading validator false tagOption) fields captures texts ↔
      texts = captures ∧ Pass validator parts captures := by
  induction parts generalizing fields captures texts with
  | nil =>
    cases hfits
    obtain rfl : fields = [] := by simpa using hfields
    cases texts <;> simp [LevelOption.Codes, Pass]
  | cons part parts ih =>
    obtain ⟨captured, captures, hcaptured, hrest, rfl⟩ := List.forall₂_cons_left_iff.mp hfits
    cases fields with
    | nil => simp at hfields
    | cons field fields =>
      simp only [List.map_cons, List.cons.injEq] at hfields
      obtain ⟨number, hnumber⟩ := htag part (by simp)
      have hread (text : Text) :
          LevelOption.reading validator false tagOption field captured = .ok text ↔
            text = captured ∧ part.coding.Passes validator part.name captured := by
        rw [LevelOption.reading, hfields.1, hnumber, LevelOption.readField_text_eq_ok_iff]
        · simp only [Option.mem_some_iff, forall_eq', Coding.Passes,
            Coding.checkField_textField validator part.coding part.name number 0]
        · rintro _ ⟨⟩ hlength
          exact Coding.eq_nil_of_fits (hretains part (by simp)) hcaptured hlength
      have hrests (rest : List Text) := @ih rest
        (fun other hother => htag other (by simp [hother]))
        (fun other hother => hretains other (by simp [hother])) fields hfields.2 captures hrest
      rw [LevelOption.codes_cons_iff, Pass, List.forall₂_cons]
      constructor
      · rintro ⟨text, rest, rfl, htext, hcodes⟩
        obtain ⟨rfl, hpasses⟩ := (hread text).mp htext
        obtain ⟨rfl, hpass⟩ := (hrests rest).mp hcodes
        exact ⟨rfl, hpasses, hpass⟩
      · rintro ⟨rfl, hpasses, hpass⟩
        exact ⟨captured, captures, rfl, (hread captured).mpr ⟨rfl, hpasses⟩,
          (hrests captures).mpr ⟨rfl, hpass⟩⟩

/-- What a strict validator lets bits decode to is encoded into the same bits, if all of
    it is admitted. -/
theorem of_codes_reading (hstrict : validator.strict = true) {group : Nat}
    (htag : InTag tagOption parts) (hwidth : ∀ part ∈ parts, 0 < part.coding.width)
    {captured : List Text}
    (hcaptured : List.Forall₂ Slot.Fits (parts.map fun part => part.coding.bitSlot) captured)
    (h : LevelOption.Codes (LevelOption.reading validator true tagOption)
      (binaryFields group parts) captured texts) :
    Decode parts texts ∧ (Admit parts texts → bits parts texts = captured) := by
  induction parts generalizing group captured texts with
  | nil =>
    cases hcaptured
    cases texts with
    | nil => exact ⟨.nil, fun _ => rfl⟩
    | cons text texts => exact h.elim
  | cons part parts ih =>
    obtain ⟨bits, captured, hbits, hrests, rfl⟩ := List.forall₂_cons_left_iff.mp hcaptured
    have hbits := Coding.fits_bitSlot_iff.mp hbits
    cases texts with
    | nil => exact h.elim
    | cons text texts =>
      obtain ⟨htext, hrest⟩ := h
      obtain ⟨number, hnumber⟩ := htag part (by simp)
      rw [LevelOption.reading, Coding.binaryField_name, hnumber] at htext
      obtain ⟨hdecodable, hback⟩ :=
        Coding.of_decode hstrict (hwidth part (by simp)) hbits.1 hbits.2 htext
      obtain ⟨hdecode, hbacks⟩ := ih (fun other hother => htag other (by simp [hother]))
        (fun other hother => hwidth other (by simp [hother])) hrests hrest
      refine ⟨.cons hdecodable hdecode, ?_⟩
      intro hadmits
      obtain ⟨hhead, htail⟩ := List.forall₂_cons.mp hadmits
      change part.coding.bits text :: Part.bits parts texts = bits :: captured
      rw [hback hhead, hbacks htail]

end Part

end EpcTag
