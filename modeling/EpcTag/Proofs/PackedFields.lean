-- SUMMARY: Fields whose characters are packed into bits: serial numbers, and supplier codes of five and of six characters.
import EpcTag.Builtin.Gs1
import EpcTag.Builtin.Dod
import EpcTag.Proofs.FieldCoding

/-!
# Packed fields

Three kinds of field hold packed characters. A serial number is packed into seven
bits a character and filled up with zeros on the right, a short code has exactly
five characters of six bits, and a long code has six characters of eight bits,
the first of which may be spaces. Bits without a one hold no characters at all,
whatever the kind, so the empty text is decoded although no pattern admits it.
-/

namespace EpcTag

/-- The kinds of packed field. -/
inductive PackedForm where
  | serial
  | shortCode
  | longCode
  deriving DecidableEq, Repr

namespace PackedForm

def method : PackedForm → Compaction
  | .serial => .seven
  | .shortCode => .six
  | .longCode => .eight

/-- The number of characters that the bits have room for. -/
def count : PackedForm → Nat
  | .serial => 20
  | .shortCode => 5
  | .longCode => 6

/-- The number of bits. -/
def width (form : PackedForm) : Nat := form.count * form.method.width

/-- The allowed characters, as a definition writes them. -/
def characters : PackedForm → Text
  | .serial => Builtin.serialCharacters
  | .shortCode | .longCode => Builtin.cageCharacters

/-- The allowed characters. -/
def class_ : PackedForm → CharClass
  | .serial => ⟨false, [⟨'!', '!'⟩, ⟨'%', '?'⟩, ⟨'A', 'Z'⟩, ⟨'_', '_'⟩, ⟨'a', 'z'⟩, ⟨'"', '"'⟩]⟩
  | .shortCode | .longCode => ⟨false, [⟨'0', '9'⟩, ⟨'A', 'H'⟩, ⟨'J', 'N'⟩, ⟨'P', 'Z'⟩]⟩

/-- The field of the characters in bits. -/
def binaryField (name : Text) (group : Nat) (form : PackedForm) : Field :=
  let field : Field :=
    { name, group := some group, bitLength := some form.width, compaction := some form.method }
  match form with
  | .serial => { field with bitPadEdge := some .right }
  | .shortCode => field
  | .longCode => { field with length := some 6, padChar := .text " ", padEdge := some .left }

/-- The field of the characters in a text. -/
def textField (name : Text) (group : Nat) (form : PackedForm) : Field :=
  { name, group := some group, characterSet := .text (form.characters ++ ['*']) }

/-- The characters that are packed: a long code has spaces in front. -/
def filled (form : PackedForm) (text : Text) : Text :=
  match form with
  | .serial | .shortCode => text
  | .longCode => List.replicate (6 - text.length) ' ' ++ text

/-- The bits of a text. -/
def bits (form : PackedForm) (text : Text) : Text :=
  let packed := form.method.pack (form.filled text)
  let fill := List.replicate (form.width - packed.length) '0'
  match form with
  | .serial => packed ++ fill
  | .shortCode | .longCode => fill ++ packed

/-- The edge at which the bits are filled up. -/
def edge : PackedForm → Edge
  | .serial => .right
  | .shortCode | .longCode => .left

/-- The texts that are restored from their bits. -/
def Admits (form : PackedForm) (text : Text) : Prop :=
  text ≠ [] ∧ text.all form.class_.has = true ∧
    text.length ≤ form.count ∧ (form = .shortCode → text.length = 5)

instance (form : PackedForm) (text : Text) : Decidable (form.Admits text) :=
  inferInstanceAs (Decidable (_ ∧ _))

/-! ## Characters -/

theorem readSet_characters (form : PackedForm) :
    Validator.readSet (Validator.starred (form.characters ++ ['*'])) =
      .ok (Pattern.star form.class_) := by
  refine eq_ok_of_toOption ?_
  cases form <;> decide +kernel

/-- All allowed characters are visible ones of ASCII, and those of a code are digits
    or upper case letters. -/
theorem bounds_of_has {form : PackedForm} {c : Char} (h : form.class_.has c = true) :
    32 < c.toNat ∧ c.toNat < 128 ∧ (form ≠ .serial → c.toNat < 64 ∨ 64 < c.toNat ∧ c.toNat < 96) := by
  have hrange (low high : Char) (hc : low ≤ c ∧ c ≤ high) :
      low.toNat ≤ c.toNat ∧ c.toNat ≤ high.toNat := hc
  cases form <;>
    simp only [class_, CharClass.has, List.any_cons, List.any_nil, Bool.or_false, Bool.bne_false,
      Bool.or_eq_true, Bool.and_eq_true, decide_eq_true_eq] at h
  · rcases h with h | h | h | h | h | h <;> have := hrange _ _ h <;> simp at this <;> simp <;> omega
  · rcases h with h | h | h | h <;> have := hrange _ _ h <;> simp at this <;> simp <;> omega
  · rcases h with h | h | h | h <;> have := hrange _ _ h <;> simp at this <;> simp <;> omega

/-- The method of a kind is meant for the characters that the kind allows. -/
theorem covers_of_has {form : PackedForm} {c : Char} (h : form.class_.has c = true) :
    form.method.Covers c := by
  obtain ⟨hpos, hlt, hcode⟩ := bounds_of_has h
  cases form with
  | serial => exact ⟨by omega, by omega⟩
  | shortCode =>
    have hcode := hcode (by decide)
    exact ⟨by omega, by omega, by omega⟩
  | longCode => exact ⟨by omega, by omega⟩

theorem ne_space_of_has {form : PackedForm} {c : Char} (h : form.class_.has c = true) : c ≠ ' ' := by
  rintro rfl
  exact absurd (bounds_of_has h).1 (by decide)

/-! ## Bits -/

section
variable (name : Text) (group : Nat) (form : PackedForm)

@[simp] theorem binaryField_name : (binaryField name group form).name = name := by
  cases form <;> rfl

@[simp] theorem binaryField_group : (binaryField name group form).group = some (group : Int) := by
  cases form <;> rfl

@[simp] theorem binaryField_compaction :
    (binaryField name group form).compaction = some form.method := by
  cases form <;> rfl

@[simp] theorem binaryField_bitLength :
    (binaryField name group form).bitLength = some (form.width : Int) := by
  cases form <;> rfl

/-- A field that names no edge is filled up on the left. -/
theorem binaryField_edge : (binaryField name group form).bitPadEdge.getD .left = form.edge := by
  cases form <;> rfl

end

variable {form : PackedForm} {text : Text}

/-- What is filled up has characters that are restored. -/
theorem restores_filled (h : text.all form.class_.has = true) :
    ∀ c ∈ form.filled text, form.method.Restores c := by
  have htext : ∀ c ∈ text, form.method.Restores c := fun c hc =>
    (covers_of_has (List.all_eq_true.mp h c hc)).restores
  cases form with
  | serial => exact htext
  | shortCode => exact htext
  | longCode =>
    intro c hc
    rcases List.mem_append.mp hc with hc | hc
    · rw [List.eq_of_mem_replicate hc]
      decide
    · exact htext c hc

theorem length_filled_le (h : text.length ≤ form.count) :
    (form.filled text).length ≤ form.count := by
  cases form with
  | serial => exact h
  | shortCode => exact h
  | longCode =>
    simp only [filled, List.length_append, List.length_replicate]
    change _ ≤ 6
    change _ ≤ 6 at h
    omega

theorem length_pack_filled_le (h : text.length ≤ form.count) :
    (form.method.pack (form.filled text)).length ≤ form.width := by
  rw [Compaction.length_pack]
  exact Nat.mul_le_mul_right _ (length_filled_le h)

theorem bits_eq_fill (form : PackedForm) (text : Text) :
    form.bits text = Bits.fill form.edge
      (form.width - (form.method.pack (form.filled text)).length)
      (form.method.pack (form.filled text)) := by
  cases form <;> rfl

theorem length_bits (h : text.length ≤ form.count) : (form.bits text).length = form.width := by
  rw [bits_eq_fill, Bits.length_fill, Nat.add_sub_cancel' (length_pack_filled_le h)]

theorem digits_bits (form : PackedForm) (text : Text) : Numeral.Digits 2 (form.bits text) := by
  rw [bits_eq_fill]
  exact Bits.digits_fill _ _ (form.method.digits_pack _)

/-- The packed characters of an admitted text hold a one. -/
theorem one_mem_pack (h : form.Admits text) : '1' ∈ form.method.pack (form.filled text) := by
  obtain ⟨hne, hall, -, -⟩ := h
  obtain ⟨c, rest, rfl⟩ := List.exists_cons_of_ne_nil hne
  have hc : c ∈ form.filled (c :: rest) := by cases form <;> simp [filled]
  refine List.mem_flatMap.mpr ⟨c, hc, (covers_of_has ?_).one_mem_packChar⟩
  exact List.all_eq_true.mp hall c (by simp)

/-- Stripping leaves the packed characters of an admitted text. -/
theorem strippedBits_bits (h : form.Admits text) (name : Text) (group : Nat) :
    (binaryField name group form).strippedBits (form.bits text) =
      form.method.pack (form.filled text) := by
  cases form with
  | serial =>
    obtain ⟨hne, hall, -, -⟩ := h
    -- nothing of a text is stripped with the fill, since each of its characters has a one
    have hones : ∀ c ∈ text, '1' ∈ Compaction.seven.packChar c := fun c hc =>
      (covers_of_has (List.all_eq_true.mp hall c hc)).one_mem_packChar
    exact @Field.strippedBits_fill (binaryField name group .serial) .seven rfl .right rfl text hne
      hones _
  | shortCode =>
    have hlen : (Compaction.six.pack text).length = 30 := by
      rw [Compaction.length_pack, h.2.2.2 rfl]
      rfl
    change List.replicate (30 - (Compaction.six.pack text).length) '0' ++ _ = _
    rw [hlen]
    rfl
  | longCode =>
    have hlen : (Compaction.eight.pack (PackedForm.longCode.filled text)).length = 48 := by
      have hle : text.length ≤ 6 := h.2.2.1
      rw [Compaction.length_pack, filled, List.length_append, List.length_replicate,
        Nat.sub_add_cancel hle]
      rfl
    change List.replicate (48 - (Compaction.eight.pack (PackedForm.longCode.filled text)).length)
      '0' ++ _ = _
    rw [hlen]
    rfl

end PackedForm

/-! ## Decoding and encoding -/

namespace Field

open PackedForm

variable {validator : Validator} {name tagName : Text} {group tagGroup : Nat} {form : PackedForm}
  {bits text : Text}

/-- Packed bits decode to the unpacked characters without their padding, if these are
    allowed or the validator is not strict. -/
theorem decode_packed_iff :
    ((binaryField name group form).decode validator (some (textField tagName tagGroup form))
        bits).outcome = .ok text ↔
      ∃ raw, (binaryField name group form).readBits
          ((binaryField name group form).strippedBits bits) = .ok raw ∧
        ((binaryField name group form).padDecoded (some (textField tagName tagGroup form))
          (.text raw)).bind Scalar.operand = .ok text ∧
        (validator.strict = true → text.all form.class_.has = true) := by
  have hlength : (textField tagName tagGroup form).length = none := rfl
  have hset : (textField tagName tagGroup form).characterSet = .text (form.characters ++ ['*']) :=
    rfl
  simp only [decode, binaryField_compaction, binaryField_name, Traced.bind_outcome_eq_ok_iff,
    Traced.liftM_outcome, Option.isSome_some, if_true, hlength, hset, reduceCtorEq, if_false,
    Traced.pure_outcome, Except.ok.injEq, bind_eq_ok_iff]
  constructor
  · rintro ⟨raw, hraw, value, hvalue, result, hresult, passed, hpassed, rfl⟩
    refine ⟨raw, hraw, ⟨value, hvalue, hresult⟩, ?_⟩
    exact (validator.checkCharacterSet_passes_iff name form.readSet_characters result).mp
      ⟨passed, hpassed⟩
  · rintro ⟨raw, hraw, ⟨value, hvalue, hresult⟩, hallowed⟩
    obtain ⟨passed, hpassed⟩ :=
      (validator.checkCharacterSet_passes_iff name form.readSet_characters text).mpr hallowed
    exact ⟨raw, hraw, value, hvalue, text, hresult, passed, hpassed, rfl⟩

/-- Only a long code has padding, the spaces in front. -/
theorem padDecoded_packed (raw : Text) :
    ((binaryField name group form).padDecoded (some (textField tagName tagGroup form))
        (.text raw)).bind Scalar.operand =
      .ok (if form = .longCode then Padding.strip raw (some .left) (some " ") else raw) := by
  cases form <;> rfl

/-- A long code is padded to six characters. -/
theorem filled_eq_pad (text : Text) :
    PackedForm.longCode.filled text = Padding.pad text (some .left) (some [' ']) (some 6) := by
  have hpad := Padding.inward_pad .left ' ' text (6 : Nat)
  rw [Int.toNat_sub] at hpad
  exact hpad.symm

/-- Filling up writes a long code with spaces in front. -/
theorem padEncoded_packed (name tagName : Text) (group tagGroup : Nat) (form : PackedForm)
    (text : Text) :
    ((binaryField name group form).padEncoded (some (textField tagName tagGroup form))
        (.text text)).bind Scalar.operand = .ok (form.filled text) := by
  cases form with
  | serial => rfl
  | shortCode => rfl
  | longCode =>
    exact congrArg Except.ok (filled_eq_pad text).symm

/-- The spaces in front of a text that starts with another character are stripped. -/
theorem strip_spaces {count : Nat} {c : Char} {rest : Text} (hc : c ≠ ' ') :
    Padding.strip (List.replicate count ' ' ++ c :: rest) (some .left) (some " ") = c :: rest := by
  have hpad := Padding.inward_pad .left ' ' (c :: rest) ((count + (c :: rest).length : Nat) : Int)
  rw [Int.toNat_sub, Nat.add_sub_cancel] at hpad
  have hstart : (Edge.left.inward (c :: rest)).head? ≠ some ' ' := by simpa [Edge.inward] using hc
  rw [show List.replicate count ' ' ++ c :: rest = _ from hpad.symm]
  exact Padding.strip_pad (List.cons_ne_nil c rest) hstart _

/-- An admitted text is restored from its bits. -/
theorem decode_packed (h : form.Admits text) :
    ((binaryField name group form).decode validator (some (textField tagName tagGroup form))
        (form.bits text)).outcome = .ok text := by
  obtain ⟨hne, hall, hlen, hshort⟩ := id h
  refine decode_packed_iff.mpr ⟨form.filled text, ?_, ?_, fun _ => hall⟩
  · rw [strippedBits_bits h, readBits_of_mem (binaryField_compaction name group form) (one_mem_pack h),
      Compaction.unpack_pack (restores_filled hall)]
  · rw [padDecoded_packed]
    split
    · next hlong =>
      subst hlong
      obtain ⟨c, rest, rfl⟩ := List.exists_cons_of_ne_nil hne
      rw [filled, strip_spaces (ne_space_of_has (List.all_eq_true.mp hall c (by simp)))]
    · next hlong =>
      cases form with
      | serial => rfl
      | shortCode => rfl
      | longCode => exact absurd rfl hlong

/-- Characters fit if the bits have room for them. -/
theorem fitBits_packed (name : Text) (group : Nat) (hlen : text.length ≤ form.count) :
    (binaryField name group form).fitBits (form.method.pack (form.filled text)) =
      .ok (form.bits text) := by
  rw [fitBits_of_le (binaryField_bitLength name group form) (length_pack_filled_le hlen),
    binaryField_edge, bits_eq_fill]

/-- If there is room for characters, only the check of the characters can fail. -/
theorem encode_packed_outcome (hlen : text.length ≤ form.count) :
    ((binaryField name group form).encode validator (some (textField tagName tagGroup form))
        (.text text)).outcome =
      (validator.checkCharacterSet name (.text text)
        (.text (form.characters ++ ['*']))).outcome.map fun _ => form.bits text := by
  obtain ⟨value, hvalue, hoperand⟩ := bind_eq_ok_iff.mp
    (padEncoded_packed name tagName group tagGroup form text)
  have hset : (textField tagName tagGroup form).characterSet = .text (form.characters ++ ['*']) :=
    rfl
  simp only [encode, binaryField_compaction, binaryField_name, hset, Traced.bind_outcome,
    Traced.liftM_outcome, hvalue, hoperand, fitBits_packed name group hlen, Except.bind]
  rfl

/-- Characters encode to their bits if there is room for them, and they are allowed or the
    validator is not strict. -/
theorem encode_packed (hall : validator.strict = true → text.all form.class_.has = true)
    (hlen : text.length ≤ form.count) :
    ((binaryField name group form).encode validator (some (textField tagName tagGroup form))
        (.text text)).outcome = .ok (form.bits text) := by
  obtain ⟨passed, hpassed⟩ :=
    (validator.checkCharacterSet_passes_iff name form.readSet_characters text).mpr hall
  rw [encode_packed_outcome hlen, hpassed]
  rfl

/-- A text whose characters are allowed passes the check of its field. -/
theorem checkField_packed (hall : text.all form.class_.has = true) :
    ∃ passed, (validator.checkField (textField tagName tagGroup form) (.text text)).outcome =
      .ok passed := by
  obtain ⟨conforming, hconforming⟩ :=
    (validator.checkCharacterSet_passes_iff tagName form.readSet_characters text).mpr fun _ => hall
  obtain ⟨within, hwithin⟩ :
      ∃ within, (validator.checkRange tagName (.text text) .null .null).outcome = .ok within := by
    simp only [Validator.checkRange, Scalar.contentOrVoid_text, Traced.bind_outcome_eq_ok_iff,
      Traced.liftM_outcome, Except.ok.injEq, exists_eq_left']
    split
    · exact ⟨true, rfl⟩
    · exact ⟨true, rfl⟩
  refine ⟨within && conforming, ?_⟩
  have hattributes : (textField tagName tagGroup form).name = tagName ∧
      (textField tagName tagGroup form).characterSet = .text (form.characters ++ ['*']) ∧
      (textField tagName tagGroup form).minimum = .null ∧
      (textField tagName tagGroup form).maximum = .null := ⟨rfl, rfl, rfl, rfl⟩
  obtain ⟨hname, hset, hminimum, hmaximum⟩ := hattributes
  simp only [Validator.checkField, hname, hset, hminimum, hmaximum, Traced.bind_outcome_eq_ok_iff,
    hconforming, hwithin, Traced.pure_outcome, Except.ok.injEq, exists_eq_left']

/-- Bits with a one are the packing of what is read from them, filled up with zeros. -/
theorem exists_readBits_packed (name : Text) (group : Nat) (hdigits : Numeral.Digits 2 bits)
    (hlen : bits.length = form.width) (hone : '1' ∈ bits) :
    ∃ raw, (binaryField name group form).readBits
        ((binaryField name group form).strippedBits bits) = .ok raw ∧
      raw.length ≤ form.count ∧ (form ≠ .serial → raw.length = form.count) ∧
      bits = Bits.fill form.edge (form.width - (form.method.pack raw).length)
        (form.method.pack raw) := by
  obtain ⟨raw, zeros, hread, hfill, hnone⟩ :=
    exists_readBits (binaryField_compaction name group form) hdigits
      (hlen ▸ Nat.dvd_mul_left form.method.width form.count) hone
  rw [binaryField_edge] at hfill
  have hroom : (form.method.pack raw).length + zeros = form.width := by
    rw [← Bits.length_fill form.edge zeros, ← hfill]
    exact hlen
  have hcount : raw.length * form.method.width + zeros = form.count * form.method.width := by
    rw [← Compaction.length_pack]
    exact hroom
  refine ⟨raw, hread, ?_, ?_, ?_⟩
  · exact Nat.le_of_mul_le_mul_right (Nat.le_of_add_right_le hcount.le) form.method.width_pos
  · intro hserial
    -- only a serial number is filled up
    have hedge : (binaryField name group form).bitPadEdge = none := by
      cases form with
      | serial => exact absurd rfl hserial
      | shortCode => rfl
      | longCode => rfl
    rw [hnone hedge] at hcount
    exact Nat.eq_of_mul_eq_mul_right form.method.width_pos hcount
  · rwa [← hroom, Nat.add_sub_cancel_left]

/-- Six characters are what is left of them without the spaces in front, filled up. -/
theorem filled_strip {raw : Text} (hlen : raw.length = 6) :
    PackedForm.longCode.filled (Padding.strip raw (some .left) (some " ")) = raw := by
  have hback := Padding.pad_strip .left ' ' raw
  rw [hlen] at hback
  exact (filled_eq_pad _).trans hback

/-- What bits decode to has these bits again, unless there is no one in them. -/
theorem bits_of_decode_packed (hdigits : Numeral.Digits 2 bits) (hlen : bits.length = form.width)
    (h : ((binaryField name group form).decode validator (some (textField tagName tagGroup form))
        bits).outcome = .ok text) :
    ('1' ∈ bits ∧ text ≠ [] ∧ text.length ≤ form.count ∧
        (form = .shortCode → text.length = 5) ∧ form.bits text = bits) ∨
      ('1' ∉ bits ∧ text = []) := by
  obtain ⟨raw, hraw, hpad, -⟩ := decode_packed_iff.mp h
  rw [padDecoded_packed] at hpad
  have hpad := Except.ok.inj hpad
  by_cases hone : '1' ∈ bits
  · left
    obtain ⟨raw', hraw', hcount, hfull, hbits⟩ :=
      exists_readBits_packed name group hdigits hlen hone
    obtain rfl : raw' = raw := Except.ok.inj (hraw'.symm.trans hraw)
    -- the spaces that a long code is stripped of are what it is filled with
    have hfilled : raw' = form.filled text := by
      by_cases hlong : form = .longCode
      · subst hlong
        rw [← hpad, if_pos rfl, filled_strip (hfull (by decide))]
      · rw [← hpad, if_neg hlong]
        cases form with
        | serial => rfl
        | shortCode => rfl
        | longCode => exact absurd rfl hlong
    -- the bits of an empty text have no one in them
    have hne : text ≠ [] := by
      rintro rfl
      cases form with
      | serial =>
        rw [hbits, hfilled] at hone
        simp [filled, Compaction.pack] at hone
      | shortCode =>
        rw [hbits, hfilled] at hone
        simp [filled, Compaction.pack] at hone
      | longCode =>
        rw [hfilled] at hpad
        exact absurd hpad (by decide)
    subst hfilled
    have hle : text.length ≤ (form.filled text).length := by
      cases form <;> simp [filled]
    refine ⟨hone, hne, hle.trans hcount, ?_, ?_⟩
    · rintro rfl
      exact hfull (by decide)
    · rw [bits_eq_fill]
      exact hbits.symm
  · right
    refine ⟨hone, ?_⟩
    rw [readBits_of_not_mem (binaryField_compaction name group form) hone] at hraw
    cases hraw
    rw [← hpad]
    split <;> rfl

/-- What a strict validator lets bits decode to has only allowed characters, and it is
    encoded into the same bits, unless there is nothing. -/
theorem of_decode_packed (hstrict : validator.strict = true) (hdigits : Numeral.Digits 2 bits)
    (hlen : bits.length = form.width)
    (h : ((binaryField name group form).decode validator (some (textField tagName tagGroup form))
        bits).outcome = .ok text) :
    (form.Admits text ∧ form.bits text = bits) ∨
      (text = [] ∧ bits = List.replicate form.width '0') := by
  obtain ⟨-, -, -, hallowed⟩ := decode_packed_iff.mp h
  rcases bits_of_decode_packed hdigits hlen h with ⟨-, hne, hcount, hshort, hbits⟩ | ⟨hone, rfl⟩
  · exact .inl ⟨⟨hne, hallowed hstrict, hcount, hshort⟩, hbits⟩
  · refine .inr ⟨rfl, ?_⟩
    rw [← hlen]
    exact Bits.eq_replicate_of_not_mem hdigits hone

end Field

end EpcTag
