-- SUMMARY: Fields that stand in bits alone: packed characters come back from them, and numbers unless they are filled up on the right.
import EpcTag.Proofs.FieldCoding

/-!
# Bare fields

A bare field has no pad character, and the tag URI has no field of its name. The bits
are then all there is to a value. Packed characters come back from them at both edges
and in every width, and whole chunks come back from their characters. A number comes
back as it is written without leading zeros, but not from a field that is filled up on
the right: there the number is read without its factors of two, since the zeros that it
ends with cannot be told from the zeros behind it.
-/

namespace EpcTag.Field

variable {validator : Validator} {field : Field} {method : Compaction} {width : Nat}
  {bits text : Text}

/-- A bare field for a number or for packed characters. -/
def bare (compaction : Option Compaction) (edge : Option Edge) (width : Nat) : Field :=
  { name := "value", group := some 1, bitLength := some width, bitPadEdge := edge, compaction }

/-! ## The two directions -/

section
variable (hpad : field.padChar = .null)
include hpad

/-- A bare field decodes to what is read from its bits. -/
theorem decode_bare (bits : Text) :
    (field.decode validator none bits).outcome =
      field.readBits (field.strippedBits bits) := by
  have hvalue (raw : Text) : field.padDecoded none (.text raw) = .ok (.text raw) := by
    rw [padDecoded, if_neg (not_not_intro hpad)]
  rcases hmethod : field.compaction with _ | method <;>
    rcases hread : field.readBits (field.strippedBits bits) with error | raw <;>
    simp [decode, hmethod, hread, hvalue, Except.bind]

theorem padEncoded_bare (value : Scalar) : field.padEncoded none value = .ok value :=
  if_pos (.inr (.inl hpad))

/-- Characters are packed into the bits of a bare field. -/
theorem encode_packed_bare (hmethod : field.compaction = some method) (text : Text) :
    (field.encode validator none (.text text)).outcome = field.fitBits (method.pack text) := by
  simp [encode, hmethod, padEncoded_bare hpad, Except.bind]

/-- The value of digits is written into the bits of a bare field. -/
theorem encode_number_bare (hnumber : field.compaction = none)
    (hdigits : Numeral.Digits 10 text) :
    (field.encode validator none (.text text)).outcome =
      field.fitBits (Nat.toDigits 2 (Numeral.value 10 text)) := by
  simp [encode, hnumber, padEncoded_bare hpad, decimalBits_digits field hdigits, Except.bind]

end

/-! ## Packed characters -/

/-- A text of characters that the method is meant for is read from its bits, wherever
    these are filled up and with however many zeros. -/
theorem readBits_fill_pack {edge : Edge} (hmethod : field.compaction = some method)
    (hedge : field.bitPadEdge = some edge) (hcovered : ∀ c ∈ text, method.Covers c)
    (zeros : Nat) :
    field.readBits (field.strippedBits (Bits.fill edge zeros (method.pack text))) = .ok text := by
  rcases text with _ | ⟨c, rest⟩
  · -- no character leaves nothing but zeros
    apply readBits_of_not_mem hmethod
    intro hone
    have hzeros : Bits.fill edge zeros (method.pack []) = List.replicate zeros '0' :=
      Bits.fill_nil edge zeros
    rw [hzeros] at hone
    exact Bits.not_mem_replicate_zero zeros hone
  · have hones : ∀ d ∈ c :: rest, '1' ∈ method.packChar d := fun d hd =>
      (hcovered d hd).one_mem_packChar
    have hone : '1' ∈ method.pack (c :: rest) :=
      List.mem_flatMap.mpr ⟨c, List.mem_cons_self, hones c List.mem_cons_self⟩
    rw [strippedBits_fill hmethod hedge (List.cons_ne_nil c rest) hones,
      readBits_of_mem hmethod hone]
    exact Compaction.unpack_pack fun d hd => (hcovered d hd).restores

/-- A text of characters that the method is meant for comes back from the bits of a bare
    field, if it fits in. -/
theorem decode_encode_packed (hmethod : field.compaction = some method)
    (hedge : field.bitPadEdge.isSome) (hpad : field.padChar = .null)
    (hlength : field.bitLength = some (width : Int)) (hroom : method.width * text.length ≤ width)
    (hcovered : ∀ c ∈ text, method.Covers c) :
    ∃ bits, (field.encode validator none (.text text)).outcome = .ok bits ∧
      Numeral.Digits 2 bits ∧ bits.length = width ∧
      (field.decode validator none bits).outcome = .ok text := by
  obtain ⟨edge, hedge⟩ := Option.isSome_iff_exists.mp hedge
  have hfits : (method.pack text).length ≤ width := by
    rw [method.length_pack, Nat.mul_comm]
    exact hroom
  refine ⟨Bits.fill edge (width - (method.pack text).length) (method.pack text), ?_, ?_, ?_, ?_⟩
  · rw [encode_packed_bare hpad hmethod, fitBits_of_le hlength hfits, hedge]
    rfl
  · exact Bits.digits_fill edge _ (method.digits_pack text)
  · rw [Bits.length_fill, Nat.add_sub_cancel' hfits]
  · rw [decode_bare hpad]
    exact readBits_fill_pack hmethod hedge hcovered _

/-- The last character of `8P` ends in four zeros, and three zeros fill up the field. -/
theorem decode_encode_packed_eightP :
    ∃ bits, (encode ⟨false⟩ (bare (some .seven) (some .right) 17) none (.text "8P")).outcome =
        .ok bits ∧
      Numeral.Digits 2 bits ∧ bits.length = 17 ∧
      (decode ⟨false⟩ (bare (some .seven) (some .right) 17) none bits).outcome =
        .ok "8P".toList :=
  decode_encode_packed rfl rfl rfl rfl (by decide)
    (List.forall_mem_cons.mpr ⟨by decide, List.forall_mem_singleton.mpr (by decide)⟩)

/-- Whole chunks of bits come back from the text that a bare field decodes them to. -/
theorem encode_decode_packed (hmethod : field.compaction = some method)
    (hpad : field.padChar = .null) (hlength : field.bitLength = some (bits.length : Int))
    (hwhole : method.width ∣ bits.length) (hdigits : Numeral.Digits 2 bits) :
    ∃ text, (field.decode validator none bits).outcome = .ok text ∧
      (field.encode validator none (.text text)).outcome = .ok bits := by
  by_cases hone : '1' ∈ bits
  · obtain ⟨text, zeros, hread, hfill, -⟩ := exists_readBits hmethod hdigits hwhole hone
    refine ⟨text, by rw [decode_bare hpad, hread], ?_⟩
    have hsum : (method.pack text).length + zeros = bits.length := by
      rw [hfill, Bits.length_fill]
    rw [encode_packed_bare hpad hmethod, fitBits_of_le hlength (by omega), ← hsum,
      Nat.add_sub_cancel_left, ← hfill]
  · -- zeros hold no characters, and no characters are filled up with zeros
    have hfits : field.fitBits (method.pack []) =
        .ok (Bits.fill (field.bitPadEdge.getD .left) bits.length []) :=
      fitBits_of_le hlength (Nat.zero_le _)
    refine ⟨[], ?_, ?_⟩
    · rw [decode_bare hpad, readBits_of_not_mem hmethod hone]
    · rw [encode_packed_bare hpad hmethod, hfits, Bits.fill_nil,
        ← Bits.eq_replicate_of_not_mem hdigits hone]

/-- The outer characters of a code are zeros. -/
theorem encode_decode_packed_outerZeros :
    ∃ text, (decode ⟨false⟩ (bare (some .six) (some .left) 18) none
          "000000000101000000".toList).outcome = .ok text ∧
      (encode ⟨false⟩ (bare (some .six) (some .left) 18) none (.text text)).outcome =
        .ok "000000000101000000".toList :=
  encode_decode_packed rfl rfl rfl ⟨3, rfl⟩ (by decide)

/-! ## Numbers -/

/-- A number that lost its factors of two is the same exactly if it had none. -/
theorem eq_mul_two_pow_iff {kept twos : Nat} (hodd : kept = 0 ∨ Odd kept) :
    kept = kept * 2 ^ twos ↔ kept * 2 ^ twos = 0 ∨ Odd (kept * 2 ^ twos) := by
  constructor
  · intro hsame
    rw [← hsame]
    exact hodd
  · rintro (hzero | hboth)
    · rcases Nat.mul_eq_zero.mp hzero with rfl | htwo
      · exact (Nat.zero_mul _).symm
      · exact absurd htwo (Nat.two_pow_pos twos).ne'
    · have htwos : twos = 0 := by
        by_contra hne
        exact Nat.not_even_iff_odd.mpr (Nat.odd_mul.mp hboth).2 (Nat.even_pow.mpr ⟨even_two, hne⟩)
      rw [htwos, Nat.pow_zero, Nat.mul_one]

/-- A number is read back from its bits, filled up as the field has it: without its factors
    of two if they are filled up on the right. -/
theorem exists_readBits_number (hnumber : field.compaction = none) (n zeros : Nat) :
    ∃ kept, field.readBits (field.strippedBits
        (Bits.fill (field.bitPadEdge.getD .left) zeros (Nat.toDigits 2 n))) =
          .ok (Text.ofNat kept) ∧
      (field.bitPadEdge = some .right → (kept = 0 ∨ Odd kept) ∧ ∃ twos, n = kept * 2 ^ twos) ∧
      (kept = n ↔ (field.bitPadEdge = some .right → n = 0 ∨ Odd n)) := by
  have hdigits : Numeral.Digits 2 (Nat.toDigits 2 n) :=
    Numeral.digits_toDigits (by decide) (by decide) n
  have hvalue : Numeral.value 2 (Nat.toDigits 2 n) = n :=
    Numeral.value_toDigits (by decide) (by decide)
  by_cases hedge : field.bitPadEdge = some .right
  · obtain ⟨kept, twos, hread, hn, hodd⟩ := exists_readBits_right hnumber hedge zeros hdigits
    rw [hvalue] at hn
    refine ⟨kept, ?_, fun _ => ⟨hodd, twos, hn⟩, ?_⟩
    · rw [hedge]
      exact hread
    · rw [hn, eq_mul_two_pow_iff hodd]
      exact ⟨fun h _ => h, fun h => h hedge⟩
  · refine ⟨n, ?_, fun h => absurd h hedge, iff_of_true rfl fun h => absurd h hedge⟩
    rw [readBits_left hnumber hedge (Bits.digits_fill _ zeros hdigits), getD_bitPadEdge hedge,
      Bits.value_fill_left, hvalue]
    rfl

end EpcTag.Field
