-- SUMMARY: What a field reads from its bits, and how it fills bits up to its width.
import EpcTag.FieldCoding
import EpcTag.Proofs.BitPadding
import EpcTag.Proofs.Compaction

/-!
# The bits of a field

A field fills its bits up to its width at the edge that it names, on the left if it
names none, and before it reads them it strips them at the edge that it names. Packed
characters are read as they were packed, because whole chunks are stripped. A number
is read as the value of its bits if it was filled up on the left. On the right it
loses the zeros it ends with, which cannot be told from those that fill it up.
-/

namespace EpcTag

namespace Field

variable {field : Field} {bits : Text}

/-- Bits are filled up with zeros to the width of the field. -/
theorem fitBits_of_le {width : Nat} (hlength : field.bitLength = some (width : Int))
    (hle : bits.length ≤ width) :
    field.fitBits bits =
      .ok (Bits.fill (field.bitPadEdge.getD .left) (width - bits.length) bits) := by
  simp only [fitBits, hlength, Int.toNat_natCast]
  by_cases hzero : width = 0
  · subst hzero
    obtain rfl : bits = [] := List.length_eq_zero_iff.mp (Nat.le_zero.mp hle)
    rw [if_pos Nat.cast_zero]
    exact congrArg Except.ok (Bits.fill_zero _ []).symm
  · rw [if_neg (by omega), if_neg (by omega)]
    rcases field.bitPadEdge with _ | _ | _ <;> rfl

/-- A field that is not filled up on the right is filled up on the left. -/
theorem getD_bitPadEdge (hedge : field.bitPadEdge ≠ some .right) :
    field.bitPadEdge.getD .left = .left := by
  rcases hname : field.bitPadEdge with _ | _ | _
  · rfl
  · rfl
  · exact absurd hname hedge

/-- Bits that are too many for a field are refused. -/
theorem fitBits_of_lt {width : Nat} (hlength : field.bitLength = some (width : Int))
    (hwidth : 0 < width) (hlt : width < bits.length) :
    field.fitBits bits = .error (.bitOverflow field.name bits.length width) := by
  simp only [fitBits, hlength]
  rw [if_neg (by omega), if_pos (by omega)]

theorem strippedBits_of_none (h : field.bitPadEdge = none) (bits : Text) :
    field.strippedBits bits = bits := by
  rw [strippedBits, h]

theorem strippedBits_of_some {edge : Edge} (h : field.bitPadEdge = some edge) (bits : Text) :
    field.strippedBits bits =
      Bits.strip edge ((field.compaction.map Compaction.width).getD 0) bits := by
  rw [strippedBits, h]

/-- Stripping makes no ones. -/
theorem not_mem_strippedBits (field : Field) (hone : '1' ∉ bits) :
    '1' ∉ field.strippedBits bits := by
  rcases hedge : field.bitPadEdge with _ | edge
  · rwa [strippedBits_of_none hedge]
  · rw [strippedBits_of_some hedge, Bits.strip_of_not_mem edge _ hone]
    decide

/-! ## Packed characters -/

/-- The outermost bits of packed characters are those of the first one or of the last one. -/
theorem one_mem_outermost_pack {method : Compaction} {text : Text} (edge : Edge) (hne : text ≠ [])
    (hones : ∀ c ∈ text, '1' ∈ method.packChar c) :
    '1' ∈ Bits.outermost edge method.width (method.pack text) := by
  cases edge with
  | left =>
    obtain ⟨first, rest, rfl⟩ := List.exists_cons_of_ne_nil hne
    rw [Bits.outermost, Compaction.pack, List.flatMap_cons,
      List.take_left' (method.length_packChar first)]
    exact hones first List.mem_cons_self
  | right =>
    have hlast := List.dropLast_append_getLast hne
    generalize text.getLast hne = last at hlast
    have hpack : method.pack text = method.pack text.dropLast ++ method.packChar last := by
      rw [← hlast]
      simp [Compaction.pack]
    rw [Bits.outermost, hpack, List.length_append, method.length_packChar, Nat.add_sub_cancel,
      List.drop_left]
    refine hones last ?_
    rw [← hlast]
    exact List.mem_append_right _ (List.mem_singleton_self last)

section
variable {method : Compaction} (hmethod : field.compaction = some method)
include hmethod

/-- Packed characters that are filled up at the edge of the field are what stripping
    leaves, if none of them is packed into zeros. -/
theorem strippedBits_fill {edge : Edge} (hedge : field.bitPadEdge = some edge) {text : Text}
    (hne : text ≠ []) (hones : ∀ c ∈ text, '1' ∈ method.packChar c) (zeros : Nat) :
    field.strippedBits (Bits.fill edge zeros (method.pack text)) = method.pack text := by
  have hwidth : 4 ≤ method.width := by cases method <;> decide
  rw [strippedBits_of_some hedge, hmethod]
  exact Bits.strip_fill edge hwidth (method.digits_pack text) (method.length_pack text)
    (one_mem_outermost_pack edge hne hones) zeros

/-- Bits with a one hold the characters that they unpack to. -/
theorem readBits_of_mem (hone : '1' ∈ bits) : field.readBits bits = method.unpack bits := by
  rw [readBits, hmethod]
  exact if_pos (by simpa using hone)

/-- Bits without a one hold no characters. -/
theorem readBits_of_not_mem (hone : '1' ∉ bits) :
    field.readBits (field.strippedBits bits) = .ok [] := by
  have hstripped : '1' ∉ field.strippedBits bits := not_mem_strippedBits field hone
  rw [readBits, hmethod]
  exact if_neg (by simpa using hstripped)

/-- Whole chunks with a one are zeros, if the field names an edge, and the packing of what
    is read from them. -/
theorem exists_readBits (hdigits : Numeral.Digits 2 bits) (hlen : method.width ∣ bits.length)
    (hone : '1' ∈ bits) :
    ∃ text zeros, field.readBits (field.strippedBits bits) = .ok text ∧
      bits = Bits.fill (field.bitPadEdge.getD .left) zeros (method.pack text) ∧
      (field.bitPadEdge = none → zeros = 0) := by
  -- stripping takes off zeros only, and leaves whole chunks with the one
  obtain ⟨hmem, zeros, hfill, hwhole, hnone⟩ : '1' ∈ field.strippedBits bits ∧ ∃ zeros,
      bits = Bits.fill (field.bitPadEdge.getD .left) zeros (field.strippedBits bits) ∧
      method.width ∣ (field.strippedBits bits).length ∧
      (field.bitPadEdge = none → zeros = 0) := by
    rcases hedge : field.bitPadEdge with _ | edge
    · rw [strippedBits_of_none hedge]
      exact ⟨hone, 0, (Bits.fill_zero _ bits).symm, hlen, fun _ => rfl⟩
    · rw [strippedBits_of_some hedge, hmethod]
      have hwidth : 4 ≤ method.width := by cases method <;> decide
      obtain ⟨hmem, zeros, hfill⟩ := Bits.exists_fill_strip edge method.width hdigits hone
      exact ⟨hmem, zeros, hfill, Bits.dvd_length_strip edge hwidth hone hlen, fun h => nomatch h⟩
  have hkept : Numeral.Digits 2 (field.strippedBits bits) := by
    rw [hfill] at hdigits
    exact Bits.digits_of_fill hdigits
  obtain ⟨count, hcount⟩ := hwhole
  rw [Nat.mul_comm] at hcount
  obtain ⟨text, -, hpack, hunpack⟩ := Compaction.exists_pack hkept hcount
  refine ⟨text, zeros, ?_, ?_, hnone⟩
  · rw [readBits_of_mem hmethod hmem, hunpack]
  · rw [hpack]
    exact hfill

end

/-! ## Numbers -/

section
variable (hnumber : field.compaction = none)
include hnumber

/-- A number that is not filled up on the right is the value of its bits. -/
theorem readBits_left (hedge : field.bitPadEdge ≠ some .right) (hdigits : Numeral.Digits 2 bits) :
    field.readBits (field.strippedBits bits) =
      .ok (Nat.toDigits 10 (Numeral.value 2 bits)) := by
  rw [readBits, hnumber]
  rcases hpad : field.bitPadEdge with _ | _ | _
  · rw [strippedBits_of_none hpad]
    exact Bits.toDecimal_of_digits hdigits
  · rw [strippedBits_of_some hpad]
    exact Bits.toDecimal_strip_left _ hdigits
  · exact absurd hpad hedge

/-- A number that was filled up on the right has lost the zeros it ended with. -/
theorem exists_readBits_right (hedge : field.bitPadEdge = some .right) (zeros : Nat)
    (hdigits : Numeral.Digits 2 bits) :
    ∃ odd twos, field.readBits (field.strippedBits (Bits.fill .right zeros bits)) =
        .ok (Nat.toDigits 10 odd) ∧
      Numeral.value 2 bits = odd * 2 ^ twos ∧ (odd = 0 ∨ Odd odd) := by
  rw [readBits, hnumber, strippedBits_of_some hedge, hnumber]
  by_cases hone : '1' ∈ bits
  · obtain ⟨front, twos, rfl⟩ := Bits.exists_last_one hdigits hone
    have hfill : Bits.fill .right zeros (front ++ '1' :: List.replicate twos '0') =
        front ++ '1' :: List.replicate (twos + zeros) '0' := by
      simp [Bits.fill]
    have hlast : Numeral.Digits 2 (front ++ ['1']) :=
      hdigits.of_mem fun c hc => by
        rw [List.append_cons]
        exact List.mem_append_left _ hc
    refine ⟨Numeral.value 2 (front ++ ['1']), twos, ?_, ?_, .inr ?_⟩
    · rw [hfill]
      change Bits.toDecimal (Bits.strip .right 0 _) = _
      rw [Bits.strip_right_zero]
      exact Bits.toDecimal_of_digits hlast
    · rw [List.append_cons, Numeral.value_append, List.length_replicate]
      rw [Numeral.value_of_zeros fun c hc => List.eq_of_mem_replicate hc, Nat.add_zero]
    · rw [Numeral.value_append_singleton]
      exact ⟨Numeral.value 2 front, rfl⟩
  · have hnone : '1' ∉ Bits.fill .right zeros bits := by
      intro hmem
      rcases List.mem_append.mp hmem with hmem | hmem
      · exact hone hmem
      · exact Bits.not_mem_replicate_zero zeros hmem
    refine ⟨0, 0, ?_, Bits.value_of_not_mem hdigits hone, .inl rfl⟩
    rw [Bits.strip_of_not_mem _ _ hnone]
    rfl

end

end Field

end EpcTag
