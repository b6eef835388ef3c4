-- SUMMARY: How many bits stripping leaves: the fewest whole chunks that hold every one bit.
import EpcTag.Proofs.BitPadding
import Mathlib.Order.Bounds.Defs

/-!
# Bit stripping

What is stripped off at an edge is zeros, so the same number of zeros puts it back. What
stays is counted from the edge across: it is the least number of whole chunks that hold
every one bit, or all bits if there are not as many. As the one bits stay where they are,
counted from there, the same number is asked for when what is left is stripped again.
-/

namespace EpcTag

namespace Edge

@[simp] theorem opposite_opposite (edge : Edge) : edge.opposite.opposite = edge := by
  cases edge <;> rfl

end Edge

namespace Bits

variable {edge : Edge} {width zeros count : Nat} {bits front : Text}

/-- So many bits, counted from the edge across, make whole chunks and hold every one bit.
    A width below four makes no chunks. -/
def Suffices (edge : Edge) (width : Nat) (bits : Text) (count : Nat) : Prop :=
  (4 ≤ width → width ∣ count) ∧
    (outermost edge.opposite count bits).count '1' = bits.count '1'

/-! ## Rounding -/

/-- No multiple of the width is nearer above a number than the one it is rounded up to. -/
theorem roundUp_le {n : Nat} (hle : n ≤ count) (hdvd : 4 ≤ width → width ∣ count) :
    roundUp width n ≤ count := by
  rw [roundUp]
  split
  · next hwidth =>
    obtain ⟨chunks, rfl⟩ := hdvd hwidth
    have hchunks : (n + width - 1) / width ≤ chunks := by
      rw [← Nat.lt_succ_iff, Nat.div_lt_iff_lt_mul (by omega), Nat.succ_mul, Nat.mul_comm]
      omega
    rw [Nat.mul_comm width chunks]
    exact Nat.mul_le_mul_right width hchunks
  · exact hle

/-! ## The right edge -/

/-- The first bits hold every one bit if they reach as far as the last of them. -/
theorem count_take_eq_iff (front : Text) (zeros count : Nat) :
    ((front ++ '1' :: List.replicate zeros '0').take count).count '1' =
        (front ++ '1' :: List.replicate zeros '0').count '1' ↔
      front.length + 1 ≤ count := by
  have hzeros (zeros : Nat) : (List.replicate zeros '0').count '1' = 0 :=
    List.count_eq_zero.mpr (not_mem_replicate_zero zeros)
  constructor
  · intro hcount
    by_contra hshort
    rw [List.take_append_of_le_length (by omega), List.count_append, List.count_cons_self] at hcount
    have hle := (List.take_sublist count front).count_le '1'
    omega
  · intro hreach
    rw [take_last_one zeros hreach, List.count_append, List.count_append, List.count_cons_self,
      List.count_cons_self, hzeros, hzeros]

/-- At the right edge the place of the last one, rounded up, is the least number that suffices. -/
theorem isLeast_suffices_right (width : Nat) (front : Text) (zeros : Nat) :
    IsLeast {count | Suffices .right width (front ++ '1' :: List.replicate zeros '0') count}
      (roundUp width (front.length + 1)) :=
  ⟨⟨fun hwidth => dvd_roundUp hwidth _,
      (count_take_eq_iff front zeros _).mpr (le_roundUp width _)⟩,
    fun _ hcount => roundUp_le ((count_take_eq_iff front zeros _).mp hcount.2) hcount.1⟩

/-- The bits from the edge across are left up to the least number that suffices, and stripping
    them again leaves them all. -/
@[mk_iff]
structure Leaves (edge : Edge) (width : Nat) (bits : Text) (count : Nat) : Prop where
  isLeast : IsLeast {count | Suffices edge width bits count} count
  length_strip : (strip edge width bits).length = min count bits.length
  strip_strip : strip edge width (strip edge width bits) = strip edge width bits

theorem leaves_right (width : Nat) (front : Text) (zeros : Nat) :
    Leaves .right width (front ++ '1' :: List.replicate zeros '0')
      (roundUp width (front.length + 1)) where
  isLeast := isLeast_suffices_right width front zeros
  length_strip := by rw [strip_right_eq, List.length_take]
  strip_strip := by
    rw [strip_right_eq, take_last_one zeros (le_roundUp width _), strip_right_eq,
      ← take_last_one zeros (le_roundUp width _), List.take_take, Nat.min_self]

/-! ## Both edges -/

theorem outermost_reverse (edge : Edge) (count : Nat) (bits : Text) :
    outermost edge.opposite count bits.reverse = (outermost edge count bits).reverse := by
  cases edge with
  | left =>
    simp [outermost, Edge.opposite, List.drop_reverse, List.take_eq_take_min, Nat.sub_sub_eq_min,
      Nat.min_comm]
  | right => simp [outermost, Edge.opposite, List.take_reverse]

theorem suffices_reverse (edge : Edge) :
    Suffices edge.opposite width bits.reverse count ↔ Suffices edge width bits count := by
  rw [Suffices, Suffices, outermost_reverse, List.count_reverse, List.count_reverse]

theorem leaves_reverse (edge : Edge) :
    Leaves edge.opposite width bits.reverse count ↔ Leaves edge width bits count := by
  simp only [leaves_iff, suffices_reverse, strip_reverse, List.length_reverse, List.reverse_inj]

theorem exists_leaves (edge : Edge) (width : Nat) (hdigits : Numeral.Digits 2 bits)
    (hone : '1' ∈ bits) : ∃ count, Leaves edge width bits count := by
  cases edge with
  | right =>
    obtain ⟨front, zeros, rfl⟩ := exists_last_one hdigits hone
    exact ⟨_, leaves_right width front zeros⟩
  | left =>
    have hreversed : Numeral.Digits 2 bits.reverse := hdigits.of_mem fun _ => List.mem_reverse.mp
    obtain ⟨front, zeros, hbits⟩ := exists_last_one hreversed (List.mem_reverse.mpr hone)
    have hleaves := leaves_right width front zeros
    rw [← hbits] at hleaves
    exact ⟨_, (leaves_reverse .left).mp hleaves⟩

/-- Stripping takes zeros off one edge, and as many put back restore the bits. What is left is
    as long as the least number of whole chunks, counted from the edge across, that hold every
    one bit, or as the bits are if these are fewer; and stripping it again changes nothing. -/
theorem exists_fill_isLeast_strip (edge : Edge) (width : Nat) (hdigits : Numeral.Digits 2 bits)
    (hone : '1' ∈ bits) :
    ∃ zeros count, bits = fill edge zeros (strip edge width bits) ∧
      IsLeast {count | Suffices edge width bits count} count ∧
      (strip edge width bits).length = min count bits.length ∧
      strip edge width (strip edge width bits) = strip edge width bits := by
  obtain ⟨-, zeros, hfill⟩ := exists_fill_strip edge width hdigits hone
  obtain ⟨count, hleaves⟩ := exists_leaves edge width hdigits hone
  exact ⟨zeros, count, hfill, hleaves.isLeast, hleaves.length_strip, hleaves.strip_strip⟩

/-- A field of eight bits keeps a chunk of six when the last one is the sixth bit from the
    right, and all eight bits when it is the seventh. -/
theorem exists_fill_isLeast_strip_sixes :
    (∃ zeros count, "00100000".toList = fill .left zeros "100000".toList ∧
        IsLeast {count | Suffices .left 6 "00100000".toList count} count ∧
        6 = min count 8 ∧ strip .left 6 "100000".toList = "100000".toList) ∧
      ∃ zeros count, "01000000".toList = fill .left zeros "01000000".toList ∧
        IsLeast {count | Suffices .left 6 "01000000".toList count} count ∧
        8 = min count 8 ∧ strip .left 6 "01000000".toList = "01000000".toList :=
  ⟨exists_fill_isLeast_strip .left 6 (by decide) (by decide),
    exists_fill_isLeast_strip .left 6 (by decide) (by decide)⟩

end Bits

end EpcTag
