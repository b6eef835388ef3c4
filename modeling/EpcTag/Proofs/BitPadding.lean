-- SUMMARY: Zeros that fill up bits at an edge, and what stripping leaves of filled-up bits.
import EpcTag.Bits
import EpcTag.Proofs.Numeral

/-!
# Bit padding

Bits are filled up with zeros at one of their edges, and stripping removes zeros at
that edge, all of them or as many as leave whole chunks. The two edges are mirror
images: what holds of one edge holds of the other edge for the reversed bits. So
only the right edge is looked at, where the last one and the zeros behind it decide.
-/

namespace EpcTag

namespace Edge

/-- The edge across. -/
def opposite : Edge → Edge
  | .left => .right
  | .right => .left

end Edge

namespace Bits

variable {edge : Edge} {width zeros count : Nat} {bits kept : Text}

/-- Bits with zeros before or behind them. -/
def fill (edge : Edge) (zeros : Nat) (bits : Text) : Text :=
  match edge with
  | .left => List.replicate zeros '0' ++ bits
  | .right => bits ++ List.replicate zeros '0'

/-- The `width` bits that stand next to an edge. -/
def outermost (edge : Edge) (width : Nat) (bits : Text) : Text :=
  match edge with
  | .left => bits.take width
  | .right => bits.drop (bits.length - width)

@[simp] theorem fill_zero (edge : Edge) (bits : Text) : fill edge 0 bits = bits := by
  cases edge with
  | left => rfl
  | right => exact List.append_nil bits

@[simp] theorem fill_nil (edge : Edge) (zeros : Nat) :
    fill edge zeros [] = List.replicate zeros '0' := by
  cases edge with
  | left => exact List.append_nil _
  | right => rfl

@[simp] theorem length_fill (edge : Edge) (zeros : Nat) (bits : Text) :
    (fill edge zeros bits).length = bits.length + zeros := by
  cases edge <;> simp [fill, Nat.add_comm]

theorem digits_fill (edge : Edge) (zeros : Nat) (h : Numeral.Digits 2 bits) :
    Numeral.Digits 2 (fill edge zeros bits) := by
  have hzeros : Numeral.Digits 2 (List.replicate zeros '0') :=
    Numeral.digits_replicate_zero (by decide) zeros
  cases edge with
  | left => exact Numeral.digits_append.mpr ⟨hzeros, h⟩
  | right => exact Numeral.digits_append.mpr ⟨h, hzeros⟩

theorem digits_of_fill (h : Numeral.Digits 2 (fill edge zeros bits)) : Numeral.Digits 2 bits := by
  cases edge with
  | left => exact (Numeral.digits_append.mp h).2
  | right => exact (Numeral.digits_append.mp h).1

/-- Zeros in front of bits do not count. -/
theorem value_fill_left (zeros : Nat) (bits : Text) :
    Numeral.value 2 (fill .left zeros bits) = Numeral.value 2 bits :=
  Numeral.value_replicate_zero 2 zeros bits

/-! ## Ones -/

/-- Bits without a one are zeros. -/
theorem eq_replicate_of_not_mem {bits : Text} (hdigits : Numeral.Digits 2 bits)
    (h : '1' ∉ bits) : bits = List.replicate bits.length '0' := by
  refine List.eq_replicate_iff.mpr ⟨rfl, fun c hc => ?_⟩
  have hbit := (Numeral.isBit_iff c).mpr (hdigits c hc)
  rcases (by simpa [Numeral.isBit] using hbit : c = '0' ∨ c = '1') with rfl | rfl
  · rfl
  · exact absurd hc h

theorem value_of_not_mem (hdigits : Numeral.Digits 2 bits) (h : '1' ∉ bits) :
    Numeral.value 2 bits = 0 := by
  apply Numeral.value_of_zeros
  intro c hc
  rw [eq_replicate_of_not_mem hdigits h] at hc
  exact List.eq_of_mem_replicate hc

theorem not_mem_replicate_zero (zeros : Nat) : '1' ∉ List.replicate zeros '0' := by
  intro h
  exact absurd (List.eq_of_mem_replicate h) (by decide)

/-- Bits with a one have a last one, and zeros behind it. -/
theorem exists_last_one (hdigits : Numeral.Digits 2 bits) (h : '1' ∈ bits) :
    ∃ front zeros, bits = front ++ '1' :: List.replicate zeros '0' := by
  obtain ⟨after, before, hsplit, hafter⟩ := List.eq_append_cons_of_mem (List.mem_reverse.mpr h)
  have hbits : bits = before.reverse ++ '1' :: after.reverse := by
    rw [← List.reverse_reverse bits, hsplit]
    simp
  rw [hbits, Numeral.digits_append, Numeral.digits_cons] at hdigits
  have hzeros := eq_replicate_of_not_mem hdigits.2.2 (by simpa using hafter)
  exact ⟨before.reverse, after.reverse.length, by rw [← hzeros, hbits]⟩

/-- Of bits without a one a single zero stays. -/
theorem strip_of_not_mem (edge : Edge) (width : Nat) (h : '1' ∉ bits) :
    strip edge width bits = ['0'] := by
  rw [strip.eq_def, if_neg (by simpa using h)]

/-! ## Rounding -/

theorem le_roundUp (width n : Nat) : n ≤ roundUp width n := by
  rw [roundUp]
  split
  · next hwidth =>
    have := Nat.lt_div_mul_add (show 0 < width by omega) (a := n + width - 1)
    omega
  · exact le_rfl

theorem dvd_roundUp (hwidth : 4 ≤ width) (n : Nat) : width ∣ roundUp width n := by
  rw [roundUp, if_pos hwidth]
  exact Nat.dvd_mul_left width _

/-- Rounding up gives the multiple that is less than `width` away. -/
theorem roundUp_eq_of_le {n : Nat} (hwidth : 4 ≤ width) (hle : n ≤ count * width)
    (hlt : count * width < n + width) : roundUp width n = count * width := by
  have hcount : (n + width - 1) / width = count := by
    apply Nat.div_eq_of_lt_le
    · omega
    · rw [Nat.succ_mul]
      omega
  rw [roundUp, if_pos hwidth, hcount]

/-! ## Stripping at the right edge -/

/-- At the right edge the place of the last one decides how many bits stay. -/
theorem strip_right_eq (width : Nat) (front : Text) (zeros : Nat) :
    strip .right width (front ++ '1' :: List.replicate zeros '0') =
      (front ++ '1' :: List.replicate zeros '0').take (roundUp width (front.length + 1)) := by
  have hreach : Text.dropWhileEnd (· ≠ '1') (front ++ '1' :: List.replicate zeros '0') =
      front ++ ['1'] := by
    simp [Text.dropWhileEnd]
  rw [strip, if_pos (by simp)]
  simp only [hreach, List.length_append, List.length_singleton]

/-- Without chunks to keep whole, the bits up to the last one stay. -/
theorem strip_right_zero (front : Text) (zeros : Nat) :
    strip .right 0 (front ++ '1' :: List.replicate zeros '0') = front ++ ['1'] := by
  rw [strip_right_eq, roundUp, if_neg (by decide), List.append_cons]
  exact List.take_left' (by simp)

/-- Bits that reach as far as the last one lose zeros only. -/
theorem take_last_one {front : Text} (zeros : Nat) (h : front.length + 1 ≤ count) :
    (front ++ '1' :: List.replicate zeros '0').take count =
      front ++ '1' :: List.replicate (min (count - (front.length + 1)) zeros) '0' := by
  rw [List.append_cons, List.take_append, List.take_of_length_le (by simpa using h)]
  simp

/-- Zeros and no one are taken off the right edge. -/
theorem exists_fill_strip_right (width : Nat) (hdigits : Numeral.Digits 2 bits) (hone : '1' ∈ bits) :
    '1' ∈ strip .right width bits ∧ ∃ zeros, bits = fill .right zeros (strip .right width bits) := by
  obtain ⟨front, zeros, rfl⟩ := exists_last_one hdigits hone
  rw [strip_right_eq, take_last_one zeros (le_roundUp width _)]
  generalize roundUp width (front.length + 1) - (front.length + 1) = more
  refine ⟨by simp, zeros - min more zeros, ?_⟩
  simp only [fill, List.append_assoc, List.cons_append, List.replicate_append_replicate]
  rw [Nat.add_sub_cancel' (Nat.min_le_right _ _)]

/-- Of whole chunks with zeros behind them the chunks stay, if there is a one in the last
    of them. -/
theorem strip_fill_right (hwidth : 4 ≤ width) (hdigits : Numeral.Digits 2 kept)
    (hlen : kept.length = count * width) (hone : '1' ∈ kept.drop (kept.length - width))
    (zeros : Nat) : strip .right width (fill .right zeros kept) = kept := by
  obtain ⟨front, more, rfl⟩ := exists_last_one hdigits (List.mem_of_mem_drop hone)
  have hlength : (front ++ '1' :: List.replicate more '0').length = front.length + 1 + more := by
    simp
    omega
  -- were the last chunk full of zeros, the last one would stand before it
  have hmore : more < width := by
    by_contra hle
    rw [hlength, List.append_cons, List.drop_append, List.drop_of_length_le (by simp; omega)] at hone
    exact not_mem_replicate_zero more (List.mem_of_mem_drop hone)
  have hround : roundUp width (front.length + 1) = count * width :=
    roundUp_eq_of_le hwidth (by omega) (by omega)
  have hfill : fill .right zeros (front ++ '1' :: List.replicate more '0') =
      front ++ '1' :: List.replicate (more + zeros) '0' := by
    simp [fill]
  rw [hfill, strip_right_eq, hround, ← hfill]
  exact List.take_left' hlen

/-! ## Both edges -/

theorem fill_reverse (edge : Edge) (zeros : Nat) (bits : Text) :
    fill edge.opposite zeros bits.reverse = (fill edge zeros bits).reverse := by
  cases edge <;> simp [fill, Edge.opposite]

/-- Reversed bits are stripped at the other edge. -/
theorem strip_reverse (edge : Edge) (width : Nat) (bits : Text) :
    strip edge.opposite width bits.reverse = (strip edge width bits).reverse := by
  by_cases hone : '1' ∈ bits
  · cases edge with
    | left =>
      rw [Edge.opposite, strip, strip, if_pos (by simpa using hone), if_pos (by simpa using hone)]
      simp [Text.dropWhileEnd, List.take_reverse]
    | right =>
      rw [Edge.opposite, strip, strip, if_pos (by simpa using hone), if_pos (by simpa using hone)]
      simp only [Text.dropWhileEnd, List.length_reverse, List.drop_reverse]
      rw [Nat.sub_sub_eq_min, Nat.min_comm, ← List.take_eq_take_min]
  · rw [strip_of_not_mem edge width hone, strip_of_not_mem _ width (by simpa using hone)]
    rfl

/-- Zeros and no one are taken off the edge. -/
theorem exists_fill_strip (edge : Edge) (width : Nat) (hdigits : Numeral.Digits 2 bits)
    (hone : '1' ∈ bits) :
    '1' ∈ strip edge width bits ∧ ∃ zeros, bits = fill edge zeros (strip edge width bits) := by
  cases edge with
  | right => exact exists_fill_strip_right width hdigits hone
  | left =>
    have hreversed : Numeral.Digits 2 bits.reverse := hdigits.of_mem fun _ => List.mem_reverse.mp
    obtain ⟨hmem, zeros, hfill⟩ :=
      exists_fill_strip_right width hreversed (List.mem_reverse.mpr hone)
    have hstrip : strip .right width bits.reverse = (strip .left width bits).reverse :=
      strip_reverse .left width bits
    rw [hstrip] at hmem hfill
    have hfill' : fill .right zeros (strip .left width bits).reverse =
        (fill .left zeros (strip .left width bits)).reverse := fill_reverse .left zeros _
    exact ⟨List.mem_reverse.mp hmem, zeros, List.reverse_injective (hfill.trans hfill')⟩

/-- Whole chunks that are filled up with zeros are what stripping leaves, if there is a one
    in the chunk next to the edge. -/
theorem strip_fill (edge : Edge) (hwidth : 4 ≤ width) (hdigits : Numeral.Digits 2 kept)
    (hlen : kept.length = count * width) (hone : '1' ∈ outermost edge width kept) (zeros : Nat) :
    strip edge width (fill edge zeros kept) = kept := by
  cases edge with
  | right => exact strip_fill_right hwidth hdigits hlen hone zeros
  | left =>
    have hreversed : Numeral.Digits 2 kept.reverse := hdigits.of_mem fun _ => List.mem_reverse.mp
    have hlast : '1' ∈ kept.reverse.drop (kept.reverse.length - width) := by
      rw [List.length_reverse, List.drop_reverse, List.mem_reverse]
      rw [outermost, List.take_eq_take_min] at hone
      rwa [Nat.sub_sub_eq_min, Nat.min_comm]
    have hstrip := strip_fill_right hwidth hreversed (by rwa [List.length_reverse]) hlast zeros
    have hfill : fill .right zeros kept.reverse = (fill .left zeros kept).reverse :=
      fill_reverse .left zeros kept
    apply List.reverse_injective
    rw [← strip_reverse, ← hfill]
    exact hstrip

/-- Of whole chunks whole chunks stay. -/
theorem dvd_length_strip (edge : Edge) (hwidth : 4 ≤ width) (hone : '1' ∈ bits)
    (hlen : width ∣ bits.length) : width ∣ (strip edge width bits).length := by
  have hround (n : Nat) : width ∣ min (roundUp width n) bits.length := by
    rcases Nat.le_total (roundUp width n) bits.length with h | h
    · rw [Nat.min_eq_left h]
      exact dvd_roundUp hwidth n
    · rw [Nat.min_eq_right h]
      exact hlen
  cases edge with
  | left =>
    rw [strip, if_pos (by simpa using hone), List.length_drop, Nat.sub_sub_eq_min, Nat.min_comm]
    exact hround _
  | right =>
    rw [strip, if_pos (by simpa using hone), List.length_take]
    exact hround _

/-! ## Numbers -/

/-- Bits are written as their value in decimal. -/
theorem toDecimal_of_digits (hdigits : Numeral.Digits 2 bits) :
    toDecimal bits = .ok (Nat.toDigits 10 (Numeral.value 2 bits)) := by
  by_cases hnil : bits = []
  · subst hnil
    rfl
  · have hbinary : Numeral.isBinary bits = true :=
      (Numeral.isBinary_iff bits).mpr ⟨hnil, hdigits⟩
    rw [toDecimal, if_neg (by simpa using hnil), if_pos hbinary]

/-- Decimal digits are turned into the bits of their value. -/
theorem ofDecimal_of_digits {decimal : Text} (hdigits : Numeral.Digits 10 decimal) :
    ofDecimal decimal = .ok (Nat.toDigits 2 (Numeral.value 10 decimal)) := by
  by_cases hnil : decimal = []
  · subst hnil
    rfl
  · have hdecimal : Numeral.isDecimal decimal = true :=
      (Numeral.isDecimal_iff decimal).mpr ⟨hnil, hdigits⟩
    rw [ofDecimal, if_neg (by simpa using hnil), if_pos hdecimal]

/-- Zeros in front of a number do not count. -/
theorem toDecimal_strip_left (width : Nat) (hdigits : Numeral.Digits 2 bits) :
    toDecimal (strip .left width bits) = .ok (Nat.toDigits 10 (Numeral.value 2 bits)) := by
  by_cases hone : '1' ∈ bits
  · obtain ⟨-, zeros, hfill⟩ := exists_fill_strip .left width hdigits hone
    generalize strip .left width bits = kept at hfill
    subst hfill
    have hkept : Numeral.Digits 2 kept := (Numeral.digits_append.mp hdigits).2
    rw [toDecimal_of_digits hkept, value_fill_left]
  · rw [strip_of_not_mem .left width hone, value_of_not_mem hdigits hone]
    rfl

end Bits

end EpcTag
