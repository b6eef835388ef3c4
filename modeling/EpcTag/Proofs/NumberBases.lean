-- SUMMARY: Numbers written in base two, ten and sixteen: the conversions between the bases keep the value, and there and back only zeros in front change.
import EpcTag.Proofs.Hexadecimal

/-!
# Number bases

A hexadecimal text and the bits that it stands for have the same value, and so have a
decimal text and its bits. Hexadecimal digits are converted one by one, four bits each, so
the number of digits tells the number of bits; the result is the same as if the value were
written in the other base and filled up with zeros to this width. Decimal texts are
converted by their value alone, so zeros in front of them are lost.
-/

namespace EpcTag

namespace Numeral

/-- A number of fixed width with one more digit. -/
theorem padded_append {base width n d : Nat} (hbase : 1 < base) (hwidth : 0 < width)
    (hd : d < base) :
    padded base (width + 1) (base * n + d) = padded base width n ++ [Nat.digitChar d] := by
  rcases Nat.eq_zero_or_pos n with rfl | hn
  · have hdigit : Nat.toDigits base d = [Nat.digitChar d] := Nat.toDigits_of_lt_base hd
    rw [Nat.mul_zero, Nat.zero_add, padded_zero hbase hwidth, padded, hdigit]
    rfl
  · have hdigits : Nat.toDigits base (base * n + d) = Nat.toDigits base n ++ [Nat.digitChar d] := by
      rw [← Nat.toDigits_append_toDigits hbase hn hd, Nat.toDigits_of_lt_base hd]
    simp only [padded, hdigits, List.length_append, List.length_singleton, Nat.add_sub_add_right,
      List.append_assoc]

end Numeral

namespace Bits

variable {hex bits : Text} {digits : List Nat}

/-! ## Values of hexadecimal texts -/

/-- The value of a hexadecimal text, most significant digit first. -/
def hexValue (hex : Text) : Nat := Nat.ofDigits 16 (hex.filterMap Text.hexDigit?).reverse

/-- The digits of a hexadecimal text are read one by one. -/
theorem mapM_hexDigit? (h : ∀ c ∈ hex, (Text.hexDigit? c).isSome = true) :
    hex.mapM Text.hexDigit? = some (hex.filterMap Text.hexDigit?) ∧
      (hex.filterMap Text.hexDigit?).length = hex.length := by
  induction hex with
  | nil => exact ⟨rfl, rfl⟩
  | cons c hex ih =>
    obtain ⟨hc, hhex⟩ := List.forall_mem_cons.mp h
    obtain ⟨n, hn⟩ := Option.isSome_iff_exists.mp hc
    obtain ⟨hread, hlength⟩ := ih hhex
    rw [List.filterMap_cons_some hn, List.mapM_cons, hn, hread]
    exact ⟨rfl, congrArg (· + 1) hlength⟩

/-- The value of digits with one more digit behind them. -/
theorem ofDigits_reverse_append (digits : List Nat) (d : Nat) :
    Nat.ofDigits 16 (digits ++ [d]).reverse = 16 * Nat.ofDigits 16 digits.reverse + d := by
  rw [List.reverse_append, List.reverse_singleton, List.singleton_append, Nat.ofDigits_cons]
  exact Nat.add_comm _ _

theorem value_nibbles (h : ∀ n ∈ digits, n < 16) :
    Numeral.value 2 (digits.flatMap (Numeral.padded 2 4)) = Nat.ofDigits 16 digits.reverse := by
  induction digits using List.reverseRecOn with
  | nil => rfl
  | append_singleton digits d ih =>
    obtain ⟨hdigits, hd⟩ := List.forall_mem_append.mp h
    have hlast : d < 16 := hd d List.mem_cons_self
    rw [List.flatMap_append, List.flatMap_singleton, Numeral.value_append, ih hdigits,
      length_padded_nibble hlast, Numeral.value_padded (by decide) (by decide),
      ofDigits_reverse_append, Nat.mul_comm]
    rfl

/-- Digits are written as their value is, in as many places. -/
theorem map_hexDigit (hne : digits ≠ []) (h : ∀ n ∈ digits, n < 16) :
    digits.map hexDigit =
      (Numeral.padded 16 digits.length (Nat.ofDigits 16 digits.reverse)).map Char.toUpper := by
  induction digits using List.reverseRecOn with
  | nil => exact absurd rfl hne
  | append_singleton digits d ih =>
    obtain ⟨hdigits, hd⟩ := List.forall_mem_append.mp h
    have hlast : d < 16 := hd d List.mem_cons_self
    rw [List.map_append, ofDigits_reverse_append, List.length_append, List.length_singleton]
    by_cases hnil : digits = []
    · subst hnil
      interval_cases d <;> rfl
    · rw [Numeral.padded_append (by decide) (List.length_pos_iff.mpr hnil) hlast,
        List.map_append, ih hnil hdigits]
      rfl

/-! ## Conversions by value -/

/-- The bits of a hexadecimal text have its value, and there are four for each digit. -/
theorem exists_ofHex (h : ∀ c ∈ hex, (Text.hexDigit? c).isSome = true) :
    ∃ bits, ofHex hex = .ok bits ∧ bits.length = 4 * hex.length ∧
      Numeral.value 2 bits = hexValue hex := by
  obtain ⟨hread, hlength⟩ := mapM_hexDigit? h
  have hlt := (of_mapM_hexDigit? hread).1
  refine ⟨_, ofHex_eq_ok_iff.mpr ⟨_, hread, rfl⟩, ?_, value_nibbles hlt⟩
  rw [length_nibbles hlt, hlength]

/-- Bits are written by the digits that have their value, one for each started group of
    four. -/
theorem toHex_eq_map_hexDigit (h : Numeral.Digits 2 bits) :
    ∃ digits : List Nat, toHex bits = .ok (digits.map hexDigit) ∧ (∀ n ∈ digits, n < 16) ∧
      digits.length = (bits.length + 3) / 4 ∧
      Nat.ofDigits 16 digits.reverse = Numeral.value 2 bits := by
  obtain ⟨digits, hlt, hdigits⟩ := exists_nibbles (digits_wholeNibbles h)
    (dvd_length_wholeNibbles bits)
  refine ⟨digits, ?_, hlt, ?_, ?_⟩
  · rw [← toHex_wholeNibbles h, hdigits, toHex_nibbles hlt]
  · have hcount := congrArg List.length hdigits
    rw [length_nibbles hlt, wholeNibbles, List.length_append, List.length_replicate] at hcount
    omega
  · rw [← value_nibbles hlt, ← hdigits, wholeNibbles, Numeral.value_replicate_zero]

/-- What bits are written as is their value in base sixteen, filled up with zeros. -/
theorem toHex_eq_padded (hne : bits ≠ []) (h : Numeral.Digits 2 bits) :
    toHex bits = .ok ((Numeral.padded 16 ((bits.length + 3) / 4) (Numeral.value 2 bits)).map
      Char.toUpper) := by
  obtain ⟨digits, hhex, hlt, hlength, hvalue⟩ := toHex_eq_map_hexDigit h
  have hpos := List.length_pos_iff.mpr hne
  have hsome : digits ≠ [] := by
    rintro rfl
    rw [List.length_nil] at hlength
    omega
  rw [hhex, map_hexDigit hsome hlt, hlength, hvalue]

/-- What a hexadecimal text is converted into is its value in base two, filled up with
    zeros. -/
theorem ofHex_eq_padded (hne : hex ≠ []) (h : ∀ c ∈ hex, (Text.hexDigit? c).isSome = true) :
    ofHex hex = .ok (Numeral.padded 2 (4 * hex.length) (hexValue hex)) := by
  obtain ⟨bits, hbits, hlength, hvalue⟩ := exists_ofHex h
  have hpos := List.length_pos_iff.mpr hne
  rw [hbits, ← hvalue, Numeral.padded_value (by decide) (by decide) (by omega)
    (digits_ofHex hbits).1 hlength]

/-! ## There and back -/

/-- Zeros in front of bits make whole groups of four, and no fewer zeros do. -/
theorem exists_wholeNibbles (bits : Text) :
    ∃ zeros, wholeNibbles bits = List.replicate zeros '0' ++ bits ∧
      4 ∣ zeros + bits.length ∧ ∀ fewer < zeros, ¬ 4 ∣ fewer + bits.length := by
  refine ⟨(4 - bits.length % 4) % 4, rfl, by omega, fun fewer hfewer => ?_⟩
  omega

end Bits

end EpcTag
