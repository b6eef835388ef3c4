-- SUMMARY: Hexadecimal text: bits come back from it with the zeros that make up its first digit, and it comes back in upper case.
import EpcTag.Bits
import EpcTag.Proofs.Compaction
import EpcTag.Text.UpperCase

/-!
# Hexadecimal text

A hexadecimal digit stands for four bits. So bits that are written in hexadecimal
come back with up to three zeros in front, and these are all that is added: the
bits of a hexadecimal text are written as the same text in upper case, and no
other bits are but for zeros in front.
-/

namespace EpcTag.Bits

/-! ## Digits -/

/-- The digit of a number stands for it. -/
theorem hexDigit?_hexDigit {n : Nat} (h : n < 16) : Text.hexDigit? (hexDigit n) = some n := by
  interval_cases n <;> decide

/-- A digit is, in upper case, the digit of the number that it stands for. -/
theorem of_hexDigit? {c : Char} {n : Nat} (h : Text.hexDigit? c = some n) :
    n < 16 ∧ Text.upperChar c = [hexDigit n] := by
  have htable : ∀ code < 128, ∀ value ∈ Text.hexDigit? (Char.ofNat code),
      value < 16 ∧ Text.upperChar (Char.ofNat code) = [hexDigit value] := by decide +kernel
  have hascii : c.toNat < 128 := by
    unfold Text.hexDigit? at h
    split at h
    · next hdigit =>
      have := (Numeral.isAsciiDigit_iff c).mp hdigit
      have h0 : '0'.toNat = 48 := rfl
      omega
    · split at h
      · next hupper => exact Nat.lt_of_le_of_lt hupper.2 (by decide)
      · split at h
        · next hlower => exact Nat.lt_of_le_of_lt hlower.2 (by decide)
        · cases h
  rw [← Char.ofNat_toNat c] at h ⊢
  exact htable c.toNat hascii n h

/-- The digits of a hexadecimal text stand for numbers below sixteen, and they are the
    digits of these in upper case. -/
theorem of_mapM_hexDigit? {hex : Text} {digits : List Nat}
    (h : hex.mapM Text.hexDigit? = some digits) :
    (∀ n ∈ digits, n < 16) ∧ Text.upper hex = digits.map hexDigit := by
  induction hex generalizing digits with
  | nil =>
    cases h
    exact ⟨by simp, rfl⟩
  | cons c hex ih =>
    simp only [List.mapM_cons, Option.pure_def, Option.bind_eq_bind, Option.bind_eq_some_iff,
      Option.some.injEq] at h
    obtain ⟨n, hn, rest, hrest, rfl⟩ := h
    obtain ⟨hlt, hupper⟩ := of_hexDigit? hn
    obtain ⟨hlts, huppers⟩ := ih hrest
    refine ⟨List.forall_mem_cons.mpr ⟨hlt, hlts⟩, ?_⟩
    change Text.upperChar c ++ Text.upper hex = _
    rw [hupper, huppers]
    rfl

theorem mapM_hexDigit?_hexDigit {digits : List Nat} (h : ∀ n ∈ digits, n < 16) :
    (digits.map hexDigit).mapM Text.hexDigit? = some digits := by
  induction digits with
  | nil => rfl
  | cons n digits ih =>
    obtain ⟨hn, hdigits⟩ := List.forall_mem_cons.mp h
    rw [List.map_cons, List.mapM_cons, hexDigit?_hexDigit hn, ih hdigits]
    rfl

/-! ## Groups of four bits -/

/-- The bits of the digits. -/
theorem ofHex_eq_ok_iff {hex bits : Text} :
    ofHex hex = .ok bits ↔ ∃ digits, hex.mapM Text.hexDigit? = some digits ∧
      bits = digits.flatMap (Numeral.padded 2 4) := by
  rw [ofHex]
  split
  · next digits hdigits => simp [hdigits, eq_comm]
  · next hnone => simp [hnone]

theorem length_padded_nibble {n : Nat} (h : n < 16) : (Numeral.padded 2 4 n).length = 4 :=
  Numeral.length_padded (by decide) (by decide) h

theorem digits_nibbles (digits : List Nat) :
    Numeral.Digits 2 (digits.flatMap (Numeral.padded 2 4)) := by
  intro c hc
  obtain ⟨n, -, hc⟩ := List.mem_flatMap.mp hc
  exact Numeral.digits_padded (by decide) (by decide) 4 n c hc

theorem length_nibbles {digits : List Nat} (h : ∀ n ∈ digits, n < 16) :
    (digits.flatMap (Numeral.padded 2 4)).length = 4 * digits.length := by
  induction digits with
  | nil => rfl
  | cons n digits ih =>
    obtain ⟨hn, hdigits⟩ := List.forall_mem_cons.mp h
    rw [List.flatMap_cons, List.length_append, length_padded_nibble hn, ih hdigits,
      List.length_cons]
    omega

/-- Whole groups of four bits are those of numbers below sixteen. -/
theorem exists_nibbles {bits : Text} (hbits : Numeral.Digits 2 bits) (hlen : 4 ∣ bits.length) :
    ∃ digits : List Nat, (∀ n ∈ digits, n < 16) ∧
      bits = digits.flatMap (Numeral.padded 2 4) := by
  obtain ⟨count, hcount⟩ := hlen
  obtain ⟨parts, -, hparts, rfl⟩ := Text.exists_flatten (hcount.trans (Nat.mul_comm 4 count))
  have hdigits : ∀ part ∈ parts, Numeral.Digits 2 part := fun part hpart =>
    hbits.of_mem fun c hc => List.mem_flatten.mpr ⟨part, hpart, hc⟩
  refine ⟨parts.map (Numeral.value 2), ?_, ?_⟩
  · intro n hn
    obtain ⟨part, hpart, rfl⟩ := List.mem_map.mp hn
    have hlt := Numeral.value_lt (hdigits part hpart)
    rwa [hparts part hpart] at hlt
  · rw [List.flatMap_def, List.map_map]
    congr 1
    refine (List.map_id' parts).symm.trans (List.map_congr_left fun part hpart => ?_)
    exact (Numeral.padded_value (by decide) (by decide) (by decide) (hdigits part hpart)
      (hparts part hpart)).symm

/-! ## There and back -/

theorem wholeNibbles_of_dvd {bits : Text} (h : 4 ∣ bits.length) : wholeNibbles bits = bits := by
  have hzero : (4 - bits.length % 4) % 4 = 0 := by omega
  rw [wholeNibbles, hzero]
  rfl

theorem dvd_length_wholeNibbles (bits : Text) : 4 ∣ (wholeNibbles bits).length := by
  rw [wholeNibbles, List.length_append, List.length_replicate]
  omega

theorem digits_wholeNibbles {bits : Text} (h : Numeral.Digits 2 bits) :
    Numeral.Digits 2 (wholeNibbles bits) :=
  Numeral.digits_append.mpr ⟨Numeral.digits_replicate_zero (by decide) _, h⟩

/-- Numbers below sixteen are written by their digits. -/
theorem toHex_nibbles {digits : List Nat} (h : ∀ n ∈ digits, n < 16) :
    toHex (digits.flatMap (Numeral.padded 2 4)) = .ok (digits.map hexDigit) := by
  have hwhole : wholeNibbles (digits.flatMap (Numeral.padded 2 4)) =
      (digits.map (Numeral.padded 2 4)).flatten := by
    rw [wholeNibbles_of_dvd (by rw [length_nibbles h]; exact Nat.dvd_mul_right 4 _),
      List.flatMap_def]
  have hparts : ∀ part ∈ digits.map (Numeral.padded 2 4), part.length = 4 := by
    intro part hpart
    obtain ⟨n, hn, rfl⟩ := List.mem_map.mp hpart
    exact length_padded_nibble (h n hn)
  rw [toHex, if_pos ((Numeral.all_isBit_iff _).mpr (digits_nibbles digits)), hwhole,
    Text.chunks_flatten (by decide) hparts, List.map_map]
  congr 1
  refine List.map_congr_left fun n _ => ?_
  rw [Function.comp_apply, Numeral.value_padded (by decide) (by decide)]

/-- Zeros that fill up the first group do not change what is written. -/
theorem toHex_wholeNibbles {bits : Text} (h : Numeral.Digits 2 bits) :
    toHex (wholeNibbles bits) = toHex bits := by
  rw [toHex, toHex, wholeNibbles_of_dvd (dvd_length_wholeNibbles bits),
    if_pos ((Numeral.all_isBit_iff _).mpr h),
    if_pos ((Numeral.all_isBit_iff _).mpr (digits_wholeNibbles h))]

/-- Bits are written in hexadecimal, and they come back with the first digit filled up. -/
theorem exists_toHex {bits : Text} (h : Numeral.Digits 2 bits) :
    ∃ hex, toHex bits = .ok hex ∧ ofHex hex = .ok (wholeNibbles bits) := by
  obtain ⟨digits, hlt, hdigits⟩ := exists_nibbles (digits_wholeNibbles h)
    (dvd_length_wholeNibbles bits)
  refine ⟨digits.map hexDigit, ?_, ?_⟩
  · rw [← toHex_wholeNibbles h, hdigits, toHex_nibbles hlt]
  · exact ofHex_eq_ok_iff.mpr ⟨digits, mapM_hexDigit?_hexDigit hlt, hdigits⟩

/-- A hexadecimal text comes back from its bits in upper case. -/
theorem toHex_ofHex {hex bits : Text} (h : ofHex hex = .ok bits) :
    toHex bits = .ok (Text.upper hex) := by
  obtain ⟨digits, hdigits, rfl⟩ := ofHex_eq_ok_iff.mp h
  obtain ⟨hlt, hupper⟩ := of_mapM_hexDigit? hdigits
  rw [toHex_nibbles hlt, hupper]

/-- A hexadecimal text has whole groups of four bits. -/
theorem digits_ofHex {hex bits : Text} (h : ofHex hex = .ok bits) :
    Numeral.Digits 2 bits ∧ 4 ∣ bits.length := by
  obtain ⟨digits, hdigits, rfl⟩ := ofHex_eq_ok_iff.mp h
  refine ⟨digits_nibbles digits, ?_⟩
  rw [length_nibbles (of_mapM_hexDigit? hdigits).1]
  exact Nat.dvd_mul_right 4 _

/-- The bits that are written as a hexadecimal text in upper case are those that it stands
    for, but for zeros in front. -/
theorem toHex_eq_upper_iff {hex whole bits : Text} (h : ofHex hex = .ok whole) :
    toHex bits = .ok (Text.upper hex) ↔ Numeral.Digits 2 bits ∧ wholeNibbles bits = whole := by
  obtain ⟨hwhole, hdvd⟩ := digits_ofHex h
  constructor
  · intro hbits
    have hdigits : Numeral.Digits 2 bits := by
      rw [← Numeral.all_isBit_iff]
      by_contra hnot
      rw [toHex, if_neg hnot] at hbits
      cases hbits
    -- both are read back from the same text
    obtain ⟨hex', hhex', hback⟩ := exists_toHex hdigits
    obtain ⟨hex'', hhex'', hback'⟩ := exists_toHex hwhole
    rw [hbits] at hhex'
    rw [toHex_ofHex h] at hhex''
    cases hhex'
    cases hhex''
    rw [wholeNibbles_of_dvd hdvd] at hback'
    exact ⟨hdigits, Except.ok.inj (hback.symm.trans hback')⟩
  · rintro ⟨hdigits, rfl⟩
    rw [← toHex_wholeNibbles hdigits, toHex_ofHex h]

end EpcTag.Bits
