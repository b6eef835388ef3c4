-- SUMMARY: Packing and unpacking of characters are inverse to each other.
import EpcTag.Compaction
import EpcTag.Proofs.BitPadding

/-!
# Packed characters

Packing writes every character in one chunk of bits, so unpacking, which goes
chunk by chunk, restores the characters of the method's range. The other way
round every bit string of whole chunks is the packing of what it unpacks to.
-/

namespace EpcTag

/-! ## Chunks -/

namespace Text

theorem chunksUpTo_flatten {width : Nat} {parts : List Text} (hwidth : 0 < width)
    (hparts : ∀ part ∈ parts, part.length = width) {bound : Nat} (hbound : parts.length ≤ bound) :
    chunksUpTo width bound parts.flatten = parts := by
  induction parts generalizing bound with
  | nil => cases bound <;> rfl
  | cons part parts ih =>
    obtain ⟨bound, rfl⟩ : ∃ more, bound = more + 1 :=
      ⟨bound - 1, by simp only [List.length_cons] at hbound; omega⟩
    have hpart : part.length = width := hparts part (by simp)
    obtain ⟨c, rest, hcons⟩ := List.exists_cons_of_length_pos (by omega : 0 < part.length)
    have hrest := ih (fun other hother => hparts other (by simp [hother]))
      (by simpa using hbound : parts.length ≤ bound)
    have hstep : chunksUpTo width (bound + 1) (part ++ parts.flatten) =
        (part ++ parts.flatten).take width ::
          chunksUpTo width bound ((part ++ parts.flatten).drop width) := by
      rw [hcons]
      rfl
    rw [List.flatten_cons, hstep, List.take_left' hpart, List.drop_left' hpart, hrest]

/-- A text of whole chunks is taken apart into them. -/
theorem chunks_flatten {width : Nat} {parts : List Text} (hwidth : 0 < width)
    (hparts : ∀ part ∈ parts, part.length = width) : chunks width parts.flatten = parts := by
  refine chunksUpTo_flatten hwidth hparts ?_
  induction parts with
  | nil => simp
  | cons part parts ih =>
    have hpart := hparts part (by simp)
    have hrest := ih fun other hother => hparts other (by simp [hother])
    simp only [List.length_cons, List.flatten_cons, List.length_append]
    omega

/-- A text whose length is a multiple of the width consists of whole chunks. -/
theorem exists_flatten {width count : Nat} {text : Text} (hlen : text.length = count * width) :
    ∃ parts : List Text, parts.length = count ∧ (∀ part ∈ parts, part.length = width) ∧
      text = parts.flatten := by
  induction count generalizing text with
  | zero =>
    refine ⟨[], rfl, by simp, ?_⟩
    exact List.length_eq_zero_iff.mp (by simpa using hlen)
  | succ count ih =>
    rw [Nat.succ_mul] at hlen
    obtain ⟨parts, hcount, hparts, hrest⟩ := @ih (text.drop width) (by simp; omega)
    refine ⟨text.take width :: parts, by simp [hcount], ?_, ?_⟩
    · intro part hpart
      rcases List.mem_cons.mp hpart with rfl | hpart
      · simp; omega
      · exact hparts part hpart
    · rw [List.flatten_cons, ← hrest, List.take_append_drop]

end Text

/-! ## Packing -/

namespace Compaction

variable {method : Compaction}

theorem width_pos (method : Compaction) : 0 < method.width := by cases method <;> decide

/-- A character that unpacking restores. -/
def Restores (method : Compaction) (c : Char) : Prop :=
  method.codePoint (c.toNat % 2 ^ method.width : Nat) = c.toNat

instance (method : Compaction) (c : Char) : Decidable (method.Restores c) :=
  inferInstanceAs (Decidable (_ = _))

theorem packChar_eq (method : Compaction) (c : Char) :
    method.packChar c = Numeral.padded 2 method.width (c.toNat % 2 ^ method.width) := rfl

theorem length_packChar (method : Compaction) (c : Char) :
    (method.packChar c).length = method.width :=
  Numeral.length_padded (by decide) method.width_pos (Nat.mod_lt _ (Nat.two_pow_pos _))

theorem digits_packChar (method : Compaction) (c : Char) : Numeral.Digits 2 (method.packChar c) :=
  Numeral.digits_padded (by decide) (by decide) _ _

theorem length_pack (method : Compaction) (text : Text) :
    (method.pack text).length = text.length * method.width := by
  induction text with
  | nil => simp [pack]
  | cons c text ih =>
    rw [pack, List.flatMap_cons, List.length_append, length_packChar, ← pack, ih, List.length_cons]
    ring

theorem digits_pack (method : Compaction) (text : Text) : Numeral.Digits 2 (method.pack text) := by
  intro bit hbit
  obtain ⟨c, -, hc⟩ := List.mem_flatMap.mp hbit
  exact method.digits_packChar c bit hc

/-- Packed bits are unpacked character by character. -/
theorem unpack_pack_eq (method : Compaction) (text : Text) :
    method.unpack (method.pack text) =
      (text.map method.packChar).mapM (unpackChunk method) := by
  have hparts : ∀ part ∈ text.map method.packChar, part.length = method.width := by
    intro part hpart
    obtain ⟨c, -, rfl⟩ := List.mem_map.mp hpart
    exact method.length_packChar c
  rw [unpack, pack, List.flatMap_def, Text.chunks_flatten method.width_pos hparts]

theorem unpackChunk_packChar {c : Char} (h : method.Restores c) :
    method.unpackChunk (method.packChar c) = .ok c := by
  have hne : method.packChar c ≠ [] :=
    List.ne_nil_of_length_pos (by rw [length_packChar]; exact method.width_pos)
  have hread := Numeral.readInteger?_digits (by decide) hne (method.digits_packChar c)
  rw [packChar_eq, Numeral.value_padded (by decide) (by decide), ← packChar_eq] at hread
  simp only [unpackChunk, hread]
  rw [h, if_neg (by omega), Int.toNat_natCast, Char.ofNat_toNat]

/-- The characters that a method is meant for, by their code points. -/
def Covers : Compaction → Char → Prop
  | .five, c => 65 ≤ c.toNat ∧ c.toNat ≤ 95
  | .six, c => 32 ≤ c.toNat ∧ c.toNat ≤ 95 ∧ c.toNat ≠ 64
  | .seven, c => 1 ≤ c.toNat ∧ c.toNat ≤ 127
  | .eight, c => 1 ≤ c.toNat ∧ c.toNat ≤ 255

instance (method : Compaction) (c : Char) : Decidable (method.Covers c) := by
  cases method <;> exact inferInstanceAs (Decidable (_ ∧ _))

theorem Covers.restores {c : Char} (h : method.Covers c) : method.Restores c := by
  cases method with
  | five =>
    obtain ⟨hlow, hhigh⟩ := h
    simp only [Restores, codePoint, width]
    omega
  | six =>
    obtain ⟨hlow, hhigh, hat⟩ := h
    change codePoint .six (c.toNat % 2 ^ 6 : Nat) = c.toNat
    rw [codePoint]
    split <;> omega
  | seven =>
    obtain ⟨hlow, hhigh⟩ := h
    simp only [Restores, codePoint, width]
    omega
  | eight =>
    obtain ⟨hlow, hhigh⟩ := h
    simp only [Restores, codePoint, width]
    omega

/-- No character of the method's range is packed into zeros. -/
theorem Covers.one_mem_packChar {c : Char} (h : method.Covers c) : '1' ∈ method.packChar c := by
  by_contra hone
  have hvalue : c.toNat % 2 ^ method.width = 0 := by
    have hzero := Bits.value_of_not_mem (method.digits_packChar c) hone
    rwa [packChar_eq, Numeral.value_padded (by decide) (by decide)] at hzero
  cases method with
  | five =>
    obtain ⟨hlow, hhigh⟩ := h
    simp only [width] at hvalue
    omega
  | six =>
    obtain ⟨hlow, hhigh, hat⟩ := h
    simp only [width] at hvalue
    omega
  | seven =>
    obtain ⟨hlow, hhigh⟩ := h
    simp only [width] at hvalue
    omega
  | eight =>
    obtain ⟨hlow, hhigh⟩ := h
    simp only [width] at hvalue
    omega

/-- Unpacking restores packed characters. -/
theorem unpack_pack {text : Text} (h : ∀ c ∈ text, method.Restores c) :
    method.unpack (method.pack text) = .ok text := by
  rw [unpack_pack_eq]
  induction text with
  | nil => rfl
  | cons c text ih =>
    rw [List.map_cons, List.mapM_cons, unpackChunk_packChar (h c (by simp)),
      ih fun d hd => h d (by simp [hd])]
    rfl

/-- Every chunk is unpacked to a character that packs to it. -/
theorem exists_packChar {chunk : Text} (hdigits : Numeral.Digits 2 chunk)
    (hlen : chunk.length = method.width) :
    ∃ c, method.packChar c = chunk ∧ method.Restores c := by
  have hlt := Numeral.value_lt hdigits
  have hpadded := Numeral.padded_value (by decide) (by decide) method.width_pos hdigits hlen
  rw [hlen] at hlt
  generalize Numeral.value 2 chunk = n at hlt hpadded
  -- the code point of the number keeps it in its low bits
  obtain ⟨code, hcode, hsmall, hmod⟩ : ∃ code : Nat, method.codePoint n = code ∧ code < 256 ∧
      code % 2 ^ method.width = n := by
    cases method with
    | five => exact ⟨n + 64, rfl, by simp [width] at hlt; omega, by simp [width] at *; omega⟩
    | six =>
      by_cases h : n < 32
      · refine ⟨n + 64, ?_, by omega, by simp [width] at *; omega⟩
        rw [codePoint, if_pos (by omega)]
        rfl
      · refine ⟨n, ?_, by simp [width] at hlt; omega, by simp [width] at *; omega⟩
        rw [codePoint, if_neg (by omega)]
    | seven => exact ⟨n, rfl, by simp [width] at hlt; omega, by simp [width] at *; omega⟩
    | eight => exact ⟨n, rfl, by simp [width] at hlt; omega, by simp [width] at *; omega⟩
  have hchar : (Char.ofNat code).toNat = code := by
    have hvalid : code.isValidChar := .inl (by omega)
    rw [Char.ofNat, dif_pos hvalid]
    rfl
  refine ⟨Char.ofNat code, ?_, ?_⟩
  · rw [packChar_eq, hchar, hmod, hpadded]
  · rw [Restores, hchar, hmod, hcode]

/-- Bits of whole chunks are unpacked to the characters that they pack. -/
theorem exists_pack {bits : Text} {count : Nat} (hdigits : Numeral.Digits 2 bits)
    (hlen : bits.length = count * method.width) :
    ∃ text, text.length = count ∧ method.pack text = bits ∧ method.unpack bits = .ok text := by
  obtain ⟨parts, hcount, hparts, rfl⟩ := Text.exists_flatten hlen
  have hchars : ∃ text : Text, text.map method.packChar = parts ∧
      ∀ c ∈ text, method.Restores c := by
    -- chunk by chunk, so that the number of the chunks must not be fixed
    clear hlen hcount
    induction parts with
    | nil => exact ⟨[], rfl, by simp⟩
    | cons part parts ih =>
      rw [List.flatten_cons, Numeral.digits_append] at hdigits
      obtain ⟨c, hc, hrestores⟩ := exists_packChar hdigits.1 (hparts part (by simp))
      obtain ⟨text, htext, hall⟩ := ih (fun other hother => hparts other (by simp [hother])) hdigits.2
      refine ⟨c :: text, by rw [List.map_cons, hc, htext], ?_⟩
      intro d hd
      rcases List.mem_cons.mp hd with rfl | hd
      · exact hrestores
      · exact hall d hd
  obtain ⟨text, rfl, hall⟩ := hchars
  have hpack : method.pack text = (text.map method.packChar).flatten := by
    rw [pack, List.flatMap_def]
  rw [← hpack]
  exact ⟨text, by simpa using hcount, rfl, unpack_pack hall⟩

end Compaction

end EpcTag
