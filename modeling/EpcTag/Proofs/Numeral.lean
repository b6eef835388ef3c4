-- SUMMARY: Positional notation: the value of digit runs, leading zeros, and numerals of fixed width.
import EpcTag.Number.Numeral
import EpcTag.Proofs.Text

/-!
# Positional notation

A run of digits denotes its value in a base. Leading zeros do not count, so a
value has exactly one run of each sufficient width and exactly one run without
leading zeros, which is the one that `Nat.toDigits` writes.
-/

namespace EpcTag.Numeral

/-! ## Digits -/

/-- The text consists of digits below `base`. -/
def Digits (base : Nat) (text : Text) : Prop :=
  ∀ c ∈ text, '0'.toNat ≤ c.toNat ∧ c.toNat < '0'.toNat + base

-- the characters of the text are tried, and not all characters
instance (base : Nat) (text : Text) : Decidable (Digits base text) :=
  List.decidableBAll _ text

/-- The text starts with no zero, unless it is the zero itself. -/
def NoLeadingZero (text : Text) : Prop := text = ['0'] ∨ text.head? ≠ some '0'

theorem Digits.mono {base base' : Nat} {text : Text} (h : Digits base text) (hle : base ≤ base') :
    Digits base' text := by
  intro c hc
  have := h c hc
  exact ⟨this.1, by omega⟩

@[simp] theorem digits_nil (base : Nat) : Digits base [] := by simp [Digits]

@[simp] theorem digits_cons {base : Nat} {c : Char} {text : Text} :
    Digits base (c :: text) ↔
      ('0'.toNat ≤ c.toNat ∧ c.toNat < '0'.toNat + base) ∧ Digits base text := by
  simp [Digits]

@[simp] theorem digits_append {base : Nat} {a b : Text} :
    Digits base (a ++ b) ↔ Digits base a ∧ Digits base b := by
  simp only [Digits, List.mem_append]
  constructor
  · intro h
    exact ⟨fun c hc => h c (.inl hc), fun c hc => h c (.inr hc)⟩
  · rintro ⟨ha, hb⟩ c (hc | hc)
    · exact ha c hc
    · exact hb c hc

theorem Digits.of_mem {base : Nat} {a b : Text} (h : Digits base b) (hsub : ∀ c ∈ a, c ∈ b) :
    Digits base a := fun c hc => h c (hsub c hc)

theorem Digits.take {base : Nat} {text : Text} (h : Digits base text) (n : Nat) :
    Digits base (text.take n) := h.of_mem fun _ hc => List.mem_of_mem_take hc

theorem Digits.drop {base : Nat} {text : Text} (h : Digits base text) (n : Nat) :
    Digits base (text.drop n) := h.of_mem fun _ hc => List.mem_of_mem_drop hc

theorem digits_replicate_zero {base : Nat} (hbase : 0 < base) (n : Nat) :
    Digits base (List.replicate n '0') := by
  intro c hc
  rw [List.eq_of_mem_replicate hc]
  exact ⟨le_rfl, by omega⟩

theorem isAsciiDigit_iff (c : Char) :
    Text.isAsciiDigit c = true ↔ '0'.toNat ≤ c.toNat ∧ c.toNat < '0'.toNat + 10 := by
  simp only [Text.isAsciiDigit, Bool.and_eq_true, decide_eq_true_eq, Char.le_def,
    UInt32.le_iff_toNat_le]
  have h9 : '9'.val.toNat = 57 := rfl
  have h0 : '0'.toNat = 48 := rfl
  change '0'.toNat ≤ c.toNat ∧ c.toNat ≤ '9'.val.toNat ↔ _
  omega

theorem isBit_iff (c : Char) :
    isBit c = true ↔ '0'.toNat ≤ c.toNat ∧ c.toNat < '0'.toNat + 2 := by
  simp only [isBit, Bool.or_eq_true, beq_iff_eq, ← Char.toNat_inj]
  have h0 : '0'.toNat = 48 := rfl
  have h1 : '1'.toNat = 49 := rfl
  omega

theorem all_isAsciiDigit_iff (text : Text) :
    text.all Text.isAsciiDigit = true ↔ Digits 10 text := by
  simp only [List.all_eq_true, isAsciiDigit_iff, Digits]

theorem all_isBit_iff (text : Text) : text.all isBit = true ↔ Digits 2 text := by
  simp only [List.all_eq_true, isBit_iff, Digits]

theorem isDecimal_iff (text : Text) : isDecimal text = true ↔ text ≠ [] ∧ Digits 10 text := by
  rw [isDecimal, Bool.and_eq_true, all_isAsciiDigit_iff]
  simp

theorem isBinary_iff (text : Text) : isBinary text = true ↔ text ≠ [] ∧ Digits 2 text := by
  rw [isBinary, Bool.and_eq_true, all_isBit_iff]
  simp

/-- Writing the digit of a digit's value gives the digit back. -/
theorem digitChar_toNat_sub {base : Nat} {c : Char} (hbase : base ≤ 10)
    (h : '0'.toNat ≤ c.toNat ∧ c.toNat < '0'.toNat + base) :
    Nat.digitChar (c.toNat - '0'.toNat) = c := by
  obtain ⟨h0, h1⟩ := h
  have hz : '0'.toNat = 48 := rfl
  have hc : c = Char.ofNat c.toNat := (Char.ofNat_toNat c).symm
  rw [hz] at h0 h1 ⊢
  obtain ⟨d, hd⟩ : ∃ d, c.toNat = 48 + d := ⟨c.toNat - 48, by omega⟩
  rw [hc, hd]
  have hd10 : d < 10 := by omega
  interval_cases d <;> rfl

/-! ## Values -/

@[simp] theorem value_nil (base : Nat) : value base [] = 0 := rfl

theorem value_append_singleton (base : Nat) (text : Text) (c : Char) :
    value base (text ++ [c]) = base * value base text + (c.toNat - '0'.toNat) := by
  simp [value, Nat.ofDigitChars_append, Nat.ofDigitChars_cons]

theorem value_append (base : Nat) (a b : Text) :
    value base (a ++ b) = value base a * base ^ b.length + value base b := by
  induction b using List.reverseRecOn with
  | nil => simp
  | append_singleton b c ih =>
    rw [← List.append_assoc, value_append_singleton, ih, value_append_singleton]
    simp only [List.length_append, List.length_singleton, pow_succ]
    ring

theorem value_cons (base : Nat) (c : Char) (text : Text) :
    value base (c :: text) = (c.toNat - '0'.toNat) * base ^ text.length + value base text := by
  have := value_append base [c] text
  simpa [value, Nat.ofDigitChars_cons] using this

theorem value_lt {base : Nat} {text : Text} (h : Digits base text) :
    value base text < base ^ text.length := by
  induction text using List.reverseRecOn with
  | nil => simp
  | append_singleton text c ih =>
    obtain ⟨htext, hc⟩ := digits_append.mp h
    have hc' := (digits_cons.mp hc).1
    have hlt := ih htext
    rw [value_append_singleton, List.length_append, List.length_singleton, pow_succ]
    calc base * value base text + (c.toNat - '0'.toNat)
        < base * value base text + base := by omega
      _ = base * (value base text + 1) := by ring
      _ ≤ base * base ^ text.length := Nat.mul_le_mul_left _ hlt
      _ = base ^ text.length * base := by ring

/-- Two runs of one length that have one value are the same run. -/
theorem value_injective {base : Nat} {a b : Text} (hbase : base ≤ 10) (ha : Digits base a)
    (hb : Digits base b) (hlen : a.length = b.length) (h : value base a = value base b) :
    a = b := by
  induction a generalizing b with
  | nil => exact (List.length_eq_zero_iff.mp hlen.symm).symm
  | cons c a ih =>
    cases b with
    | nil => simp at hlen
    | cons d b =>
      simp only [List.length_cons, Nat.add_right_cancel_iff] at hlen
      obtain ⟨hc, ha'⟩ := digits_cons.mp ha
      obtain ⟨hd, hb'⟩ := digits_cons.mp hb
      have hlta := value_lt ha'
      have hltb := value_lt hb'
      rw [value_cons, value_cons, hlen] at h
      rw [hlen] at hlta
      have hpos : 0 < base ^ b.length := Nat.lt_of_le_of_lt (Nat.zero_le _) hltb
      -- quotient and remainder by the weight of the first digit
      have hdigit : c.toNat - '0'.toNat = d.toNat - '0'.toNat := by
        have := congrArg (· / base ^ b.length) h
        simpa [Nat.add_div_of_dvd_right, Nat.mul_div_cancel _ hpos, Nat.div_eq_of_lt hlta,
          Nat.div_eq_of_lt hltb, Nat.add_comm, Nat.add_mul_div_right _ _ hpos] using this
      have hrest : value base a = value base b := by rw [hdigit] at h; omega
      rw [ih ha' hb' hlen hrest, ← digitChar_toNat_sub hbase hc, hdigit,
        digitChar_toNat_sub hbase hd]

theorem value_replicate_zero (base n : Nat) (text : Text) :
    value base (List.replicate n '0' ++ text) = value base text := by
  simp [value, Nat.ofDigitChars_append]

/-- Zeros have the value zero. -/
theorem value_of_zeros {base : Nat} {text : Text} (h : ∀ c ∈ text, c = '0') :
    value base text = 0 := by
  have hzeros : text = List.replicate text.length '0' := List.eq_replicate_iff.mpr ⟨rfl, h⟩
  have hvalue := value_replicate_zero base text.length []
  rwa [List.append_nil, ← hzeros] at hvalue

/-- Leading zeros do not count. -/
theorem value_dropWhile_zero (base : Nat) (text : Text) :
    value base (text.dropWhile (· == '0')) = value base text := by
  induction text with
  | nil => rfl
  | cons c text ih =>
    by_cases h : c = '0'
    · subst h
      simp only [List.dropWhile_cons, beq_self_eq_true, if_true, ih, value_cons]
      simp
    · simp [h]

/-! ## Written numbers -/

theorem digits_toDigits {base : Nat} (hbase : 1 < base) (hle : base ≤ 10) (n : Nat) :
    Digits base (Nat.toDigits base n) := by
  have hdigit : ∀ d < base, Digits base [Nat.digitChar d] := by
    intro d hd
    have : (Nat.digitChar d).toNat = '0'.toNat + d := by
      have hd10 : d < 10 := by omega
      interval_cases d <;> rfl
    simp [this, hd]
  induction n using Nat.strong_induction_on with
  | _ n ih =>
    rw [Nat.toDigits_eq_if hbase]
    split
    · next hlt => exact hdigit n hlt
    · next hge =>
      refine digits_append.mpr ⟨ih (n / base) (Nat.div_lt_self (by omega) hbase), ?_⟩
      exact hdigit _ (Nat.mod_lt _ (by omega))

/-- A written number has no leading zeros. -/
theorem noLeadingZero_toDigits {base : Nat} (hbase : 1 < base) (hle : base ≤ 10) (n : Nat) :
    NoLeadingZero (Nat.toDigits base n) := by
  by_cases hn : n = 0
  · exact .inl (by rw [hn, Nat.toDigits_zero])
  · right
    induction n using Nat.strong_induction_on with
    | _ n ih =>
      rw [Nat.toDigits_eq_if hbase]
      split
      · simpa using hn
      · next hge =>
        have hdiv : n / base ≠ 0 := Nat.div_ne_zero_iff.mpr ⟨by omega, by omega⟩
        rw [List.head?_append_of_ne_nil _ Nat.toDigits_ne_nil]
        exact ih (n / base) (Nat.div_lt_self (by omega) hbase) hdiv

/-- A run without leading zeros is how its value is written. -/
theorem toDigits_value {base : Nat} {text : Text} (hbase : 1 < base) (hle : base ≤ 10)
    (hne : text ≠ []) (hdigits : Digits base text) (hzero : NoLeadingZero text) :
    Nat.toDigits base (value base text) = text := by
  induction text using List.reverseRecOn with
  | nil => exact absurd rfl hne
  | append_singleton text c ih =>
    obtain ⟨htext, hc⟩ := digits_append.mp hdigits
    have hc' := (digits_cons.mp hc).1
    rw [value_append_singleton]
    by_cases hnil : text = []
    · subst hnil
      rw [List.nil_append, value_nil, Nat.mul_zero, Nat.zero_add,
        Nat.toDigits_of_lt_base (by omega), digitChar_toNat_sub hle hc']
    · -- what stands in front of the last digit has no leading zero and is not zero
      have hhead : (text ++ [c]).head? = text.head? := by
        cases text with
        | nil => exact absurd rfl hnil
        | cons d text => rfl
      have hlead : text.head? ≠ some '0' := by
        rcases hzero with h | h
        · have := congrArg List.length h
          simp only [List.length_append, List.length_singleton] at this
          exact absurd (List.length_eq_zero_iff.mp (by omega)) hnil
        · rwa [hhead] at h
      have hih := ih hnil htext (.inr hlead)
      have hpos : 0 < value base text := by
        rcases Nat.eq_zero_or_pos (value base text) with h | h
        · rw [h, Nat.toDigits_zero] at hih
          exact absurd (by rw [← hih]; rfl) hlead
        · exact h
      rw [← Nat.toDigits_append_toDigits hbase hpos (by omega), hih,
        Nat.toDigits_of_lt_base (by omega), digitChar_toNat_sub hle hc']

/-- Different numbers are written differently. -/
theorem ofNat_injective : Function.Injective Text.ofNat := by
  intro n m hsame
  have hvalue : value 10 (Nat.toDigits 10 n) = value 10 (Nat.toDigits 10 m) :=
    congrArg (value 10) hsame
  rwa [value_toDigits (by decide) le_rfl, value_toDigits (by decide) le_rfl] at hvalue

/-- A run of digits without its leading zeros; a run of nothing but zeros is a single zero. -/
def unpadded (text : Text) : Text :=
  if text.all (· == '0') then ['0'] else text.dropWhile (· == '0')

/-- A run of digits without its leading zeros is how its value is written. -/
theorem toDigits_value_eq_unpadded {base : Nat} {text : Text} (hbase : 1 < base) (hle : base ≤ 10)
    (hdigits : Digits base text) : Nat.toDigits base (value base text) = unpadded text := by
  rw [unpadded]
  split
  · next hzeros =>
    -- zeros only: one of them is left
    have hzero (c : Char) (hc : c ∈ text) : c = '0' := by
      simpa using List.all_eq_true.mp hzeros c hc
    rw [value_of_zeros hzero, Nat.toDigits_zero]
  · next hzeros =>
    have hne : text.dropWhile (· == '0') ≠ [] := by
      intro hnil
      exact hzeros (List.all_eq_true.mpr (List.dropWhile_eq_nil_iff.mp hnil))
    have hhead : (text.dropWhile (· == '0')).head? ≠ some '0' := by
      intro hzero
      have hfirst := List.head?_dropWhile_not (· == '0') text
      rw [hzero] at hfirst
      simp at hfirst
    have hrest : Digits base (text.dropWhile (· == '0')) :=
      hdigits.of_mem fun _ hc => List.dropWhile_subset _ hc
    rw [← value_dropWhile_zero]
    exact toDigits_value hbase hle hne hrest (.inr hhead)

/-! ## Fixed width -/

theorem value_padded {base : Nat} (hbase : 1 < base) (hle : base ≤ 10) (width n : Nat) :
    value base (padded base width n) = n := by
  rw [padded, value_replicate_zero, value_toDigits hbase hle]

theorem digits_padded {base : Nat} (hbase : 1 < base) (hle : base ≤ 10) (width n : Nat) :
    Digits base (padded base width n) :=
  digits_append.mpr ⟨digits_replicate_zero (by omega) _, digits_toDigits hbase hle n⟩

theorem length_padded {base width n : Nat} (hbase : 1 < base) (hwidth : 0 < width)
    (h : n < base ^ width) : (padded base width n).length = width := by
  have := (Nat.length_toDigits_le_iff hbase hwidth).mpr h
  simp only [padded, List.length_append, List.length_replicate]
  omega

theorem padded_zero {base width : Nat} (hbase : 1 < base) (hwidth : 0 < width) :
    padded base width 0 = List.replicate width '0' := by
  have hzero : Nat.toDigits base 0 = ['0'] := Nat.toDigits_of_lt_base (by omega)
  rw [padded, hzero]
  change List.replicate (width - 1) '0' ++ List.replicate 1 '0' = _
  rw [List.replicate_append_replicate, Nat.sub_add_cancel hwidth]

/-- A run of digits is its value, filled up to its width. -/
theorem padded_value {base width : Nat} {text : Text} (hbase : 1 < base) (hle : base ≤ 10)
    (hwidth : 0 < width) (hdigits : Digits base text) (hlen : text.length = width) :
    padded base width (value base text) = text := by
  have hlt : value base text < base ^ width := hlen ▸ value_lt hdigits
  refine value_injective hle (digits_padded hbase hle _ _) hdigits ?_ (value_padded hbase hle _ _)
  rw [length_padded hbase hwidth hlt, hlen]

/-- Zeros are put in front of digits, which have no sign. -/
theorem zeroFill_of_digits {base : Nat} {text : Text} (h : Digits base text) (width : Nat) :
    Text.zeroFill width text = List.replicate (width - text.length) '0' ++ text := by
  cases text with
  | nil => rw [Text.zeroFill, List.append_nil]
  | cons c rest =>
    have hsign : ¬ (c = '+' ∨ c = '-') := by
      rintro (rfl | rfl) <;> exact absurd (h _ List.mem_cons_self).1 (by decide)
    rw [Text.zeroFill, if_neg hsign]

theorem digits_zeroFill {base : Nat} {text : Text} (hbase : 0 < base) (h : Digits base text)
    (width : Nat) : Digits base (Text.zeroFill width text) := by
  rw [zeroFill_of_digits h]
  exact digits_append.mpr ⟨digits_replicate_zero hbase _, h⟩

theorem length_zeroFill {base width : Nat} {text : Text} (h : Digits base text)
    (hlen : text.length ≤ width) : (Text.zeroFill width text).length = width := by
  rw [zeroFill_of_digits h, List.length_append, List.length_replicate, Nat.sub_add_cancel hlen]

/-! ## Integer literals -/

theorem isMargin_of_digit {c : Char} (h : '0'.toNat ≤ c.toNat ∧ c.toNat < '0'.toNat + 10) :
    isMargin c = false := by
  rw [isMargin, Text.isBlank_of_digit h, Bool.false_and]

theorem asciiDigit_of_digit {c : Char} (h : '0'.toNat ≤ c.toNat ∧ c.toNat < '0'.toNat + 10) :
    asciiDigit c = c := by
  have h0 : '0'.toNat = 48 := rfl
  have hd := (isAsciiDigit_iff c).mpr h
  rw [asciiDigit, Text.decimalDigit?, if_pos (by omega), if_pos hd]
  exact digitChar_toNat_sub le_rfl h

theorem readGrouped?_digits {base : Nat} {text : Text} (hle : base ≤ 10) (hne : text ≠ [])
    (h : Digits base text) : readGrouped? base text = some (value base text) := by
  have hmark : '_' ∉ text := by
    intro hmem
    have hc := (h.mono hle) '_' hmem
    exact absurd hc.2 (by decide)
  have hall : text.all (fun c => Text.isAsciiDigit c && decide (c.toNat < '0'.toNat + base)) =
      true := by
    rw [List.all_eq_true]
    intro c hc
    have := h c hc
    simp only [Bool.and_eq_true, decide_eq_true_eq]
    exact ⟨(isAsciiDigit_iff c).mpr ⟨this.1, by omega⟩, this.2⟩
  simp only [readGrouped?, Text.splitAll_of_not_mem hmark, List.all_cons, List.all_nil, hall,
    List.flatten_singleton]
  simp [hne]

/-- A run of digits has no base mark. -/
theorem dropBaseMark_of_digits {text : Text} (h : Digits 10 text) : dropBaseMark 'b' text = text := by
  unfold dropBaseMark
  split
  · next c rest =>
    have hc : c.toLower ≠ 'b' := by
      have hdigit := h c (by simp)
      rw [← digitChar_toNat_sub le_rfl hdigit]
      have hlt : c.toNat - '0'.toNat < 10 := by omega
      generalize c.toNat - '0'.toNat = d at hlt
      interval_cases d <;> decide
    rw [if_neg hc]
  · rfl

/-- A run of digits is read as its value. -/
theorem readInteger?_digits {base : Nat} {text : Text} (hle : base ≤ 10) (hne : text ≠ [])
    (h : Digits base text) : readInteger? base text = some (value base text : Int) := by
  have hten := h.mono hle
  have htrim : (Text.trimBy isMargin text).map asciiDigit = text := by
    rw [Text.trimBy_eq_self fun c hc => isMargin_of_digit (hten c hc)]
    exact (List.map_congr_left fun c hc => asciiDigit_of_digit (hten c hc)).trans (List.map_id _)
  rw [readInteger?, htrim]
  cases text with
  | nil => exact absurd rfl hne
  | cons c text =>
    have hc := hten c (by simp)
    have hminus : c ≠ '-' := by rintro rfl; exact absurd hc.1 (by decide)
    have hplus : c ≠ '+' := by rintro rfl; exact absurd hc.1 (by decide)
    split
    · next heq => exact absurd (List.cons.inj heq).1 hminus
    · next heq => exact absurd (List.cons.inj heq).1 hplus
    · rw [readUnsigned?]
      split
      · rw [dropBaseMark_of_digits hten, readGrouped?_digits hle hne h]
        rfl
      · rw [readGrouped?_digits hle hne h]
        rfl

theorem readInteger?_ofNat (n : Nat) : readInteger? 10 (Text.ofNat n) = some (n : Int) := by
  have hdigits : Digits 10 (Nat.toDigits 10 n) := digits_toDigits (by decide) le_rfl n
  rw [Text.ofNat, readInteger?_digits le_rfl Nat.toDigits_ne_nil hdigits,
    value_toDigits (by decide) le_rfl]

/-- An integer in decimal digits is read as itself. -/
theorem readInteger?_ofInt (n : Int) : readInteger? 10 (Text.ofInt n) = some n := by
  cases n with
  | ofNat n => exact readInteger?_ofNat n
  | negSucc n =>
    have hdigits : Digits 10 (Text.ofNat (n + 1)) := digits_toDigits (by decide) le_rfl (n + 1)
    have hread : readUnsigned? 10 (Text.ofNat (n + 1)) = some (n + 1) := by
      rw [readUnsigned?, if_neg (by decide), Text.ofNat,
        readGrouped?_digits le_rfl Nat.toDigits_ne_nil hdigits, value_toDigits (by decide) le_rfl]
    have htrim : (Text.trimBy isMargin (Text.ofInt (.negSucc n))).map asciiDigit =
        '-' :: Text.ofNat (n + 1) := by
      rw [Text.trimBy_eq_self]
      · refine congrArg₂ List.cons (by decide) ?_
        exact (List.map_congr_left fun c hc => asciiDigit_of_digit (hdigits c hc)).trans
          (List.map_id _)
      · intro c hc
        rcases List.mem_cons.mp hc with rfl | hc
        · decide
        · exact isMargin_of_digit (hdigits c hc)
    rw [readInteger?, htrim]
    simp only [hread]
    rfl

end EpcTag.Numeral
