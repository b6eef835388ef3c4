-- SUMMARY: The check digit of a key: the weighted sum that it completes, and the mistakes in the key that it shows.
import EpcTag.CheckDigit
import EpcTag.Proofs.Numeral

/-!
# Check digits

The digits of a key are weighted 1, 3, 1, 3, … by their places, counted from the right
with the check digit in the first place. The check digit completes the weighted sum to a
multiple of ten, so two keys have the same check digit exactly if their sums agree modulo
ten. Both weights are prime to ten, so no single digit changes unnoticed. The weights of
neighbours differ by two, so an exchange of neighbours goes unnoticed exactly if twice
their difference is a multiple of ten.
-/

namespace EpcTag.CheckDigit

variable {digits : Text}

/-! ## Digits -/

/-- The value of a digit. -/
def valueOf (c : Char) : Nat := c.toNat - '0'.toNat

theorem valueOf_lt {c : Char} (h : Numeral.Digits 10 [c]) : valueOf c < 10 := by
  have hbounds := (Numeral.digits_cons.mp h).1
  unfold valueOf
  omega

/-- Different digits have different values. -/
theorem valueOf_injective {c d : Char} (hc : Numeral.Digits 10 [c]) (hd : Numeral.Digits 10 [d])
    (h : valueOf c = valueOf d) : c = d := by
  have hwritten : Nat.digitChar (valueOf c) = Nat.digitChar (valueOf d) := congrArg _ h
  rwa [valueOf, Numeral.digitChar_toNat_sub le_rfl (Numeral.digits_cons.mp hc).1, valueOf,
    Numeral.digitChar_toNat_sub le_rfl (Numeral.digits_cons.mp hd).1] at hwritten

theorem valueOf_digitChar {n : Nat} (h : n < 10) : valueOf (Nat.digitChar n) = n := by
  interval_cases n <;> rfl

theorem digits_digitChar {n : Nat} (h : n < 10) : Numeral.Digits 10 [Nat.digitChar n] := by
  rw [← Nat.toDigits_of_lt_base h]
  exact Numeral.digits_toDigits (by decide) le_rfl n

theorem mapM_digitValue {read : Text} (h : Numeral.Digits 10 read) :
    read.mapM (digitValue digits) = .ok (read.map valueOf) := by
  induction read with
  | nil => rfl
  | cons c rest ih =>
    obtain ⟨hc, hrest⟩ := Numeral.digits_cons.mp h
    have h0 : '0'.toNat = 48 := rfl
    have hdigit : digitValue digits c = .ok (valueOf c) := by
      rw [digitValue, Text.decimalDigit?, if_pos (by omega),
        if_pos ((Numeral.isAsciiDigit_iff c).mpr hc)]
      rfl
    rw [List.mapM_cons, hdigit, ih hrest]
    rfl

/-! ## Weighted sums -/

/-- The weight of a digit with so many digits behind it: 1, 3, 1, 3, … from the right. -/
def placeWeight (behind : Nat) : Nat := if behind % 2 = 0 then 1 else 3

/-- The sum of digits, each weighted by its place. -/
def weightedSum : Text → Nat
  | [] => 0
  | c :: rest => valueOf c * placeWeight rest.length + weightedSum rest

/-- The weighted sum of a key with a zero in place of its check digit. -/
def openSum (digits : Text) : Nat := weightedSum (digits ++ ['0'])

theorem placeWeight_cases (behind : Nat) :
    (placeWeight behind = 1 ∧ placeWeight (behind + 1) = 3) ∨
      (placeWeight behind = 3 ∧ placeWeight (behind + 1) = 1) := by
  unfold placeWeight
  rcases Nat.mod_two_eq_zero_or_one behind with h | h
  · exact .inl ⟨if_pos h, if_neg (by omega)⟩
  · exact .inr ⟨if_neg (by omega), if_pos (by omega)⟩

/-- What stands in front of parts of one length adds the same to their sums. -/
theorem weightedSum_append (front : Text) {a b : Text} (h : a.length = b.length) :
    weightedSum (front ++ a) + weightedSum b = weightedSum (front ++ b) + weightedSum a := by
  induction front with
  | nil => exact Nat.add_comm _ _
  | cons c front ih =>
    simp only [List.cons_append, weightedSum, List.length_append, h]
    omega

/-- The check digit adds its value. -/
theorem weightedSum_close (digits : Text) (check : Char) :
    weightedSum (digits ++ [check]) = openSum digits + valueOf check := by
  have hsame := weightedSum_append digits (a := [check]) (b := ['0']) rfl
  have hcheck : weightedSum [check] = valueOf check := Nat.mul_one _
  rw [hcheck] at hsame
  exact hsame

theorem openSum_cons (c : Char) (rest : Text) :
    openSum (c :: rest) = valueOf c * placeWeight (rest.length + 1) + openSum rest := by
  simp [openSum, weightedSum]

/-- What stands in front of parts of one length adds the same to their open sums. -/
theorem openSum_append (front : Text) {a b : Text} (h : a.length = b.length) :
    openSum (front ++ a) + openSum b = openSum (front ++ b) + openSum a := by
  rw [openSum, openSum, openSum, List.append_assoc, List.append_assoc]
  exact weightedSum_append front (by simp [h])

/-- The digit that is looked at last has the weight of its place. -/
theorem weighted_append_singleton {weight : Nat} (hweight : weight ≤ 4) (values : List Nat)
    (d : Nat) : weighted weight (values ++ [d]) =
      weighted weight values + d * if values.length % 2 = 0 then weight else 4 - weight := by
  induction values generalizing weight with
  | nil => simp [weighted]
  | cons v values ih =>
    have hback : 4 - (4 - weight) = weight := by omega
    rw [List.cons_append, weighted, weighted, ih (by omega), hback, Nat.add_assoc,
      List.length_cons]
    congr 3
    rcases Nat.mod_two_eq_zero_or_one values.length with h | h
    · rw [if_pos h, if_neg (by omega)]
    · rw [if_neg (by omega), if_pos (by omega)]

/-- The digits of a key from the right, from the weight three on, have its open sum. -/
theorem weighted_reverse (digits : Text) :
    weighted 3 (digits.reverse.map valueOf) = openSum digits := by
  induction digits with
  | nil => rfl
  | cons c digits ih =>
    rw [List.reverse_cons, List.map_append, List.map_singleton,
      weighted_append_singleton (by decide), ih, openSum_cons, List.length_map,
      List.length_reverse, Nat.add_comm, placeWeight]
    congr 2
    rcases Nat.mod_two_eq_zero_or_one digits.length with h | h
    · rw [if_pos h, if_neg (by omega)]
    · rw [if_neg (by omega), if_pos (by omega)]

/-! ## The check digit -/

/-- The value of the check digit of a key with an open sum. -/
def checkValue (sum : Nat) : Nat := (10 - sum % 10) % 10

theorem checkValue_lt (sum : Nat) : checkValue sum < 10 := Nat.mod_lt _ (by decide)

theorem compute_of_digits (h : Numeral.Digits 10 digits) :
    compute digits = .ok [Nat.digitChar (checkValue (openSum digits))] := by
  rw [compute, mapM_digitValue (h.of_mem fun _ hc => List.mem_reverse.mp hc)]
  change Except.ok (Nat.toDigits 10 _) = _
  rw [weighted_reverse, ← Nat.toDigits_of_lt_base (checkValue_lt _), checkValue]

/-- Decimal digits have one check digit. -/
theorem exists_compute (h : Numeral.Digits 10 digits) :
    ∃ digit, compute digits = .ok [digit] ∧ Numeral.Digits 10 [digit] :=
  ⟨_, compute_of_digits h, digits_digitChar (checkValue_lt _)⟩

/-- The check digit of digits is a digit. -/
theorem digits_of_compute {digit : Text} (h : Numeral.Digits 10 digits)
    (hdigit : compute digits = .ok digit) : Numeral.Digits 10 digit ∧ digit.length = 1 := by
  obtain ⟨c, hcompute, hdecimal⟩ := exists_compute h
  obtain rfl : digit = [c] := Except.ok.inj (hdigit.symm.trans hcompute)
  exact ⟨hdecimal, rfl⟩

/-- Keys have different check digits exactly if their sums differ modulo ten. -/
theorem exists_compute_ne_iff {other : Text} (h : Numeral.Digits 10 digits)
    (hother : Numeral.Digits 10 other) {check : Char} (hcheck : compute digits = .ok [check]) :
    ∃ changed, compute other = .ok [changed] ∧
      (changed ≠ check ↔ openSum other % 10 ≠ openSum digits % 10) := by
  refine ⟨_, compute_of_digits hother, not_congr ?_⟩
  rw [compute_of_digits h] at hcheck
  obtain rfl : Nat.digitChar (checkValue (openSum digits)) = check :=
    List.head_eq_of_cons_eq (Except.ok.inj hcheck)
  constructor
  · intro heq
    have hvalue := congrArg valueOf heq
    rw [valueOf_digitChar (checkValue_lt _), valueOf_digitChar (checkValue_lt _)] at hvalue
    unfold checkValue at hvalue
    omega
  · intro hsum
    rw [checkValue, hsum, checkValue]

/-- The check digit completes the weighted sum to a multiple of ten. -/
theorem dvd_weightedSum {check : Char} (h : Numeral.Digits 10 digits)
    (hcheck : compute digits = .ok [check]) : 10 ∣ weightedSum (digits ++ [check]) := by
  rw [compute_of_digits h] at hcheck
  obtain rfl : Nat.digitChar (checkValue (openSum digits)) = check :=
    List.head_eq_of_cons_eq (Except.ok.inj hcheck)
  rw [weightedSum_close, valueOf_digitChar (checkValue_lt _), checkValue]
  omega

/-! ## Mistakes -/

/-- How far two digits are apart. -/
def distance (d e : Char) : Nat := ((valueOf d : Int) - valueOf e).natAbs

variable {front back : Text} {d e : Char}

/-- Another digit changes the sum modulo ten, whatever its weight. -/
theorem openSum_change (hd : Numeral.Digits 10 [d]) (he : Numeral.Digits 10 [e]) (hne : e ≠ d) :
    openSum (front ++ e :: back) % 10 ≠ openSum (front ++ d :: back) % 10 := by
  have hsame := openSum_append front (a := e :: back) (b := d :: back) rfl
  have hvalue : valueOf e ≠ valueOf d := fun h => hne (valueOf_injective he hd h)
  have hlt := valueOf_lt hd
  have hlt' := valueOf_lt he
  rw [openSum_cons, openSum_cons] at hsame
  rcases placeWeight_cases back.length with ⟨-, hweight⟩ | ⟨-, hweight⟩ <;> rw [hweight] at hsame <;>
    omega

/-- An exchange of neighbours changes the sum by twice their difference. -/
theorem openSum_exchange (hd : Numeral.Digits 10 [d]) (he : Numeral.Digits 10 [e]) :
    openSum (front ++ e :: d :: back) % 10 ≠ openSum (front ++ d :: e :: back) % 10 ↔
      distance d e ≠ 0 ∧ distance d e ≠ 5 := by
  have hsame := openSum_append front (a := e :: d :: back) (b := d :: e :: back) rfl
  have hlt := valueOf_lt hd
  have hlt' := valueOf_lt he
  simp only [openSum_cons, List.length_cons] at hsame
  unfold distance
  rcases placeWeight_cases (back.length + 1) with ⟨hone, hnext⟩ | ⟨hone, hnext⟩ <;>
    rw [hone, hnext] at hsame <;> omega

/-- What the check digit of a key is good for. -/
structure Detects (digits : Text) (check : Char) : Prop where
  digit : Numeral.Digits 10 [check]
  /-- It completes the weighted sum of the key to a multiple of ten. -/
  completes : 10 ∣ weightedSum (digits ++ [check])
  /-- The key with another digit in one place has another check digit. -/
  change : ∀ front d back e, digits = front ++ d :: back → Numeral.Digits 10 [e] → e ≠ d →
    ∃ changed, compute (front ++ e :: back) = .ok [changed] ∧ changed ≠ check
  /-- The key with two neighbours exchanged has another check digit unless they are equal
      or five apart. -/
  exchange : ∀ front d e back, digits = front ++ d :: e :: back →
    ∃ changed, compute (front ++ e :: d :: back) = .ok [changed] ∧
      (changed ≠ check ↔ distance d e ≠ 0 ∧ distance d e ≠ 5)

/-- Every row of decimal digits has a check digit, which completes its weighted sum and
    shows every mistake in one digit and every exchange of neighbours that are neither
    equal nor five apart. -/
theorem exists_detects (h : Numeral.Digits 10 digits) :
    ∃ check, compute digits = .ok [check] ∧ Detects digits check := by
  obtain ⟨check, hcheck, hdigit⟩ := exists_compute h
  refine ⟨check, hcheck, hdigit, dvd_weightedSum h hcheck, ?_, ?_⟩
  · -- one digit is another one
    rintro front d back e rfl he hne
    obtain ⟨hfront, hrest⟩ := Numeral.digits_append.mp h
    obtain ⟨hd, hback⟩ := (Numeral.digits_append (a := [d])).mp hrest
    have hother : Numeral.Digits 10 (front ++ ([e] ++ back)) :=
      Numeral.digits_append.mpr ⟨hfront, Numeral.digits_append.mpr ⟨he, hback⟩⟩
    obtain ⟨changed, hchanged, hiff⟩ := exists_compute_ne_iff h hother hcheck
    exact ⟨changed, hchanged, hiff.mpr (openSum_change hd he hne)⟩
  · -- two neighbours are exchanged
    rintro front d e back rfl
    obtain ⟨hfront, hrest⟩ := Numeral.digits_append.mp h
    obtain ⟨hd, hrest⟩ := (Numeral.digits_append (a := [d])).mp hrest
    obtain ⟨he, hback⟩ := (Numeral.digits_append (a := [e])).mp hrest
    have hother : Numeral.Digits 10 (front ++ ([e] ++ ([d] ++ back))) :=
      Numeral.digits_append.mpr ⟨hfront, Numeral.digits_append.mpr
        ⟨he, Numeral.digits_append.mpr ⟨hd, hback⟩⟩⟩
    obtain ⟨changed, hchanged, hiff⟩ := exists_compute_ne_iff h hother hcheck
    exact ⟨changed, hchanged, hiff.trans (openSum_exchange hd he)⟩

/-- A key of fourteen digits without its check digit. -/
theorem exists_detects_gtin :
    Numeral.Digits 10 "0003700030241" ∧
      ∃ check, compute "0003700030241" = .ok [check] ∧ Detects "0003700030241" check :=
  have hdigits : Numeral.Digits 10 "0003700030241" := by decide
  ⟨hdigits, exists_detects hdigits⟩

end EpcTag.CheckDigit
