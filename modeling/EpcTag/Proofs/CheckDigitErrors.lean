-- SUMMARY: What asking for the check digit of any text ends with: a digit, a refusal, or a fault at a character that looks like a digit.
import EpcTag.Proofs.Rules

/-!
# Check digits of texts that are no keys

Decimal digits of every script count, each as the ASCII digit of its value. Any other
character leaves a text without a check digit. Most are refused, but a character with a
digit value that is no decimal digit, such as a superscript, passes for a number and cannot
be read as one, which is a fault. The characters are looked at from the right, so the last
one that is no decimal digit decides.
-/

namespace EpcTag.CheckDigit

variable {digits : Text} {c : Char}

/-! ## Decimal digits -/

/-- The text consists of decimal digits, of whatever scripts. -/
def Decimal (text : Text) : Prop := ∀ c ∈ text, (Text.decimalDigit? c).isSome = true

instance (text : Text) : Decidable (Decimal text) := List.decidableBAll _ text

theorem decimalDigit?_lt {d : Nat} (h : Text.decimalDigit? c = some d) : d < 10 := by
  unfold Text.decimalDigit? at h
  split at h
  · split at h
    · next hdigit =>
      have hbounds := (Numeral.isAsciiDigit_iff c).mp hdigit
      have h0 : '0'.toNat = 48 := rfl
      cases h
      omega
    · cases h
  · obtain ⟨first, hfirst, rfl⟩ := Option.map_eq_some_iff.mp h
    have hrange := List.find?_some hfirst
    simp only [Bool.and_eq_true, decide_eq_true_eq] at hrange
    omega

/-- A decimal digit has the value of its ASCII digit. -/
theorem exists_asciiDigit (h : (Text.decimalDigit? c).isSome = true) :
    Text.decimalDigit? c = some (valueOf (Numeral.asciiDigit c)) ∧
      Numeral.Digits 10 [Numeral.asciiDigit c] := by
  obtain ⟨d, hd⟩ := Option.isSome_iff_exists.mp h
  have hlt := decimalDigit?_lt hd
  rw [Numeral.asciiDigit, hd]
  exact ⟨congrArg some (valueOf_digitChar hlt).symm, digits_digitChar hlt⟩

theorem digits_map_asciiDigit (h : Decimal digits) :
    Numeral.Digits 10 (digits.map Numeral.asciiDigit) := by
  intro d hd
  obtain ⟨c, hc, rfl⟩ := List.mem_map.mp hd
  exact (Numeral.digits_cons.mp (exists_asciiDigit (h c hc)).2).1

theorem mapM_digitValue_of_decimal (digits : Text) {read : Text} (h : Decimal read) :
    read.mapM (digitValue digits) = .ok ((read.map Numeral.asciiDigit).map valueOf) := by
  rw [List.map_map]
  refine mapM_eq_ok_map fun c hc => ?_
  rw [digitValue, (exists_asciiDigit (h c hc)).1]
  rfl

/-- Digits of every script have the check digit of the same digits in ASCII. -/
theorem compute_of_decimal (h : Decimal digits) :
    compute digits = compute (digits.map Numeral.asciiDigit) := by
  have hreverse : Decimal digits.reverse := fun c hc => h c (List.mem_reverse.mp hc)
  have hascii : Numeral.Digits 10 (digits.map Numeral.asciiDigit).reverse :=
    (digits_map_asciiDigit h).of_mem fun _ hd => List.mem_reverse.mp hd
  rw [compute, compute, mapM_digitValue_of_decimal digits hreverse, mapM_digitValue hascii,
    List.map_reverse]

/-! ## Other characters -/

/-- A character stops the reading of a text from the right: it is no decimal digit, and all
    behind it are. -/
structure Stops (digits : Text) (c : Char) : Prop where
  undecimal : Text.decimalDigit? c = none
  last : ∃ before after, digits = before ++ c :: after ∧ Decimal after

/-- The error of a character that is no decimal digit. -/
def stopError (digits : Text) (c : Char) : Error :=
  if Text.hasDigitValue c then .fault (.invalidLiteral 10 [c]) else .badValue (.noCheckDigit digits)

theorem compute_of_stops (h : Stops digits c) : compute digits = .error (stopError digits c) := by
  obtain ⟨hundecimal, before, after, rfl, hafter⟩ := h
  generalize hdigits : before ++ c :: after = digits
  have hreverse : digits.reverse = after.reverse ++ c :: before.reverse := by
    rw [← hdigits]
    simp
  have hrest : Decimal after.reverse := fun d hd => hafter d (List.mem_reverse.mp hd)
  have hstop : digitValue digits c = .error (stopError digits c) := by
    rw [digitValue, hundecimal, stopError]
    dsimp only
    split <;> rfl
  rw [compute, hreverse, List.mapM_append, mapM_digitValue_of_decimal digits hrest,
    List.mapM_cons, hstop]
  rfl

/-- A text consists of decimal digits, or one of its characters stops the reading. -/
theorem decimal_or_stops (digits : Text) : Decimal digits ∨ ∃ c, Stops digits c := by
  induction digits with
  | nil => exact .inl (by simp [Decimal])
  | cons c digits ih =>
    rcases ih with hdecimal | ⟨d, hundecimal, before, after, rfl, hafter⟩
    · cases hc : Text.decimalDigit? c with
      | none => exact .inr ⟨c, hc, [], digits, rfl, hdecimal⟩
      | some d => exact .inl (List.forall_mem_cons.mpr ⟨by rw [hc]; rfl, hdecimal⟩)
    · exact .inr ⟨d, hundecimal, c :: before, after, rfl, hafter⟩

/-! ## Ends -/

/-- What asking for the check digit of a text ends with. -/
inductive Ends (digits : Text) : Except Error Text → Prop
  /-- The digits, each as the ASCII digit of its value, have a check digit. -/
  | digit {check : Char} (h : Decimal digits) (hcheck : Numeral.Digits 10 [check])
      (hsum : 10 ∣ weightedSum (digits.map Numeral.asciiDigit ++ [check])) :
      Ends digits (.ok [check])
  | refused {c : Char} (h : Stops digits c) (hvalue : Text.hasDigitValue c = false) :
      Ends digits (.error (.badValue (.noCheckDigit digits)))
  | unread {c : Char} (h : Stops digits c) (hvalue : Text.hasDigitValue c = true) :
      Ends digits (.error (.fault (.invalidLiteral 10 [c])))

/-- One digit completes a weighted sum. -/
theorem eq_of_dvd_weightedSum {check check' : Char} (h : Numeral.Digits 10 [check])
    (h' : Numeral.Digits 10 [check']) (hsum : 10 ∣ weightedSum (digits ++ [check]))
    (hsum' : 10 ∣ weightedSum (digits ++ [check'])) : check = check' := by
  rw [weightedSum_close] at hsum hsum'
  have hlt := valueOf_lt h
  have hlt' := valueOf_lt h'
  exact valueOf_injective h h' (by omega)

theorem ends_compute (digits : Text) : Ends digits (compute digits) := by
  rcases decimal_or_stops digits with hdecimal | ⟨c, hstops⟩
  · have hascii := digits_map_asciiDigit hdecimal
    obtain ⟨check, hcheck, hdigit⟩ := exists_compute hascii
    rw [compute_of_decimal hdecimal, hcheck]
    exact .digit hdecimal hdigit (dvd_weightedSum hascii hcheck)
  · rw [compute_of_stops hstops, stopError]
    split
    · next hvalue => exact .unread hstops hvalue
    · next hvalue => exact .refused hstops (Bool.eq_false_iff.mpr hvalue)

theorem Ends.compute_eq {outcome : Except Error Text} (h : Ends digits outcome) :
    compute digits = outcome := by
  cases h with
  | @digit check h hcheck hsum =>
    have hascii := digits_map_asciiDigit h
    obtain ⟨computed, hcomputed, hdigit⟩ := exists_compute hascii
    rw [compute_of_decimal h, hcomputed,
      eq_of_dvd_weightedSum hdigit hcheck (dvd_weightedSum hascii hcomputed) hsum]
  | refused h hvalue => rw [compute_of_stops h, stopError, if_neg (by simp [hvalue])]
  | unread h hvalue => rw [compute_of_stops h, stopError, if_pos hvalue]

/-- The check digit of a text, asked for directly or by a rule for a value of its context,
    ends as `Ends` says and in no other way. A value that is no text has no characters to
    look at. -/
theorem compute_eq_iff (digits : Text) (outcome : Except Error Text) :
    (compute digits = outcome ↔ Ends digits outcome) ∧
      (∀ lookup context (param : RuleParam), param.value context = .ok (.text digits) →
        ((RuleCall.checkDigit param).eval lookup context = outcome.map Scalar.text ↔
          Ends digits outcome)) ∧
      ∀ lookup context (param : RuleParam) value, param.value context = .ok value →
        value.text? = none →
          (RuleCall.checkDigit param).eval lookup context = .error (.fault .wrongType) := by
  have hdirect : compute digits = outcome ↔ Ends digits outcome :=
    ⟨fun h => h ▸ ends_compute digits, Ends.compute_eq⟩
  refine ⟨hdirect, fun lookup context param hvalue => ?_, fun lookup context param value hvalue hnone => ?_⟩
  · rw [RuleCall.eval_checkDigit hvalue, ← hdirect]
    constructor
    · intro h
      cases hcompute : compute digits <;> cases outcome <;> rw [hcompute] at h <;> cases h <;> rfl
    · rintro rfl
      rfl
  · rw [RuleCall.eval, hvalue]
    change (value.operand >>= fun digits => _) = _
    rw [Scalar.operand, hnone]
    rfl

/-- A key with a superscript in it, and a key that is a number. -/
def oddKeys : Context := [(.text "key", .text "1²3"), (.text "number", .integer 123)]

/-- The superscript is a fault, in the text itself and in a field. -/
theorem compute_eq_iff_superscript :
    Ends "1²3" (.error (.fault (.invalidLiteral 10 "²"))) ∧
      compute "1²3" = .error (.fault (.invalidLiteral 10 "²")) ∧
      (RuleCall.checkDigit (.field "key")).eval .empty oddKeys =
        .error (.fault (.invalidLiteral 10 "²")) ∧
      (RuleCall.checkDigit (.field "number")).eval .empty oddKeys = .error (.fault .wrongType) := by
  obtain ⟨hdirect, hrule, hother⟩ :=
    compute_eq_iff "1²3" (.error (.fault (.invalidLiteral 10 "²")))
  have hends : Ends "1²3" (.error (.fault (.invalidLiteral 10 "²"))) :=
    .unread ⟨by decide, "1".toList, "3".toList, rfl, by decide⟩ (by decide)
  exact ⟨hends, hdirect.mpr hends, (hrule .empty oddKeys (.field "key") rfl).mpr hends,
    hother .empty oddKeys (.field "number") (.integer 123) rfl rfl⟩

/-- Not every text that has no check digit is refused. -/
theorem not_compute_refused :
    ¬ ∀ digits, (Decimal digits → ∃ check, Numeral.Digits 10 [check] ∧ compute digits = .ok [check]) ∧
      (¬ Decimal digits → compute digits = .error (.badValue (.noCheckDigit digits))) := by
  intro hall
  have hrefused := (hall "²").2 (by decide)
  have hfault : compute "²" = .error (.fault (.invalidLiteral 10 "²")) := rfl
  rw [hfault] at hrefused
  cases hrefused

end EpcTag.CheckDigit
