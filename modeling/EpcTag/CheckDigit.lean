-- SUMMARY: The GS1 check digit.
import EpcTag.Error

/-!
# GS1 check digits

The digits of a key are weighted 3, 1, 3, 1, … from the right, and the check
digit completes their sum to a multiple of ten.
-/

namespace EpcTag.CheckDigit

/-- The sum of digits given from the right, weighted by `weight` and `4 - weight`
    in turn. -/
def weighted (weight : Nat) : List Nat → Nat
  | [] => 0
  | d :: rest => d * weight + weighted (4 - weight) rest

/-- The value of one character of `digits`. A character with a digit value that
    is no decimal digit is a number that cannot be read. -/
def digitValue (digits : Text) (c : Char) : Except Error Nat :=
  match Text.decimalDigit? c with
  | some d => .ok d
  | none =>
    if Text.hasDigitValue c then .error (.fault (.invalidLiteral 10 [c]))
    else .error (.badValue (.noCheckDigit digits))

/-- The check digit of a key without it; the characters are looked at from the
    right. -/
def compute (digits : Text) : Except Error Text := do
  let values ← digits.reverse.mapM (digitValue digits)
  pure (Nat.toDigits 10 ((10 - weighted 3 values % 10) % 10))

example : compute "0003700030241" = .ok "4".toList := by rfl

end EpcTag.CheckDigit
