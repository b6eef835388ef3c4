-- SUMMARY: Checks of field values against the character set and the decimal limits declared for them.
import EpcTag.Scheme.Basic
import EpcTag.Pattern.Parser
import EpcTag.Traced

/-!
# Validation

A value is checked against the character set and the decimal limits of its
field. What happens with a violation is a matter of the validator: a strict one
fails with it, any other records it and goes on.
-/

namespace EpcTag

/-- Decides what happens with violations. -/
structure Validator where
  strict : Bool := false
  deriving DecidableEq, Repr

namespace Validator

/-- Fails with a violation or records it. -/
def report (validator : Validator) (violation : Violation) : Traced Unit :=
  if validator.strict then Traced.fail (.violation violation)
  else Traced.record (.violated violation)

/-! ## Character sets -/

/-- A character set allows any number of its characters, so a star is implied at
    its end. -/
def starred (set : Text) : Text :=
  if set.getLast? = some '*' then set else set ++ ['*']

/-- The pattern that a character set with its star is. -/
def readSet (set : Text) : Except Error Pattern :=
  match Pattern.parse set with
  | .ok pattern => .ok pattern
  | .error .malformed => .error (.fault (.invalidCharacterSet set))
  | .error .repetitionTooLarge => .error (.fault .repetitionTooLarge)

/-- Checks that a value consists of allowed characters, if a set is declared. The
    set is a pattern for the whole value. -/
def checkCharacterSet (validator : Validator) (field : Text) (value set : Scalar) :
    Traced Bool :=
  if set = .null then pure true
  else do
    let set := starred (← set.subject)
    let pattern ← readSet set
    let text ← value.operand
    if pattern.matchesWhole text then pure true
    else
      validator.report ⟨field, text, .characterSet set⟩
      pure false

/-! ## Decimal limits -/

/-- Does a number lie below a limit? Nothing lies below no limit. -/
def isBelow (number : Int) : Scalar → Except Error Bool
  | .null => .ok false
  | bound => bound.toInteger.map (number < ·)

/-- Does a number lie above a limit? Nothing lies above no limit. -/
def isAbove (number : Int) : Scalar → Except Error Bool
  | .null => .ok false
  | bound => bound.toInteger.map (· < number)

/-- Checks that a decimal value lies between its limits. Values that are void or no
    decimal numbers are left to the character set. -/
def checkRange (validator : Validator) (field : Text) (value minimum maximum : Scalar) :
    Traced Bool := do
  let text ← value.contentOrVoid
  if Numeral.isDecimal text then
    let number : Int := Numeral.value 10 text
    if ← isBelow number minimum then
      validator.report ⟨field, text, .minimum minimum⟩
      pure false
    else if ← isAbove number maximum then
      validator.report ⟨field, text, .maximum maximum⟩
      pure false
    else pure true
  else pure true

/-- Both checks, with the limits that a field declares. The second one is made
    whatever the first one finds. -/
def checkField (validator : Validator) (field : Field) (value : Scalar) : Traced Bool := do
  let conforming ← validator.checkCharacterSet field.name value field.characterSet
  let within ← validator.checkRange field.name value field.minimum field.maximum
  pure (within && conforming)

end Validator

end EpcTag
