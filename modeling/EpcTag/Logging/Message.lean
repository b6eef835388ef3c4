-- SUMMARY: Message formats: texts with places for the values of a message.
import EpcTag.Scalar

/-!
# Message formats

A format is a text with marks, each a percent sign and a letter that tells how
the next value is written: `%s` as it is shown, `%r` quoted and `%d` as an
integer. Two percent signs stand for one. A message without values is its format
as it stands.
-/

namespace EpcTag

/-- A value as a mark with the given letter writes it. -/
def Scalar.written? (letter : Char) (value : Scalar) : Option Text :=
  if letter = 's' then some value.shown
  else if letter = 'r' then some value.quoted
  else if letter = 'd' ∨ letter = 'i' then
    match value with
    | .text _ => none
    | value => value.integer?.map Text.ofInt
  else none

/-- A format with values in the places of its marks, in their order; every mark
    needs a value and every value a mark. -/
def Text.fill? : Text → List Scalar → Option Text
  | [], [] => some []
  | [], _ :: _ => none
  | ['%'], _ => none
  | '%' :: '%' :: rest, values => (fill? rest values).map ('%' :: ·)
  | '%' :: _ :: _, [] => none
  | '%' :: letter :: rest, value :: values => do
    some ((← value.written? letter) ++ (← fill? rest values))
  | c :: rest, values => (fill? rest values).map (c :: ·)

/-- The message of a format and its values. -/
def Text.message? (format : Text) (values : List Scalar) : Option Text :=
  if values.isEmpty then some format else fill? format values

example : Text.message? "%s is %r: 100%%" [.integer 1, .text "a"] = some "1 is 'a': 100%" := by
  decide
example : Text.message? "100%" [] = some "100%" := by decide

end EpcTag
