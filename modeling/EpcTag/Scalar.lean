-- SUMMARY: Scalars: the values that definition documents and conversion parameters hold.
import EpcTag.Number.Numeral
import EpcTag.Number.Binary64
import EpcTag.Text.Quoted

/-!
# Scalars

An attribute of a definition document and a parameter of a conversion is a
scalar: nothing, a truth value, a number or a text. A scalar can be shown as a
text, and most scalars can be read as an integer. Scalars are compared by value:
a truth value is the number one or zero.
-/

namespace EpcTag

inductive Scalar where
  | null
  | flag (value : Bool)
  | integer (value : Int)
  | real (value : Binary64)
  | text (value : Text)
  deriving DecidableEq, Repr

namespace Scalar

/-- The scalar as text; a text is shown as it is. -/
def shown : Scalar → Text
  | .null => "None"
  | .flag true => "True"
  | .flag false => "False"
  | .integer n => Text.ofInt n
  | .real x => x.text
  | .text s => s

/-- The scalar as a message shows it: a text is quoted. -/
def quoted : Scalar → Text
  | .text s => Text.quoted s
  | s => s.shown

/-- The integer that a scalar stands for: a number cut to its whole part, one or
    zero for a truth value, the value of a text that is an integer literal. -/
def integer? : Scalar → Option Int
  | .null => none
  | .flag b => some (if b then 1 else 0)
  | .integer n => some n
  | .real x => some x.truncate
  | .text s => Numeral.readInteger? 10 s

/-- The text of a scalar that is a text. -/
def text? : Scalar → Option Text
  | .text s => some s
  | _ => none

/-- Is a scalar nothing, false, zero or an empty text? -/
def isVoid : Scalar → Bool
  | .null => true
  | .flag b => !b
  | .integer n => n == 0
  | .real x => x.mantissa == 0
  | .text s => s.isEmpty

/-- The number that a scalar is, as a fraction: its numerator and its positive
    denominator. A text is no number, whatever it says. -/
def fraction? : Scalar → Option (Int × Nat)
  | .flag b => some (if b then 1 else 0, 1)
  | .integer n => some (n, 1)
  | .real x => some (if x.negative then -x.ratio.1 else x.ratio.1, x.ratio.2)
  | .null | .text _ => none

/-- Do two scalars have the same value? Numbers have if they are equal, of whatever
    sort they are. -/
def isSame (a b : Scalar) : Bool :=
  match a.fraction?, b.fraction? with
  | some (n, d), some (m, e) => n * e == m * d
  | _, _ => a == b

example : (flag true).isSame (integer 1) = true := by decide
example : (text ['1']).isSame (integer 1) = false := by decide

@[simp] theorem integer?_integer (n : Int) : (integer n).integer? = some n := rfl

@[simp] theorem shown_text (s : Text) : (text s).shown = s := rfl

@[simp] theorem text?_text (s : Text) : (text s).text? = some s := rfl

end Scalar

end EpcTag
