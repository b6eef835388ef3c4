-- SUMMARY: Numerals: runs of digits read as numbers, and integer literals in free form.
import EpcTag.Text.Basic
import EpcTag.Text.Blank
import EpcTag.Text.Digit

/-!
# Numerals

Two readers of numbers. A *plain* numeral is a run of ASCII digits and nothing
else; its value is the fold over the digits. An *integer literal* is freer: it
may be surrounded by white space, carry a sign, use the decimal digits of any
script and put single low lines between digits; in base two it may start with
`0b`.
-/

namespace EpcTag.Numeral

/-! ## Plain numerals -/

/-- Is the text a run of one or more digits `0` to `9`? -/
def isDecimal (text : Text) : Bool := !text.isEmpty && text.all Text.isAsciiDigit

/-- Is `c` a bit? -/
def isBit (c : Char) : Bool := c == '0' || c == '1'

/-- Is the text a run of one or more bits? -/
def isBinary (text : Text) : Bool := !text.isEmpty && text.all isBit

/-- The value of a run of digits below `base`, most significant first. -/
def value (base : Nat) (digits : Text) : Nat := Nat.ofDigitChars base digits 0

/-- A number in the digits of `base`, filled up with zeros to `width` digits. -/
def padded (base width n : Nat) : Text :=
  let digits := Nat.toDigits base n
  List.replicate (width - digits.length) '0' ++ digits

@[simp] theorem isDecimal_nil : isDecimal [] = false := rfl

@[simp] theorem isBinary_nil : isBinary [] = false := rfl

/-- Up to base ten, writing a number and reading it gives the number back. -/
theorem value_toDigits {base n : Nat} (h : 1 < base) (h' : base ≤ 10) :
    value base (Nat.toDigits base n) = n := Nat.ofDigitChars_toDigits h h'

/-! ## Integer literals -/

/-- The white space that may surround a literal: all blanks but the separator
    controls. -/
def isMargin (c : Char) : Bool := Text.isBlank c && !Text.isSeparatorControl c

/-- A decimal digit of any script as the ASCII digit of its value; any other
    character as it is. -/
def asciiDigit (c : Char) : Char :=
  match Text.decimalDigit? c with
  | some d => Nat.digitChar d
  | none => c

/-- The value of digits with single low lines between them. -/
def readGrouped? (base : Nat) (body : Text) : Option Nat :=
  let groups := Text.splitAll '_' body
  if groups.all fun group => !group.isEmpty &&
      group.all fun c => Text.isAsciiDigit c && c.toNat < '0'.toNat + base then
    some (value base groups.flatten)
  else none

/-- A literal may start with its base mark, zero and a letter, and one low line
    behind it. -/
def dropBaseMark (letter : Char) : Text → Text
  | '0' :: c :: rest =>
    if c.toLower = letter then
      match rest with
      | '_' :: digits => digits
      | digits => digits
    else '0' :: c :: rest
  | body => body

/-- The number of an unsigned literal in base two or ten. -/
def readUnsigned? (base : Nat) (body : Text) : Option Nat :=
  readGrouped? base (if base = 2 then dropBaseMark 'b' body else body)

/-- The number that an integer literal in base two or ten denotes. -/
def readInteger? (base : Nat) (text : Text) : Option Int :=
  match (Text.trimBy isMargin text).map asciiDigit with
  | '-' :: body => (readUnsigned? base body).map fun n => -(n : Int)
  | '+' :: body => (readUnsigned? base body).map Int.ofNat
  | body => (readUnsigned? base body).map Int.ofNat

example : readInteger? 10 " -1_000\n" = some (-1000) := by decide
example : readInteger? 10 "1__0" = none := by decide
example : readInteger? 10 "٣" = some 3 := by decide
example : readInteger? 2 "0b_101" = some 5 := by decide
example : readInteger? 2 "0b" = none := by decide
example : readInteger? 10 "" = none := by decide

end EpcTag.Numeral
