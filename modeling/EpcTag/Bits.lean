-- SUMMARY: Bit strings: conversion to and from decimal and hexadecimal text, and stripping of padding zeros.
import EpcTag.Error
import EpcTag.Padding

/-!
# Bit strings

A bit string is a text of zeros and ones. It is converted to and from decimal
text by its value, and to and from hexadecimal text four bits at a time, so a
hexadecimal text keeps its leading zeros.
-/

namespace EpcTag.Bits

/-! ## Decimal text -/

/-- The value of a bit string as decimal text; no bits have the value zero. -/
def toDecimal (bits : Text) : Except Error Text :=
  if bits.isEmpty then .ok ['0']
  else if Numeral.isBinary bits then .ok (Nat.toDigits 10 (Numeral.value 2 bits))
  else .error (.fault (.notBinary bits))

/-- The bits of a decimal text, without leading zeros; no digits have the value
    zero. -/
def ofDecimal (decimal : Text) : Except Error Text :=
  if decimal.isEmpty then .ok ['0']
  else if Numeral.isDecimal decimal then .ok (Nat.toDigits 2 (Numeral.value 10 decimal))
  else .error (.fault (.notDecimal decimal))

/-! ## Hexadecimal text -/

/-- The hexadecimal digit of a number below sixteen, in upper case. -/
def hexDigit (n : Nat) : Char := (Nat.digitChar n).toUpper

/-- The four bits of each hexadecimal digit. -/
def ofHex (hex : Text) : Except Error Text :=
  match hex.mapM Text.hexDigit? with
  | some digits => .ok (digits.flatMap (Numeral.padded 2 4))
  | none => .error (.fault (.notHexadecimal hex))

/-- Zeros in front of bits, as few as make their number a multiple of four. -/
def wholeNibbles (bits : Text) : Text :=
  List.replicate ((4 - bits.length % 4) % 4) '0' ++ bits

/-- The hexadecimal digit of every started group of four bits, counted from the
    right. -/
def toHex (bits : Text) : Except Error Text :=
  if bits.all Numeral.isBit then
    .ok ((Text.chunks 4 (wholeNibbles bits)).map fun nibble => hexDigit (Numeral.value 2 nibble))
  else .error (.fault (.notBinary bits))

/-! ## Stripping -/

/-- The least multiple of `width` that is not below `n`; a width below four asks
    for no multiple. -/
def roundUp (width n : Nat) : Nat :=
  if 4 ≤ width then (n + width - 1) / width * width else n

/-- A bit string without the zeros that fill it up at `edge`. What stays holds
    every one bit, and its length, counted from the other edge, is rounded up to
    a multiple of `width`. Without a one bit a single zero stays. -/
def strip (edge : Edge) (width : Nat) (bits : Text) : Text :=
  if bits.contains '1' then
    match edge with
    | .right => bits.take (roundUp width (Text.dropWhileEnd (· ≠ '1') bits).length)
    | .left =>
      bits.drop (bits.length - roundUp width (bits.dropWhile (· ≠ '1')).length)
  else ['0']

example : toDecimal "1001000010001000" = .ok "37000".toList := by rfl
example : ofHex "0F" = .ok "00001111".toList := by rfl
example : toHex "101" = .ok "5".toList := by rfl
example : strip .left 0 "0101100" = "101100".toList := by decide
example : strip .right 6 "0101100000000" = "010110".toList := by decide

end EpcTag.Bits
