-- SUMMARY: Quoted text, as messages show a value.
import EpcTag.Text.Basic
import EpcTag.Text.Printable

/-!
# Quoted text

A message shows a value between quotes, with every character that has no
visible form written as an escape. The quote is the single one, except for a
text that holds a single and no double quote. The backslash, the quote in use
and the common line controls have escapes of two characters; all other hidden
characters are written by their code point in hexadecimal, in two, four or
eight digits.
-/

namespace EpcTag.Text

/-- The quote that a text is written between. -/
def quoteFor (text : Text) : Char :=
  if text.contains '\'' && !text.contains '"' then '"' else '\''

/-- A code point in exactly `width` hexadecimal digits, if they suffice. -/
def hexCode (width code : Nat) : Text :=
  let digits := Nat.toDigits 16 code
  List.replicate (width - digits.length) '0' ++ digits

/-- A character as it stands between the quotes `quote`. -/
def quoteChar (quote c : Char) : Text :=
  if c = '\\' ∨ c = quote then ['\\', c]
  else if c = '\n' then ['\\', 'n']
  else if c = '\r' then ['\\', 'r']
  else if c = '\t' then ['\\', 't']
  else if isPrintable c then [c]
  else if c.toNat < 0x100 then '\\' :: 'x' :: hexCode 2 c.toNat
  else if c.toNat < 0x10000 then '\\' :: 'u' :: hexCode 4 c.toNat
  else '\\' :: 'U' :: hexCode 8 c.toNat

/-- A text between quotes. -/
def quoted (text : Text) : Text :=
  let quote := quoteFor text
  quote :: text.flatMap (quoteChar quote) ++ [quote]

example : quoted "it's" = "\"it's\"".toList := by decide
example : quoted "a\n'\"" = "'a\\n\\'\"'".toList := by decide
example : quoted ['\u00a0', 'é'] = "'\\xa0é'".toList := by decide

end EpcTag.Text
