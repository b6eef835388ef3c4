-- SUMMARY: Packing of characters into bits of a fixed width, and back.
import EpcTag.Error

/-!
# Compaction

An alphanumeric field packs every character into as many bits as its method
says, by the code point modulo a power of two. Unpacking restores the
characters of the range that the method is meant for: upper case letters in
five bits, letters, digits and punctuation in six, ASCII in seven, Latin-1 in
eight.
-/

namespace EpcTag

/-- A compaction method, by the width of its characters. -/
inductive Compaction where
  | five
  | six
  | seven
  | eight
  deriving DecidableEq, Repr

namespace Compaction

/-- Bits per character. -/
def width : Compaction → Nat
  | .five => 5
  | .six => 6
  | .seven => 7
  | .eight => 8

/-- The name of a method in a definition. -/
def name : Compaction → Text
  | .five => "5-bit"
  | .six => "6-bit"
  | .seven => "7-bit"
  | .eight => "8-bit"

/-- The method of a name. -/
def ofName? (text : Text) : Option Compaction :=
  [five, six, seven, eight].find? (·.name == text)

/-- The method of a name, or the error that there is none. -/
def ofName (text : Text) : Except Error Compaction :=
  match ofName? text with
  | some method => .ok method
  | none => .error (.unsupportedCompaction text)

@[simp] theorem ofName?_name (method : Compaction) : ofName? method.name = some method := by
  cases method <;> decide

/-! ## Packing -/

/-- The bits of one character. -/
def packChar (method : Compaction) (c : Char) : Text :=
  Numeral.padded 2 method.width (c.toNat % Nat.pow 2 method.width)

/-- The bits of all characters of a text. -/
def pack (method : Compaction) (text : Text) : Text :=
  text.flatMap (packChar method)

/-! ## Unpacking -/

/-- The code point that a packed number stands for. -/
def codePoint : Compaction → Int → Int
  | .five, n => n + 64
  | .six, n => if n < 32 then n + 64 else n
  | .seven, n => n
  | .eight, n => n

/-- The character of one chunk of bits. The chunk is read as an integer literal
    in base two. -/
def unpackChunk (method : Compaction) (chunk : Text) : Except Error Char :=
  match Numeral.readInteger? 2 chunk with
  | none => .error (.fault (.invalidLiteral 2 chunk))
  | some n =>
    let code := method.codePoint n
    if code < 0 then .error (.fault (.noCharacter code)) else .ok (Char.ofNat code.toNat)

/-- The characters of packed bits. -/
def unpack (method : Compaction) (bits : Text) : Except Error Text :=
  (Text.chunks method.width bits).mapM (unpackChunk method)

example : pack .six "1D" = "110001000100".toList := by decide
example : unpack .six "110001000100" = .ok "1D".toList := by rfl

end Compaction

end EpcTag
