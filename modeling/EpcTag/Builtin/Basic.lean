-- SUMMARY: The pieces that the built-in definitions are put together from.
import EpcTag.Padding
import EpcTag.Rule.Basic
import EpcTag.Scheme.Document
import EpcTag.Scheme.LevelType
import EpcTag.Number.Numeral

/-!
# Pieces of definitions

Fields, options, levels and rules as definition documents write them, and the
pieces of patterns and grammars that recur in all built-in schemes.
-/

namespace EpcTag.Builtin

/-! ## Patterns and grammars -/

/-- The character set of decimal text. -/
def digitSet : Text := "[0-9]*"

/-- The pattern of a decimal number without leading zeros. -/
def numberPattern : Text := "(0|[1-9][0-9]*)"

/-- What a pattern writes for exactly `count` repetitions. -/
def times (count : Nat) : Text := '\x7b' :: Text.ofNat count ++ ['\x7d']

/-- What a pattern writes for `least` to `most` repetitions. -/
def timesBetween (least most : Nat) : Text :=
  '\x7b' :: Text.ofNat least ++ ',' :: Text.ofNat most ++ ['\x7d']

/-- The pattern that captures `count` bits. -/
def bitGroup (count : Nat) : Text := Text.join ["([01]", times count, ")"]

/-- The pattern that captures `count` decimal digits. -/
def digitGroup (count : Nat) : Text := Text.join ["([0-9]", times count, ")"]

/-- The pattern that must match a whole value. -/
def anchored (pattern : Text) : Text := '^' :: pattern ++ ['$']

/-- A grammar token for text that is copied. -/
def literal (text : Text) : Text := '\'' :: text ++ ['\'']

/-- The binary text of a number in exactly `width` bits. -/
def bitText (n width : Nat) : Text := Numeral.padded 2 width n

/-! ## Fields -/

/-- A field of a name, captured by the group of the given number. -/
def field (name : Text) (seq : Nat) : FieldDocument :=
  { name := .text name, seq := .number seq }

/-- A field of bits, filled up with zeros on the left. -/
def bits (name : Text) (seq width : Nat) : FieldDocument :=
  { field name seq with bitLength := .number width, bitPadDir := .text Edge.left.name }

/-- A field of decimal text with a value of at most `maximum`. -/
def number (name : Text) (seq maximum : Nat) : FieldDocument :=
  { field name seq with
    characterSet := .text digitSet
    decimalMinimum := .text (Text.ofNat 0)
    decimalMaximum := .text (Text.ofNat maximum) }

/-- A field of exactly `digits` decimal digits, filled up with zeros on the left,
    whose value also fits into `width` bits, if a width is given. -/
def paddedNumber (name : Text) (seq digits : Nat) (width : Option Nat) : FieldDocument :=
  let byDigits := Nat.pow 10 digits - 1
  let maximum := match width with
    | some width => min byDigits (Nat.pow 2 width - 1)
    | none => byDigits
  { number name seq maximum with
    length := .number digits
    padChar := .text "0"
    padDir := .text Edge.left.name }

/-! ## Rules, options and levels -/

/-- Rules of one type that assign the results of functions to fields, in the order
    in which they are given. -/
def rules (type : RuleType) (assignments : List (Text × Text)) : List RuleDocument :=
  assignments.zipIdx.map fun ((name, function), place) =>
    { type := .text type.name, seq := .number (place + 1), newFieldName := .text name,
      function := .text function }

def option (key pattern grammar : Text) (fields : List FieldDocument) : OptionDocument :=
  { optionKey := .text key, pattern := .text pattern, grammar := .text grammar, fields }

/-- A level whose values start with the given text. -/
def level (type : LevelType) (start : Text) (options : List OptionDocument)
    (rules : List RuleDocument) : LevelDocument :=
  { type := .text type.name, prefixMatch := .text start, options, rules }

def scheme (name : Text) (tagLength : Nat) (optionKey : Text) (levels : List LevelDocument) :
    SchemeDocument :=
  { name := .text name, tagLength := .number tagLength, optionKey := .text optionKey, levels }

end EpcTag.Builtin
