-- SUMMARY: Escaping of the reserved characters of a URI, and its inverse.
import EpcTag.Text.Basic

/-!
# URI escapes

Eight characters are written in a URI as a percent sign and their code in two
hexadecimal digits. Escaping goes through a text once, and so does unescaping,
which accepts the hexadecimal letters in either case and leaves every other
percent sign alone.
-/

namespace EpcTag.UriEscape

/-- The reserved characters, each with its code. -/
def reserved : List (Char × Text) :=
  [('%', "25"), ('?', "3F"), ('"', "22"), ('&', "26"), ('/', "2F"), ('<', "3C"), ('>', "3E"),
   ('#', "23")]

/-- A character as it is written in a URI. -/
def escapeChar (c : Char) : Text :=
  match reserved.lookup c with
  | some code => '%' :: code
  | none => [c]

def escape (text : Text) : Text := text.flatMap escapeChar

/-- The reserved character that a code of two digits stands for. -/
def decode? (high low : Char) : Option Char :=
  (reserved.find? fun entry => entry.2 == [high.toUpper, low.toUpper]).map (·.1)

/-- Every escape of a reserved character is replaced by the character. -/
def unescape : Text → Text
  | '%' :: high :: low :: rest =>
    match decode? high low with
    | some c => c :: unescape rest
    | none => '%' :: unescape (high :: low :: rest)
  | c :: rest => c :: unescape rest
  | [] => []

@[simp] theorem escape_nil : escape [] = [] := rfl

@[simp] theorem escape_cons (c : Char) (text : Text) :
    escape (c :: text) = escapeChar c ++ escape text := rfl

@[simp] theorem escape_append (a b : Text) : escape (a ++ b) = escape a ++ escape b :=
  List.flatMap_append

example : escape "a/%" = "a%2F%25".toList := by decide
example : unescape "%2f%252F%" = "/%2F%".toList := by decide

end EpcTag.UriEscape
