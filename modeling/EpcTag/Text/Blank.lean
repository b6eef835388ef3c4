-- SUMMARY: Blank characters, and trimming a text of them.
import EpcTag.Text.Basic

/-!
# Blanks

White space is the spaces, tabs and line ends of Unicode together with the four
separator controls of ASCII. It is what a trim removes, what separates the
tokens of a grammar and what may surround the parts of a rule.
-/

namespace EpcTag.Text

/-- The four ASCII controls that separate files, groups, records and units. -/
def isSeparatorControl (c : Char) : Bool := 0x1C ≤ c.toNat && c.toNat ≤ 0x1F

/-- Is `c` white space? -/
def isBlank (c : Char) : Bool :=
  let code := c.toNat
  (0x09 ≤ code && code ≤ 0x0D) || isSeparatorControl c || code == 0x20 || code == 0x85 ||
  code == 0xA0 || code == 0x1680 || (0x2000 ≤ code && code ≤ 0x200A) || code == 0x2028 ||
  code == 0x2029 || code == 0x202F || code == 0x205F || code == 0x3000

/-- Every character that core counts as white space is blank. -/
theorem isBlank_of_isWhitespace {c : Char} (h : c.isWhitespace = true) : isBlank c = true := by
  simp only [Char.isWhitespace, Bool.or_eq_true, decide_eq_true_eq] at h
  rcases h with ((rfl | rfl) | rfl) | rfl <;> decide

theorem isBlank_of_digit {c : Char} (h : '0'.toNat ≤ c.toNat ∧ c.toNat < '0'.toNat + 10) :
    isBlank c = false := by
  have h0 : '0'.toNat = 48 := rfl
  simp only [isBlank, isSeparatorControl, Bool.or_eq_false_iff, Bool.and_eq_false_iff,
    decide_eq_false_iff_not, beq_eq_false_iff_ne]
  omega

/-- The text without the blanks at its two ends. -/
def trim (text : Text) : Text := trimBy isBlank text

/-- The text without the blanks at its start. -/
def trimStart (text : Text) : Text := text.dropWhile isBlank

example : trim " a b\t\n" = "a b".toList := by decide

end EpcTag.Text
