-- SUMMARY: Line ends of every kind, and the lines of a text.
import EpcTag.Text.Basic

/-!
# Lines

A line ends with a line feed, a carriage return or both. Texts are brought to
line feeds alone before they are cut into lines.
-/

namespace EpcTag.Text

/-- The text with a line feed for every carriage return, and one for both. -/
def normalLines : Text → Text
  | [] => []
  | '\r' :: '\n' :: rest => '\n' :: normalLines rest
  | c :: rest => (if c = '\r' then '\n' else c) :: normalLines rest

/-- The lines of a text, without their ends. A text that ends with a line end has no
    empty line behind it. -/
def lines (text : Text) : List Text :=
  match (splitAll '\n' (normalLines text)).reverse with
  | [] :: rest => rest.reverse
  | all => all.reverse

example : lines "a\r\nb\rc\n" = ["a".toList, "b", "c"] := by decide
example : lines "" = [] ∧ lines "\n" = [[]] := by decide

/-- No carriage return is left. -/
theorem not_mem_normalLines (text : Text) : '\r' ∉ normalLines text := by
  fun_induction normalLines text with
  | case1 => simp
  | case2 rest ih => simp [ih]
  | case3 c rest _ ih =>
    simp only [List.mem_cons, ih, or_false]
    split <;> simp_all [eq_comm]

end EpcTag.Text
