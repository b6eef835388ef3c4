-- SUMMARY: The two edges of a field, and the padding of a text at one of them.
import EpcTag.Error
import EpcTag.Text.UpperCase

/-!
# Padding

A field of fixed length is filled up with a pad character at one of its edges.
Padding is removed up to the first other character; a text that consists of
padding alone keeps one pad character, so that an all-zero number still reads
as zero.
-/

namespace EpcTag

/-- An edge of a text. -/
inductive Edge where
  | left
  | right
  deriving DecidableEq, Repr

namespace Edge

def name : Edge → Text
  | .left => "LEFT"
  | .right => "RIGHT"

/-- The edge that a text names in exact spelling: every text but `RIGHT` names
    the left edge. -/
def named (text : Text) : Edge := if text = Edge.name .right then .right else .left

/-- The edge that a text names in any case. -/
def read? (text : Text) : Option Edge :=
  let name := Text.upper text
  if name = Edge.name .left then some .left
  else if name = Edge.name .right then some .right
  else none

/-- The edge that a text names in any case, or the fault of naming none. -/
def read (text : Text) : Except Error Edge :=
  match read? text with
  | some edge => .ok edge
  | none => .error (.fault (.invalidEdge (Text.upper text)))

@[simp] theorem named_name (edge : Edge) : named edge.name = edge := by
  cases edge <;> decide

@[simp] theorem read?_name (edge : Edge) : read? edge.name = some edge := by
  cases edge <;> decide

end Edge

namespace Padding

/-- A text filled up with `padding` at an edge, once for each character that
    lacks to `length`. Without an edge, a padding or a length it stays as it
    is. -/
def pad (text : Text) (edge : Option Edge) (padding : Option Text) (length : Option Int) : Text :=
  match edge, padding, length with
  | some edge, some padding, some length =>
    let fill := Text.join (List.replicate (length - text.length).toNat padding)
    match edge with
    | .right => text ++ fill
    | .left => fill ++ text
  | _, _, _ => text

/-- A text without the characters of `padding` at an edge. A text made of them
    alone becomes the padding itself. Without an edge or a padding it stays as it
    is. -/
def strip (text : Text) (edge : Option Edge) (padding : Option Text) : Text :=
  match edge, padding with
  | some edge, some padding =>
    if text ≠ [] ∧ text.all padding.contains then padding
    else match edge with
      | .right => Text.dropWhileEnd padding.contains text
      | .left => text.dropWhile padding.contains
  | _, _ => text

/-- A value filled up like a text, if an edge, a padding and a length are given;
    then the value and the padding must be texts. -/
def padValue (value : Scalar) (edge : Option Edge) (padding : Scalar) (length : Option Int) :
    Except Error Scalar :=
  if edge = none ∨ padding = .null ∨ length = none then .ok value
  else do
    let text ← value.operand
    pure (.text (pad text edge (← padding.operand) length))

/-- A value without its padding, if an edge and a padding are given; then the value
    and the padding must be texts. -/
def stripValue (value : Scalar) (edge : Option Edge) (padding : Scalar) : Except Error Scalar :=
  if edge = none ∨ padding = .null then .ok value
  else do
    let text ← value.subject
    pure (.text (strip text edge (← padding.operand)))

example : pad "12" (some .left) (some "0") (some 4) = "0012".toList := by decide
example : strip "0000" (some .left) (some "0") = "0".toList := by decide
example : strip "xyxa" (some .left) (some "xy") = "a".toList := by decide

end Padding

end EpcTag
