-- SUMMARY: References to characters and entities, and the texts that hold them.
import EpcTag.Text.Digit
import EpcTag.Xml.Name

/-!
# References

A reference stands between `&` and `;`. It names a character by its number or
an entity by its name. A text with references is read into pieces: characters,
in which the numbered ones are already replaced, and names of entities, whose
replacement is not known before the declarations are.
-/

namespace EpcTag.Xml

/-- A part of a text with references. -/
inductive Piece where
  | character (c : Char)
  | entity (name : Text)
  deriving DecidableEq, Repr

/-- The characters that can be written as entities in every document. -/
def predefined? (name : Text) : Option Char :=
  [("lt".toList, '<'), ("gt".toList, '>'), ("amp".toList, '&'), ("quot".toList, '"'),
    ("apos".toList, '\'')].lookup name

/-- The number that digits stand for in a base, if there is at least one digit and
    every one is below the base. -/
def readNumber? (base : Nat) (digits : Text) : Option Nat :=
  if digits.isEmpty then none
  else digits.foldlM (fun n c => do
    let d ← Text.hexDigit? c
    if d < base then some (n * base + d) else none) 0

/-- The character with a number, if it may stand in a document. -/
def characterOfNumber? (n : Nat) : Option Char :=
  if n.isValidChar then
    let c := Char.ofNat n
    if isCharacter c then some c else none
  else none

/-- What stands between `&` and `;`. -/
def Piece.ofReference? (body : Text) : Option Piece :=
  match body with
  | '#' :: 'x' :: digits => do
    some (.character (← characterOfNumber? (← readNumber? 16 digits)))
  | '#' :: digits => do some (.character (← characterOfNumber? (← readNumber? 10 digits)))
  | body =>
    match readName? body with
    | some (name, []) => some (.entity name)
    | _ => none

/-- The pieces of a text with references, if all of its characters may stand in a
    document and every `&` starts a reference. -/
def pieces? (text : Text) : Option (List Piece) :=
  match Text.splitAll '&' text with
  | [] => some []
  | first :: others => do
    let plain := fun (part : Text) =>
      if part.all isCharacter then some (part.map Piece.character) else none
    let others ← others.mapM fun part => do
      let (body, rest) ← Text.splitFirst ';' part
      some ((← Piece.ofReference? body) :: (← plain rest))
    some ((← plain first) ++ others.flatten)

/-- The text that a declaration gives to an entity: numbered characters are
    replaced, and references to entities stay as they are written. A percent sign
    is refused, since it would start a reference to a parameter entity. -/
def entityText? (text : Text) : Option Text := do
  if text.contains '%' then none
  else
    let pieces ← pieces? text
    some (pieces.flatMap fun
      | .character c => [c]
      | .entity name => '&' :: name ++ [';'])

example : pieces? "a&#66;&lt;" =
    some [.character 'a', .character 'B', .entity "lt"] := by decide
example : pieces? "a&b" = none ∧ pieces? "&;" = none ∧ pieces? "&#0;" = none := by decide
example : entityText? "&#38;&x;" = some "&&x;" := by decide

end EpcTag.Xml
