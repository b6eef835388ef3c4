-- SUMMARY: The natural order of names, in which runs of digits count as numbers.
import EpcTag.Error
import EpcTag.Ordering

/-!
# Natural order

A name is cut into pieces, runs of ASCII digits and the text around them, and
the pieces that consist of digits count as numbers. Names are compared piece by
piece. Two names of which one has a number where the other has text cannot be
compared; between names whose digits are all ASCII this never happens, because
text and numbers alternate.
-/

namespace EpcTag

/-- A piece of a name. -/
inductive NamePiece where
  | text (part : Text)
  | number (value : Int)
  deriving DecidableEq, Repr

namespace NaturalOrder

/-- The alternating runs of other characters and of ASCII digits of a name. A name
    starts and ends with a run of other characters, which may be empty. -/
def runs : Text → List Text
  | [] => [[]]
  | c :: rest =>
    let isDigit := Text.isAsciiDigit c
    match runs rest with
    | [] => [[c]]
    | first :: others =>
      if isDigit then
        -- a digit joins the run of digits behind the empty text in front of it
        match first, others with
        | [], digits :: more => [] :: (c :: digits) :: more
        | _, _ => [] :: [c] :: first :: others
      else (c :: first) :: others

/-- A run as a piece: a number if all its characters have a digit value. -/
def piece (run : Text) : Except Error NamePiece :=
  if run ≠ [] ∧ run.all Text.hasDigitValue then
    match Numeral.readInteger? 10 run with
    | some n => .ok (.number n)
    | none => .error (.fault (.invalidLiteral 10 run))
  else .ok (.text run)

/-- The pieces of a name. -/
def pieces (name : Text) : Except Error (List NamePiece) := (runs name).mapM piece

/-- Compares texts by the code points of their characters. -/
def textBefore : Text → Text → Bool
  | _, [] => false
  | [], _ :: _ => true
  | a :: as, b :: bs => if a = b then textBefore as bs else a.toNat < b.toNat

/-- Does the first name come before the second? `none` if the first pieces in
    which they differ are a text and a number. -/
def before? : List NamePiece → List NamePiece → Option Bool
  | _, [] => some false
  | [], _ :: _ => some true
  | a :: as, b :: bs =>
    if a = b then before? as bs
    else match a, b with
      | .text s, .text t => some (textBefore s t)
      | .number m, .number n => some (m < n)
      | _, _ => none

/-- Can any two of the keys be compared? -/
def comparable : List (List NamePiece) → Bool
  | [] => true
  | key :: rest => rest.all (fun other => (before? key other).isSome) && comparable rest

/-- The elements in the natural order of their names. -/
def sortBy {α : Type} (name : α → Text) (elements : List α) : Except Error (List α) := do
  let keyed ← elements.mapM fun element => do pure (← pieces (name element), element)
  if comparable (keyed.map (·.1)) then
    pure ((sortStable (fun a b => (before? a.1 b.1).getD false) keyed).map (·.2))
  else .error (.fault .wrongType)

/-- Names in natural order. -/
def sort (names : List Text) : Except Error (List Text) := sortBy id names

example : runs "SGTIN-96" = ["SGTIN-".toList, "96".toList, []] := by decide
example : runs "12" = [[], "12".toList, []] := by decide

end NaturalOrder

end EpcTag
