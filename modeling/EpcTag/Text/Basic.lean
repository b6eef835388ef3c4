-- SUMMARY: Text as a list of characters, and the joins, cuts and trims that the library makes of it.

/-!
# Text

Everything the library reads or writes is a list of characters. Lengths, cuts
and orders count code points, so no encoding enters a definition, and every
function on text is a function on lists.
-/

namespace EpcTag

/-- A text is the list of its characters. -/
abbrev Text := List Char

/-- A string literal in the source of the library stands for the list of its
    characters. -/
instance : Coe String Text := ⟨String.toList⟩

namespace Text

/-! ## Joining -/

/-- The parts one after the other. -/
def join (parts : List Text) : Text := parts.flatten

/-- The parts one after the other, with `separator` between two of them. -/
def joinWith (separator : Text) : List Text → Text
  | [] => []
  | [part] => part
  | part :: rest => part ++ separator ++ joinWith separator rest

/-- A natural number in decimal digits. -/
def ofNat (n : Nat) : Text := Nat.toDigits 10 n

/-- An integer in decimal digits, with a minus sign in front of a negative one. -/
def ofInt : Int → Text
  | .ofNat n => ofNat n
  | .negSucc n => '-' :: ofNat (n + 1)

/-! ## Cutting -/

/-- Does `text` start with `start`? -/
def startsWith (text start : Text) : Bool := start.isPrefixOf text

/-- The text without its last characters that satisfy `p`. -/
def dropWhileEnd (p : Char → Bool) (text : Text) : Text :=
  (text.reverse.dropWhile p).reverse

/-- The text without its first and last characters that satisfy `p`. -/
def trimBy (p : Char → Bool) (text : Text) : Text :=
  dropWhileEnd p (text.dropWhile p)

/-- The text before the first `mark` and the text after it, if there is one. -/
def splitFirst (mark : Char) : Text → Option (Text × Text)
  | [] => none
  | c :: rest =>
    if c = mark then some ([], rest)
    else (splitFirst mark rest).map fun (before, after) => (c :: before, after)

/-- The parts between the marks; a text without a mark is its own single part. -/
def splitAll (mark : Char) : Text → List Text
  | [] => [[]]
  | c :: rest =>
    if c = mark then [] :: splitAll mark rest
    else match splitAll mark rest with
      | [] => [[c]]
      | part :: parts => (c :: part) :: parts

/-- The text before the first occurrence of `mark` and the text after it, if there
    is one. -/
def splitAround? (mark : Text) : Text → Option (Text × Text)
  | [] => if mark.isEmpty then some ([], []) else none
  | c :: rest =>
    if startsWith (c :: rest) mark then some ([], (c :: rest).drop mark.length)
    else (splitAround? mark rest).map fun (before, after) => (c :: before, after)

/-- The text after the last `mark`; the whole text if there is none. -/
def afterLast (mark : Char) (text : Text) : Text :=
  (text.reverse.takeWhile (· ≠ mark)).reverse

/-- The place that an index names in a text of `length` characters: a negative
    index counts from the end, and an index outside the text is moved to its
    nearer edge. -/
def place (length : Nat) (index : Int) : Nat :=
  if index < 0 then (length + index).toNat else min index.toNat length

/-- The characters from the place of `start` on. -/
def sliceFrom (text : Text) (start : Int) : Text :=
  text.drop (place text.length start)

/-- The characters from the place of `start` to before the place of `stop`. -/
def slice (text : Text) (start stop : Int) : Text :=
  (text.take (place text.length stop)).drop (place text.length start)

/-- Zeros are put in front of a text, but behind its sign, until it has `width`
    characters. -/
def zeroFill (width : Nat) (text : Text) : Text :=
  let zeros := List.replicate (width - text.length) '0'
  match text with
  | [] => zeros
  | c :: rest => if c = '+' ∨ c = '-' then c :: (zeros ++ rest) else zeros ++ text

/-- Consecutive chunks of `width` characters; the last one may be shorter. The
    first argument bounds the number of chunks. -/
def chunksUpTo (width : Nat) : Nat → Text → List Text
  | 0, _ => []
  | _, [] => []
  | count + 1, text => text.take width :: chunksUpTo width count (text.drop width)

/-- The consecutive chunks of `width` characters of a text. -/
def chunks (width : Nat) (text : Text) : List Text :=
  chunksUpTo width text.length text

@[simp] theorem dropWhileEnd_nil (p : Char → Bool) : dropWhileEnd p [] = [] := rfl

@[simp] theorem splitAll_nil (mark : Char) : splitAll mark [] = [[]] := rfl

theorem splitAll_ne_nil (mark : Char) (text : Text) : splitAll mark text ≠ [] := by
  cases text with
  | nil => simp
  | cons c rest =>
    simp only [splitAll]
    split
    · simp
    · split <;> simp

end Text

end EpcTag
