-- SUMMARY: Reading of patterns in regular expression notation.
import EpcTag.Pattern.Basic

/-!
# Pattern text

Patterns are written as regular expressions: characters, escapes of
punctuation, the dot, the two anchors, character classes, capturing and plain
groups, alternatives and the greedy quantifiers. A quantifier must follow
something that it can repeat, which an anchor and another quantifier are not.
Whatever departs from this is no pattern.
-/

namespace EpcTag

/-- Why a text is no pattern. -/
inductive PatternError where
  | malformed
  /-- A count of repetitions of four billions and more. -/
  | repetitionTooLarge
  deriving DecidableEq, Repr

namespace Pattern

/-! ## Characters and classes -/

/-- May a backslash stand in front of `c`? Letters and digits have no escape. -/
def isEscapable (c : Char) : Bool := !c.isAlphanum

/-- A character or an escape at the start of a text, and the text behind it. -/
def readChar? : Text → Option (Char × Text)
  | [] => none
  | '\\' :: c :: rest => if isEscapable c then some (c, rest) else none
  | ['\\'] => none
  | c :: rest => some (c, rest)

/-- The ranges of a class up to its closing bracket, and the text behind it. The
    bracket does not close a class without ranges, and a hyphen in front of the
    closing bracket stands for itself. -/
def readRanges? : Nat → List CharRange → Text → Option (List CharRange × Text)
  | 0, _, _ => none
  | _, _, [] => none
  | bound + 1, ranges, c :: rest =>
    if c = ']' ∧ ranges ≠ [] then some (ranges, rest)
    else do
      let (low, rest) ← readChar? (c :: rest)
      match rest with
      | '-' :: ']' :: rest => some (ranges ++ [⟨low, low⟩, ⟨'-', '-'⟩], rest)
      | '-' :: rest =>
        let (high, rest) ← readChar? rest
        if high < low then none else readRanges? bound (ranges ++ [⟨low, high⟩]) rest
      | rest => readRanges? bound (ranges ++ [⟨low, low⟩]) rest

/-- A class, given the text behind its opening bracket, and the text behind it. -/
def readClass? (text : Text) : Option (CharClass × Text) :=
  match text with
  | '^' :: rest =>
    (readRanges? rest.length [] rest).map fun (ranges, rest) => (⟨true, ranges⟩, rest)
  | rest => (readRanges? rest.length [] rest).map fun (ranges, rest) => (⟨false, ranges⟩, rest)

/-! ## Quantifiers -/

/-- Counts of repetitions lie below this. -/
def repetitionLimit : Nat := Nat.pow 2 32 - 1

/-- A number of repetitions as written; `none` if nothing is written. -/
def readCount (digits : Text) : Except PatternError (Option Nat) :=
  if digits.isEmpty then .ok none
  else
    let n := Nat.ofDigitChars 10 digits 0
    if n < repetitionLimit then .ok (some n) else .error .repetitionTooLarge

/-- The bounds that stand between two braces, and the text behind the closing one;
    `none` if the braces hold something else. -/
def readBounds? (text : Text) : Option (Text × Text × Text) :=
  let low := text.takeWhile Char.isDigit
  match text.dropWhile Char.isDigit with
  | '\x7d' :: rest => if low.isEmpty then none else some (low, low, rest)
  | ',' :: rest =>
    match rest.dropWhile Char.isDigit with
    | '\x7d' :: after => some (low, rest.takeWhile Char.isDigit, after)
    | _ => none
  | _ => none

/-- The quantifier at the start of a text, its bounds and the text behind it;
    `none` if there is no quantifier. -/
def readQuantifier (text : Text) : Except PatternError (Option (Nat × Option Nat × Text)) :=
  match text with
  | '*' :: rest => .ok (some (0, none, rest))
  | '+' :: rest => .ok (some (1, none, rest))
  | '?' :: rest => .ok (some (0, some 1, rest))
  | '\x7b' :: body =>
    match readBounds? body with
    | none => .ok none
    | some (low, high, rest) => do
      let least := (← readCount low).getD 0
      let most ← readCount high
      match most with
      | some most => if most < least then .error .malformed else .ok (some (least, some most, rest))
      | none => .ok (some (least, none, rest))
  | _ => .ok none

/-! ## Patterns -/

/-- What a reader answers: a pattern, the number of groups opened so far, and the
    text behind the pattern. -/
abbrev Reading := Except PatternError (Pattern × Nat × Text)

/-- A pattern with the quantifier that follows it, if one does. -/
def quantify (pattern : Pattern) (groups : Nat) (rest : Text) : Reading := do
  match ← readQuantifier rest with
  | some (least, most, rest) => .ok (.repeated pattern least most, groups, rest)
  | none => .ok (pattern, groups, rest)

/-- The alternatives at the start of a text, up to a closing parenthesis or the
    end. The first argument bounds the depth of the reading, the second counts
    the groups opened before. -/
def readAlternatives : Nat → Nat → Text → Reading
  | 0, _, _ => .error .malformed
  | bound + 1, groups, text => do
    let (branch, groups, rest) ← readBranch bound groups text
    match rest with
    | '|' :: rest =>
      let (others, groups, rest) ← readAlternatives bound groups rest
      .ok (.alt branch others, groups, rest)
    | rest => .ok (branch, groups, rest)
where
  /-- The items of one alternative. -/
  readBranch : Nat → Nat → Text → Reading
  | 0, _, _ => .error .malformed
  | bound + 1, groups, text =>
    match text with
    | [] => .ok (.empty, groups, [])
    | c :: rest =>
      if c = '|' ∨ c = ')' then .ok (.empty, groups, c :: rest)
      else do
        let (item, groups, rest) ← readItem bound groups c rest
        let (others, groups, rest) ← readBranch bound groups rest
        .ok (.seq item others, groups, rest)
  /-- One item, given its first character and the text behind that, with its
      quantifier. -/
  readItem : Nat → Nat → Char → Text → Reading
  | 0, _, _, _ => .error .malformed
  | bound + 1, groups, c, rest => do
    if (← readQuantifier (c :: rest)).isSome then .error .malformed
    else if c = '^' then .ok (.start, groups, rest)
    else if c = '$' then .ok (.finish, groups, rest)
    else if c = '.' then quantify anyChar groups rest
    else if c = '[' then
      match readClass? rest with
      | some (class_, rest) => quantify (.one class_) groups rest
      | none => .error .malformed
    else if c = '(' then
      match rest with
      | '?' :: ':' :: rest =>
        let (inner, groups, rest) ← readAlternatives bound groups rest
        closed inner groups rest
      | '?' :: _ => .error .malformed
      | rest =>
        let (inner, groups', rest) ← readAlternatives bound (groups + 1) rest
        closed (.group (groups + 1) inner) groups' rest
    else
      match readChar? (c :: rest) with
      | some (c, rest) => quantify (.char c) groups rest
      | none => .error .malformed
  /-- A group whose closing parenthesis must come next, with its quantifier. -/
  closed (pattern : Pattern) (groups : Nat) (rest : Text) : Reading :=
    match rest with
    | ')' :: rest => quantify pattern groups rest
    | _ => .error .malformed

/-- The pattern that a text stands for. -/
def parse (text : Text) : Except PatternError Pattern := do
  match ← readAlternatives (3 * text.length + 3) 0 text with
  | (pattern, _, []) => .ok pattern
  | _ => .error .malformed

end Pattern

end EpcTag
