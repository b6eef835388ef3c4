-- SUMMARY: Patterns, and backtracking search for a match.
import EpcTag.Text.Basic

/-!
# Patterns

A pattern describes texts and captures parts of them in numbered groups. The
search for a match tries the ways to match in a fixed order: the left
alternative before the right one, and more repetitions before fewer. It is
written in continuation style. `Pattern.search p s k` tries the ways in which
`p` matches at the state `s`, hands the state behind each to `k`, and answers
with the first answer of `k`.
-/

namespace EpcTag

/-- One entry of a character class: the characters from `low` to `high`. -/
structure CharRange where
  low : Char
  high : Char
  deriving DecidableEq, Repr

/-- A character class: the characters in one of the ranges, or those in none. -/
structure CharClass where
  negated : Bool
  ranges : List CharRange
  deriving DecidableEq, Repr

/-- Is a character in the class? -/
def CharClass.has (class_ : CharClass) (c : Char) : Bool :=
  (class_.ranges.any fun range => range.low ≤ c && c ≤ range.high) != class_.negated

inductive Pattern where
  /-- Matches the empty text. -/
  | empty
  /-- Matches one character of a class. -/
  | one (class_ : CharClass)
  /-- Matches the empty text at the start of the subject. -/
  | start
  /-- Matches the empty text at the end of the subject, or in front of the line
      end that ends it. -/
  | finish
  | seq (first second : Pattern)
  | alt (left right : Pattern)
  /-- Captures what the inner pattern matches in the group of the given number. -/
  | group (number : Nat) (inner : Pattern)
  /-- At least `least` and at most `most` matches of the inner pattern in a row. -/
  | repeated (inner : Pattern) (least : Nat) (most : Option Nat)
  deriving DecidableEq, Repr

namespace Pattern

/-- A pattern for exactly one character. -/
def char (c : Char) : Pattern := .one ⟨false, [⟨c, c⟩]⟩

/-- A pattern for every character but the line end. -/
def anyChar : Pattern := .one ⟨true, [⟨'\n', '\n'⟩]⟩

/-- The number of capture groups. -/
def groupCount : Pattern → Nat
  | .empty | .one _ | .start | .finish => 0
  | .seq first second => first.groupCount + second.groupCount
  | .alt left right => left.groupCount + right.groupCount
  | .group _ inner => inner.groupCount + 1
  | .repeated inner _ _ => inner.groupCount

/-! ## Search -/

/-- Where a search stands: what is left of the subject, whether nothing has been
    consumed of it, and what the groups have captured, the latest capture first. -/
structure State where
  rest : Text
  atStart : Bool
  captures : List (Nat × Text)
  deriving DecidableEq, Repr

namespace State

/-- The state before a subject. -/
def initial (subject : Text) : State := ⟨subject, true, []⟩

/-- What a group has captured last. -/
def capture? (state : State) (number : Nat) : Option Text := state.captures.lookup number

/-- The state in which a group has captured what lies between an earlier state and
    this one. -/
def captured (state : State) (number : Nat) (earlier : State) : State :=
  let text := earlier.rest.take (earlier.rest.length - state.rest.length)
  { state with captures := (number, text) :: state.captures }

/-- Is the state at the end, but for a last line end? -/
def atEnd (state : State) : Bool := state.rest.isEmpty || state.rest == ['\n']

end State

/-- The ways in which one step of a search can go on from a state, each tried with
    the continuation. -/
abbrev Step (α : Type) := State → (State → Option α) → Option α

/-- Exactly `count` steps in a row. -/
def exactly {α : Type} (step : Step α) : Nat → Step α
  | 0, state, k => k state
  | count + 1, state, k => step state fun next => exactly step count next k

/-- At most `most` steps in a row, more before fewer, with no limit for `none`. A
    step that consumes nothing ends the row. -/
def atMost {α : Type} (step : Step α) : Nat → Option Nat → Step α
  | 0, _, state, k => k state
  | _, some 0, state, k => k state
  | fuel + 1, most, state, k =>
    let more := step state fun next =>
      if next.rest.length < state.rest.length then atMost step fuel (most.map (· - 1)) next k
      else k next
    match more with
    | some answer => some answer
    | none => k state

/-- Tries the ways in which a pattern matches at a state. -/
def search {α : Type} : Pattern → Step α
  | .empty, state, k => k state
  | .one class_, state, k =>
    match state.rest with
    | [] => none
    | c :: rest => if class_.has c then k { state with rest, atStart := false } else none
  | .start, state, k => if state.atStart then k state else none
  | .finish, state, k => if state.atEnd then k state else none
  | .seq first second, state, k => first.search state fun next => second.search next k
  | .alt left right, state, k =>
    match left.search state k with
    | some answer => some answer
    | none => right.search state k
  | .group number inner, state, k =>
    inner.search state fun next => k (next.captured number state)
  | .repeated inner least most, state, k =>
    exactly (fun s j => inner.search s j) least state fun next =>
      atMost (fun s j => inner.search s j) (next.rest.length + 1) (most.map (· - least)) next k

/-- What a match of a pattern has captured. -/
structure Match where
  captures : List (Nat × Text)
  deriving DecidableEq, Repr

/-- What the group of the given number has captured. -/
def Match.group? (m : Match) (number : Nat) : Option Text := m.captures.lookup number

/-- The first match of a pattern at the start of a subject. -/
def matchStart? (pattern : Pattern) (subject : Text) : Option Match :=
  pattern.search (.initial subject) fun state => some ⟨state.captures⟩

/-- Does a pattern match the whole of a subject? -/
def matchesWhole (pattern : Pattern) (subject : Text) : Bool :=
  (pattern.search (.initial subject) fun state =>
    if state.rest.isEmpty then some () else none).isSome

end Pattern

end EpcTag
