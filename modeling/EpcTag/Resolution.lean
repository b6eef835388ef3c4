-- SUMMARY: Finding the scheme and the level that an input value belongs to.
import EpcTag.PrefixTree
import EpcTag.Scheme.Basic
import EpcTag.Traced

/-!
# Resolution

A level with a prefix is a candidate for every value that starts with the
prefix. The candidates are collected from one prefix tree for each level type.
A tag length, if one is asked for, prefers the candidates that have it; what is
still tied is settled by the patterns of the levels' options.
-/

namespace EpcTag

/-- A level together with its scheme. -/
structure Candidate where
  scheme : Scheme
  level : Level
  deriving DecidableEq, Repr

namespace Candidate

/-- Does the pattern of one of the level's options match a value? -/
def accepts (candidate : Candidate) (value : Text) : Bool :=
  candidate.level.options.any (·.accepts value)

/-- The candidate as a message names it. -/
def name (candidate : Candidate) : LevelName := (candidate.scheme.name, candidate.level.type)

end Candidate

/-- The levels with a prefix, in one prefix tree for each level type. -/
structure LevelIndex where
  binary : PrefixTree Candidate
  tagEncoding : PrefixTree Candidate
  pureIdentity : PrefixTree Candidate
  legacy : PrefixTree Candidate
  onsHostname : PrefixTree Candidate

namespace LevelIndex

/-- The tree of the levels of a type. -/
def tree (index : LevelIndex) : LevelType → PrefixTree Candidate
  | .binary => index.binary
  | .tagEncoding => index.tagEncoding
  | .pureIdentity => index.pureIdentity
  | .legacy => index.legacy
  | .onsHostname => index.onsHostname

/-- The candidates of one type that schemes offer, with their prefixes, in the
    order of the schemes and their levels. -/
def entries (schemes : List Scheme) (type : LevelType) : List (Text × Candidate) :=
  schemes.flatMap fun scheme => scheme.levels.filterMap fun level =>
    if level.type = type then level.start.text?.map fun start => (start, ⟨scheme, level⟩)
    else none

/-- The index of the levels of schemes. Only a prefix that is a text can start a
    value. -/
def ofSchemes (schemes : List Scheme) : LevelIndex where
  binary := PrefixTree.ofList (entries schemes .binary)
  tagEncoding := PrefixTree.ofList (entries schemes .tagEncoding)
  pureIdentity := PrefixTree.ofList (entries schemes .pureIdentity)
  legacy := PrefixTree.ofList (entries schemes .legacy)
  onsHostname := PrefixTree.ofList (entries schemes .onsHostname)

/-- The check that all prefixes of the levels of schemes are texts. -/
def checkStarts (schemes : List Scheme) : Except Error Unit :=
  schemes.forM fun scheme => scheme.levels.forM fun level =>
    if level.start = .null ∨ level.start.text?.isSome then .ok () else .error (.fault .wrongType)

/-- The index of the levels of schemes, whose prefixes must be texts. -/
def build (schemes : List Scheme) : Except Error LevelIndex := do
  checkStarts schemes
  pure (ofSchemes schemes)

/-- The tree of a type holds the entries of that type. -/
@[simp] theorem tree_ofSchemes (schemes : List Scheme) (type : LevelType) :
    (ofSchemes schemes).tree type = PrefixTree.ofList (entries schemes type) := by
  cases type <;> rfl

/-- The level types that a search goes through: the named one, or all. -/
def searched (level : Option Text) : Except Error (List LevelType) :=
  match level with
  | none => .ok LevelType.all
  | some name =>
    match LevelType.ofName? name with
    | some type => .ok [type]
    | none => .error (.fault (.unknownInputLevel name))

/-- The candidates for a value at the given level types. -/
def candidates (index : LevelIndex) (types : List LevelType) (value : Text) : List Candidate :=
  types.flatMap fun type => (index.tree type).search value

/-- The tag length that a hint asks for. -/
def readHint (hint : Scalar) : Except Error Int :=
  match hint.integer? with
  | some n => .ok n
  | none => .error (.badValue (.tagLength hint))

/-- The candidates with the tag length that is asked for, if there are any; else
    all of them. A single candidate of another tag length is taken with notice.
    An absent hint asks for nothing. -/
def preferLength (value : Text) (hint : Scalar) (candidates : List Candidate) :
    Traced (List Candidate) :=
  if hint = .null then pure candidates
  else do
    let length ← Traced.ofExcept (readHint hint)
    let exact := candidates.filter (·.scheme.tagLength = length)
    if !exact.isEmpty then pure exact
    else
      if let [only] := candidates then
        Traced.record (.tagLengthReplaced value length only.scheme.name only.scheme.tagLength)
      pure candidates

/-- The candidate that is left when the patterns have settled a tie. -/
def settle (value : Text) : List Candidate → Traced Candidate
  | [] => Traced.fail (.noMatch (.noLevel value))
  | [only] => pure only
  | tied => do
    Traced.record (.levelsTied value (tied.map Candidate.name))
    match tied.filter (·.accepts value) with
    | [] => Traced.fail (.noMatch (.noPattern value))
    | [only] => pure only
    | left => Traced.fail (.ambiguous (.levels value (left.map Candidate.name)))

/-- The scheme and the level of a value. `hint` is the tag length that is asked
    for, and `level` the only level to search. -/
def resolve (index : LevelIndex) (value : Text) (hint : Scalar) (level : Option Text) :
    Traced Candidate := do
  let types ← Traced.ofExcept (searched level)
  let found := index.candidates types value
  if found.isEmpty then Traced.fail (.noMatch (.noLevel value))
  else
    let preferred ← preferLength value hint found
    let chosen ← settle value preferred
    Traced.record (.levelChosen value chosen.name)
    pure chosen

end LevelIndex

end EpcTag
