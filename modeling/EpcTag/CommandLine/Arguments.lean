-- SUMMARY: The arguments of a command, split into options and operands.
import EpcTag.Text.Basic

/-!
# Arguments

An option has a long name behind two hyphens and may have a short one, a single
character behind one hyphen. The value of an option is the argument that follows
it, or stands in the same argument: behind an equality sign for a long name, and
directly behind a short one. Short options without values may share a hyphen.
Two hyphens alone end the options.
-/

namespace EpcTag.CommandLine

/-- An option that a command knows. -/
structure OptionSpec where
  /-- The name without its hyphens. -/
  long : Text
  short : Option Char := none
  takesValue : Bool := true
  deriving DecidableEq, Repr

/-- An option that is given, under its long name, with its value; the value of an
    option that takes none is empty. -/
abbrev GivenOption := Text × Text

/-- Why arguments cannot be split. -/
inductive ArgumentError where
  | unknownOption (argument : Text)
  | missingValue (name : Text)
  | unexpectedValue (name : Text)
  deriving DecidableEq, Repr

/-- What an argument with options gives: the complete options in it, and the last one
    if its value is still to come. -/
structure OptionArgument where
  complete : List GivenOption
  open? : Option Text := none
  deriving DecidableEq, Repr

/-- Does an argument hold options? A hyphen alone does not. -/
def isOptionArgument (argument : Text) : Bool :=
  match argument with
  | '-' :: _ :: _ => true
  | _ => false

/-- The short options behind a hyphen. The first that takes a value takes the rest of
    the argument, if there is a rest. -/
def readShort (specs : List OptionSpec) : Text → Except ArgumentError OptionArgument
  | [] => .ok ⟨[], none⟩
  | c :: rest =>
    match specs.find? fun spec => spec.short = some c with
    | none => .error (.unknownOption ['-', c])
    | some spec =>
      if spec.takesValue then
        .ok (if rest.isEmpty then ⟨[], some spec.long⟩ else ⟨[(spec.long, rest)], none⟩)
      else do
        let others ← readShort specs rest
        .ok { others with complete := (spec.long, []) :: others.complete }

/-- An option under its long name. -/
def readLong (spec : OptionSpec) (value : Option Text) : Except ArgumentError OptionArgument :=
  match spec.takesValue, value with
  | true, some value => .ok ⟨[(spec.long, value)], none⟩
  | true, none => .ok ⟨[], some spec.long⟩
  | false, none => .ok ⟨[(spec.long, [])], none⟩
  | false, some _ => .error (.unexpectedValue spec.long)

/-- The options of an argument that holds options. -/
def readOption (specs : List OptionSpec) (argument : Text) : Except ArgumentError OptionArgument :=
  match argument with
  | '-' :: '-' :: body =>
    let (name, value) := match Text.splitFirst '=' body with
      | some (name, value) => (name, some value)
      | none => (body, none)
    match specs.find? fun spec => spec.long = name with
    | some spec => readLong spec value
    | none => .error (.unknownOption argument)
  | body => readShort specs (body.drop 1)

/-- The result of splitting with more options in front. -/
def withOptions (given : List GivenOption) (result : List GivenOption × List Text) :
    List GivenOption × List Text :=
  (given ++ result.1, result.2)

/-- The options and the operands among arguments. If `mixed` is not set, everything
    from the first operand on is an operand. -/
def splitArguments (specs : List OptionSpec) (mixed : Bool) :
    List Text → Except ArgumentError (List GivenOption × List Text)
  | [] => .ok ([], [])
  | argument :: rest =>
    if argument = "--" then .ok ([], rest)
    else if isOptionArgument argument then
      match readOption specs argument with
      | .error cause => .error cause
      | .ok ⟨complete, none⟩ => (splitArguments specs mixed rest).map (withOptions complete)
      | .ok ⟨complete, some name⟩ =>
        match rest with
        | [] => .error (.missingValue name)
        | value :: rest =>
          (splitArguments specs mixed rest).map (withOptions (complete ++ [(name, value)]))
    else if mixed then
      (splitArguments specs mixed rest).map fun (options, operands) =>
        (options, argument :: operands)
    else .ok ([], argument :: rest)

/-- The value of an option; of several, the last one counts. -/
def lastValue? (options : List GivenOption) (name : Text) : Option Text :=
  (options.reverse.lookup name)

/-- All values of an option, in their order. -/
def allValues (options : List GivenOption) (name : Text) : List Text :=
  (options.filter fun option => option.1 = name).map Prod.snd

/-- Is an option given? -/
def isGiven (options : List GivenOption) (name : Text) : Bool := (lastValue? options name).isSome

example : splitArguments [⟨"debug", some 'd', false⟩, ⟨"param", some 'p', true⟩] true
    ["-dpk=v".toList, "x", "--param=a", "--", "-y"] =
    .ok ([("debug", []), ("param", "k=v"), ("param", "a")], ["x".toList, "-y"]) := by rfl

end EpcTag.CommandLine
