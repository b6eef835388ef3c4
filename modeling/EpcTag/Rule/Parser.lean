-- SUMMARY: Reading of rule functions such as `SUBSTR(gtin,0,1)`.
import EpcTag.Rule.Basic
import EpcTag.Error
import EpcTag.Text.Word
import EpcTag.Text.UpperCase

/-!
# Rule text

A rule function is written as a name in any case and its parameters between
parentheses. Commas separate the parameters; a comma inside a quoted parameter
does not count. A parameter is a literal if it stands in quotes of either kind
or is an integer, and otherwise the name of a field. Parameters of which
nothing but white space is left do not count.
-/

namespace EpcTag

namespace RuleParam

/-- Is the text an integer in ASCII digits, with or without a minus sign? -/
def isInteger : Text → Bool
  | '-' :: digits => Numeral.isDecimal digits
  | digits => Numeral.isDecimal digits

/-- The parameter that a token stands for. -/
def parse (token : Text) : RuleParam :=
  let token := Text.trim token
  if 2 ≤ token.length ∧ token.head? = token.getLast? ∧
      (token.head? = some '\'' ∨ token.head? = some '"') then
    .literal (token.drop 1).dropLast
  else if isInteger token then .literal token
  else .field token

example : parse " 'a' " = .literal "a" := by decide
example : parse "-1" = .literal "-1" := by decide
example : parse "a1" = .field "a1" := by decide

end RuleParam

namespace RuleCall

/-- A quoted token at the start of a text, with the white space around it, and
    the text behind it. -/
def quotedToken? (text : Text) : Option (Text × Text) :=
  match Text.trimStart text with
  | [] => none
  | quote :: rest =>
    if quote = '\'' ∨ quote = '"' then
      (Text.splitFirst quote rest).map fun (inner, after) =>
        (quote :: inner ++ [quote], Text.trimStart after)
    else none

/-- The tokens of a parameter list that has at most as many characters as the
    first argument says. A quoted token ends behind its closing quote; any other
    token ends at the next comma. -/
def tokensUpTo : Nat → Text → List Text
  | 0, _ => []
  | _, [] => []
  | bound + 1, c :: rest =>
    match quotedToken? (c :: rest) with
    | some (token, after) => token :: tokensUpTo bound after
    | none =>
      if c = ',' then tokensUpTo bound rest
      else (c :: rest).takeWhile (· ≠ ',') :: tokensUpTo bound ((c :: rest).dropWhile (· ≠ ','))

/-- The parameters in the text between the parentheses of a call. -/
def parseParams (body : Text) : List RuleParam :=
  ((tokensUpTo body.length body).filter fun token => Text.trim token ≠ []).map RuleParam.parse

/-- The name of a call and the text between its outer parentheses. -/
def splitCall? (text : Text) : Option (Text × Text) :=
  let start := Text.trimStart text
  let name := start.takeWhile Text.isWord
  match name, Text.trimStart (start.dropWhile Text.isWord) with
  | _ :: _, '(' :: rest =>
    match (Text.dropWhileEnd Text.isBlank rest).reverse with
    | ')' :: body => some (name, body.reverse)
    | _ => none
  | _, _ => none

/-- The call that a rule function stands for. -/
def parse (text : Text) : Except Error RuleCall :=
  match splitCall? text with
  | none => .error (.definition (.malformedFunction text))
  | some (word, body) =>
    let name := Text.upper word
    match RuleFunction.ofName? name with
    | none => .error (.definition (.unsupportedFunction text))
    | some function =>
      match ofParams? function (parseParams body) with
      | none => .error (.definition (.parameterCount name text))
      | some call => .ok call

example : parse "SUBSTR(gtin,0,1)" =
    .ok (.substring (.field "gtin") (.literal "0") (some (.literal "1"))) := by rfl

example : parse " concat ( 'a,b' , c ) " =
    .ok (.concatenate (.literal "a,b") [.field "c"]) := by rfl

end RuleCall

end EpcTag
