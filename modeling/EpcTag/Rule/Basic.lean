-- SUMMARY: Rules: the functions that derive one field from others.
import EpcTag.Scalar

/-!
# Rules

A rule gives a field the result of a function of other fields. Extract rules
derive fields from those that an input holds; format rules prepare the fields
that an output needs. The parameters of a function are literals or names of
fields, and a call of a function has exactly as many of them as it takes.
-/

namespace EpcTag

/-- A parameter of a rule function. -/
inductive RuleParam where
  | literal (value : Text)
  | field (name : Text)
  deriving DecidableEq, Repr

/-- The literal of a parameter or the name in it. -/
def RuleParam.text : RuleParam → Text
  | .literal value => value
  | .field name => name

/-- A function of two integers. -/
inductive ArithmeticOp where
  | add
  | multiply
  | divide
  | subtract
  | modulo
  deriving DecidableEq, Repr

/-- A function that a rule can call. -/
inductive RuleFunction where
  | tableLookup
  | length
  | checkDigit
  | substring
  | concatenate
  | arithmetic (op : ArithmeticOp)
  deriving DecidableEq, Repr

namespace RuleFunction

def all : List RuleFunction :=
  [.tableLookup, .length, .checkDigit, .substring, .concatenate, .arithmetic .add,
   .arithmetic .multiply, .arithmetic .divide, .arithmetic .subtract, .arithmetic .modulo]

/-- The name of a function in the text of a rule. -/
def name : RuleFunction → Text
  | .tableLookup => "TABLELOOKUP"
  | .length => "LENGTH"
  | .checkDigit => "GS1CHECKSUM"
  | .substring => "SUBSTR"
  | .concatenate => "CONCAT"
  | .arithmetic .add => "ADD"
  | .arithmetic .multiply => "MULTIPLY"
  | .arithmetic .divide => "DIVIDE"
  | .arithmetic .subtract => "SUBTRACT"
  | .arithmetic .modulo => "MOD"

/-- The function of a name. -/
def ofName? (text : Text) : Option RuleFunction := all.find? (·.name == text)

@[simp] theorem ofName?_name (function : RuleFunction) : ofName? function.name = some function := by
  cases function with
  | arithmetic op => cases op <;> decide
  | _ => decide

end RuleFunction

/-- A function with its parameters. -/
inductive RuleCall where
  | tableLookup (value table input output : RuleParam)
  | length (value : RuleParam)
  | checkDigit (value : RuleParam)
  | substring (value start : RuleParam) (count : Option RuleParam)
  | concatenate (first : RuleParam) (rest : List RuleParam)
  | arithmetic (op : ArithmeticOp) (left right : RuleParam)
  deriving DecidableEq, Repr

namespace RuleCall

/-- The function of a call. -/
def function : RuleCall → RuleFunction
  | .tableLookup .. => .tableLookup
  | .length _ => .length
  | .checkDigit _ => .checkDigit
  | .substring .. => .substring
  | .concatenate .. => .concatenate
  | .arithmetic op .. => .arithmetic op

/-- The parameters of a call, in their order. -/
def params : RuleCall → List RuleParam
  | .tableLookup value table input output => [value, table, input, output]
  | .length value => [value]
  | .checkDigit value => [value]
  | .substring value start count => [value, start] ++ count.toList
  | .concatenate first rest => first :: rest
  | .arithmetic _ left right => [left, right]

/-- The call of a function with the given parameters, if it takes that many. -/
def ofParams? : RuleFunction → List RuleParam → Option RuleCall
  | .tableLookup, [value, table, input, output] => some (.tableLookup value table input output)
  | .length, [value] => some (.length value)
  | .checkDigit, [value] => some (.checkDigit value)
  | .substring, [value, start] => some (.substring value start none)
  | .substring, [value, start, count] => some (.substring value start (some count))
  | .concatenate, first :: rest => some (.concatenate first rest)
  | .arithmetic op, [left, right] => some (.arithmetic op left right)
  | _, _ => none

@[simp] theorem ofParams?_params (call : RuleCall) :
    ofParams? call.function call.params = some call := by
  cases call with
  | substring value start count => cases count <;> rfl
  | _ => rfl

theorem eq_of_ofParams? {function : RuleFunction} {params : List RuleParam} {call : RuleCall}
    (h : ofParams? function params = some call) :
    call.function = function ∧ call.params = params := by
  unfold ofParams? at h
  split at h <;> cases h <;> exact ⟨rfl, rfl⟩

end RuleCall

/-- When a rule runs. -/
inductive RuleType where
  | extract
  | format
  deriving DecidableEq, Repr

namespace RuleType

def name : RuleType → Text
  | .extract => "EXTRACT"
  | .format => "FORMAT"

/-- The rule type of a name. -/
def ofName? (text : Text) : Option RuleType := [extract, format].find? (·.name == text)

@[simp] theorem ofName?_name (type : RuleType) : ofName? type.name = some type := by
  cases type <;> decide

end RuleType

/-- A rule: the field that it sets, the call whose result the field gets, and its
    place in the sequence of its level's rules. The table addresses are kept for
    the reader of a definition. -/
structure Rule where
  sequence : Option Int
  type : RuleType
  /-- The call as the definition writes it. -/
  function : Text
  /-- The name of the field that the rule sets, which need not be a text. -/
  newField : Scalar
  call : RuleCall
  tableUrl : Scalar
  tableXPath : Scalar
  deriving DecidableEq, Repr

end EpcTag
