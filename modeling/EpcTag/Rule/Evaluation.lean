-- SUMMARY: Running rules: the result of a call in a context, and a sequence of rules that stores its results.
import EpcTag.Rule.Basic
import EpcTag.CheckDigit
import EpcTag.Context
import EpcTag.Traced

/-!
# Running rules

A call is evaluated in a context, which gives its field parameters their
values, with a function that answers table look-ups. Running a list of rules
stores every result in the context before the next rule runs. A run that fails
keeps what was stored before the failure.
-/

namespace EpcTag

/-- Answers a look-up in a table: the value of the output column in the row that
    has `value` in the input column. The arguments are the names of the table, of
    the input and of the output column, and the value. -/
abbrev TableLookup := Text → Text → Text → Scalar → Except Error Scalar

/-! ## Parameters -/

/-- The value of a parameter in a context. -/
def RuleParam.value (context : Context) : RuleParam → Except Error Scalar
  | .literal value => .ok (.text value)
  | .field name =>
    match context.field? name with
    | some value => .ok value
    | none => .error (.missingOperand name)

/-- The integer that a parameter stands for in a context. -/
def RuleParam.integer (context : Context) (param : RuleParam) : Except Error Int := do
  match ← param.value context with
  | .text value =>
    match Numeral.readInteger? 10 value with
    | some n => .ok n
    | none => .error (.badValue (.operand param.text value))
  | value => value.toInteger

/-! ## Calls -/

/-- The result of an operation. Quotient and remainder are those of division
    rounded down; dividing by zero has no result. -/
def ArithmeticOp.apply? : ArithmeticOp → Int → Int → Option Int
  | .add, a, b => some (a + b)
  | .multiply, a, b => some (a * b)
  | .subtract, a, b => some (a - b)
  | .divide, a, b => if b = 0 then none else some (a.fdiv b)
  | .modulo, a, b => if b = 0 then none else some (a.fmod b)

/-- The result of a call. The values of all parameters must be there before one of
    them is cut or joined. -/
def RuleCall.eval (lookup : TableLookup) (context : Context) : RuleCall → Except Error Scalar
  | .tableLookup value table input output => do
    lookup table.text input.text output.text (← value.value context)
  | .length value => do
    let text ← (← value.value context).operand
    pure (.text (Text.ofNat text.length))
  | .checkDigit value => do
    let digits ← (← value.value context).operand
    pure (.text (← CheckDigit.compute digits))
  | .substring value start none => do
    let value ← value.value context
    let first ← start.integer context
    pure (.text (Text.sliceFrom (← value.operand) first))
  | .substring value start (some count) => do
    let value ← value.value context
    let first ← start.integer context
    let count ← count.integer context
    pure (.text (Text.slice (← value.operand) first (first + count)))
  | .concatenate first rest => do
    let values ← (first :: rest).mapM (RuleParam.value context)
    pure (.text (Text.join (← values.mapM Scalar.operand)))
  | .arithmetic op left right => do
    let a ← left.integer context
    let b ← right.integer context
    match op.apply? a b with
    | some n => pure (.text (Text.ofInt n))
    | none => .error (.badValue (.divisionByZero [left.text, right.text]))

/-! ## Sequences of rules -/

/-- A run of rules: the context with everything that was stored, and how the run
    ended. -/
structure RuleRun where
  context : Context
  run : Traced Unit

/-- The check that a rule comes after the one before it. -/
def Rule.checkOrder (previous : Option Int) (rule : Rule) : Except Error Unit :=
  match previous, rule.sequence with
  | none, _ => .ok ()
  | some _, none => .error (.fault .wrongType)
  | some p, some s => if p < s then .ok () else .error (.fault .sequenceOrder)

namespace Rules

/-- Runs rules one after the other. `previous` is the place of the rule before the
    first one, if there was one with a place. -/
def runAfter (lookup : TableLookup) (previous : Option Int) (context : Context) :
    List Rule → RuleRun
  | [] => ⟨context, pure ()⟩
  | rule :: rest =>
    match rule.checkOrder previous with
    | .error error => ⟨context, Traced.fail error⟩
    | .ok () =>
      let started := Traced.record (.ruleStarted rule.sequence rule.newField)
      match rule.call.eval lookup context with
      | .error error => ⟨context, do started; Traced.fail error⟩
      | .ok result =>
        let next := runAfter lookup rule.sequence (context.insert rule.newField result) rest
        ⟨next.context, do
          started
          Traced.record (.ruleFinished rule.call.function.name rule.newField result)
          next.run⟩

/-- Runs rules one after the other. -/
def run (lookup : TableLookup) (context : Context) (rules : List Rule) : RuleRun :=
  runAfter lookup none context rules

/-- The context after a run of rules that does not fail. -/
def derive (lookup : TableLookup) (context : Context) (rules : List Rule) : Traced Context :=
  let result := run lookup context rules
  do result.run; pure result.context

@[simp] theorem run_nil (lookup : TableLookup) (context : Context) :
    run lookup context [] = ⟨context, pure ()⟩ := rfl

end Rules

end EpcTag
