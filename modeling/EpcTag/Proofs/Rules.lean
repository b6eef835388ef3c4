-- SUMMARY: Rules in ascending sequence as assignments, and the results of the calls that cut and join keys.
import EpcTag.Rule.Evaluation
import EpcTag.Proofs.CheckDigit
import EpcTag.Proofs.OptionCoding

/-!
# Assignments

The rules of the built-in schemes are numbered from one up, so running them is to
assign the results of their calls one after the other. A field that no rule
assigns keeps its value. The calls cut the digits of a key at fixed places or at
the length of the company prefix, join pieces, and append the check digit.
-/

namespace EpcTag

/-- A field with the call whose result it gets. -/
structure Assignment where
  name : Text
  /-- The call as a definition writes it. -/
  function : Text
  call : RuleCall
  deriving DecidableEq, Repr

namespace Rules

variable {lookup : TableLookup} {type : RuleType} {context result : Context} {name : Text}

/-- Assignments as rules of one type, with ascending numbers. -/
def numbered (type : RuleType) : Nat → List Assignment → List Rule
  | _, [] => []
  | place, step :: steps =>
    { sequence := some place, type, function := step.function, newField := .text step.name,
      call := step.call, tableUrl := .null, tableXPath := .null } :: numbered type (place + 1) steps

/-- The context in which the results of all calls are assigned. -/
def assign (lookup : TableLookup) : Context → List Assignment → Except Error Context
  | context, [] => .ok context
  | context, step :: steps => do
    let value ← step.call.eval lookup context
    assign lookup (context.insert (.text step.name) value) steps

/-- To run numbered rules is to assign the results of their calls. -/
theorem runAfter_numbered {previous : Option Int} {place : Nat}
    (hplace : ∀ before, previous = some before → before < place) (context : Context)
    (steps : List Assignment) :
    ((runAfter lookup previous context (numbered type place steps)).run.outcome.bind fun _ =>
      .ok (runAfter lookup previous context (numbered type place steps)).context) =
      assign lookup context steps := by
  induction steps generalizing previous place context with
  | nil => rfl
  | cons step steps ih =>
    have horder (rule : Rule) (h : rule.sequence = some (place : Int)) :
        rule.checkOrder previous = .ok () := by
      cases previous with
      | none => rfl
      | some before =>
        rw [Rule.checkOrder.eq_def, h]
        exact if_pos (hplace before rfl)
    rw [numbered, runAfter, horder _ rfl, assign]
    dsimp only
    cases hvalue : step.call.eval lookup context with
    | error error => rfl
    | ok value =>
      exact @ih (some (place : Int)) (place + 1) (fun before h => by cases h; omega)
        (context.insert (.text step.name) value)

/-- The context that numbered rules derive. -/
theorem derive_numbered (context : Context) (steps : List Assignment) :
    (derive lookup context (numbered type 1 steps)).outcome = assign lookup context steps := by
  rw [← @runAfter_numbered lookup type none 1 (by simp)]
  simp only [derive, run, Traced.bind_outcome, Traced.pure_outcome]

theorem assign_cons_of_eval {step : Assignment} {value : Scalar}
    (h : step.call.eval lookup context = .ok value) (steps : List Assignment) :
    assign lookup context (step :: steps) =
      assign lookup (context.insert (.text step.name) value) steps := by
  rw [assign, h]
  rfl

/-- A field that is not assigned keeps its value. -/
theorem field?_of_assign {steps : List Assignment} (hname : name ∉ steps.map Assignment.name)
    (h : assign lookup context steps = .ok result) : result.field? name = context.field? name := by
  induction steps generalizing context with
  | nil =>
    cases h
    rfl
  | cons step steps ih =>
    simp only [List.map_cons, List.mem_cons, not_or] at hname
    obtain ⟨value, -, hrest⟩ := bind_eq_ok_iff.mp h
    rw [ih hname.2 hrest, Context.field?_insert, if_neg hname.1]

end Rules

/-! ## Calls -/

/-- The look-up that finds nothing, as there are no tables. -/
def TableLookup.empty : TableLookup := fun table input output value =>
  .error (.lookup (.noRow input output value table))

namespace RuleParam

variable {context : Context} {name text : Text} {n : Nat}

theorem value_field {value : Scalar} (h : context.field? name = some value) :
    (RuleParam.field name).value context = .ok value := by
  rw [RuleParam.value, h]

theorem integer_of_value {param : RuleParam} (h : param.value context = .ok (.text (Text.ofNat n))) :
    param.integer context = .ok (n : Int) := by
  unfold integer
  simp only [h, bind, Except.bind, Numeral.readInteger?_ofNat]

theorem integer_literal (context : Context) (n : Nat) :
    (RuleParam.literal (Text.ofNat n)).integer context = .ok (n : Int) :=
  integer_of_value rfl

theorem integer_field (h : context.field? name = some (.text (Text.ofNat n))) :
    (RuleParam.field name).integer context = .ok (n : Int) :=
  integer_of_value (value_field h)

end RuleParam

namespace RuleCall

variable {lookup : TableLookup} {context : Context} {value start count : RuleParam} {text : Text}
  {first length : Nat} {place : Int}

/-- A call without a length takes the rest of the text of its value. -/
theorem eval_substring_rest (hstart : start.integer context = .ok place) :
    (RuleCall.substring value start none).eval lookup context =
      ((value.value context).bind Scalar.operand).map fun text =>
        .text (Text.sliceFrom text place) := by
  rw [eval]
  cases value.value context with
  | error error => rfl
  | ok value =>
    change (start.integer context >>= fun first => _) = _
    rw [hstart]
    change (value.operand >>= fun text => _) = value.operand.map _
    cases value.operand <;> rfl

/-- A call with a length takes a piece of the text of its value. -/
theorem eval_substring_piece (hstart : start.integer context = .ok place)
    (hcount : count.integer context = .ok (length : Int)) :
    (RuleCall.substring value start (some count)).eval lookup context =
      ((value.value context).bind Scalar.operand).map fun text =>
        .text (Text.slice text place (place + length)) := by
  rw [eval]
  cases value.value context with
  | error error => rfl
  | ok value =>
    change (start.integer context >>= fun first => count.integer context >>= fun count => _) = _
    rw [hstart, hcount]
    change (value.operand >>= fun text => _) = value.operand.map _
    cases value.operand <;> rfl

theorem eval_substring_from (hvalue : value.value context = .ok (.text text))
    (hstart : start.integer context = .ok (first : Int)) :
    (RuleCall.substring value start none).eval lookup context = .ok (.text (text.drop first)) := by
  rw [eval_substring_rest hstart, hvalue, ← Text.sliceFrom_natCast]
  rfl

theorem eval_substring (hvalue : value.value context = .ok (.text text))
    (hstart : start.integer context = .ok (first : Int))
    (hcount : count.integer context = .ok (length : Int)) :
    (RuleCall.substring value start (some count)).eval lookup context =
      .ok (.text ((text.drop first).take length)) := by
  rw [eval_substring_piece hstart hcount, hvalue, ← Text.slice_natCast]
  rfl

/-- Joining fields that the context holds. -/
theorem eval_concatenate {name : Text} {names : List Text} {texts : List Text}
    (h : context.Holds (name :: names) texts) :
    (RuleCall.concatenate (.field name) (names.map RuleParam.field)).eval lookup context =
      .ok (.text (Text.join texts)) := by
  have hvalues : ∀ {names texts : List Text}, context.Holds names texts →
      (names.map RuleParam.field).mapM (RuleParam.value context) =
        .ok (texts.map Scalar.text) := by
    intro names texts h
    induction h with
    | nil => rfl
    | cons hname _ ih =>
      rw [List.map_cons, List.mapM_cons, RuleParam.value_field hname, ih]
      rfl
  rw [eval, show RuleParam.field name :: names.map RuleParam.field =
    (name :: names).map RuleParam.field from rfl, hvalues h]
  change ((texts.map Scalar.text).mapM Scalar.operand >>= fun texts => _) = _
  rw [Scalar.mapM_operand_text]
  rfl

theorem eval_checkDigit (hvalue : value.value context = .ok (.text text)) :
    (RuleCall.checkDigit value).eval lookup context =
      (CheckDigit.compute text).map Scalar.text := by
  rw [eval, hvalue]
  change (CheckDigit.compute text >>= fun digit => _) = _
  cases CheckDigit.compute text <;> rfl

end RuleCall

end EpcTag
