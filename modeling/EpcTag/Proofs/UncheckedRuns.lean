-- SUMMARY: Conversions that look up groups, functions, parameters and methods when they need them, and that never miss one.
import EpcTag.Proofs.Conversion
import EpcTag.Proofs.SoundSchemes

/-!
# Unchecked runs

A conversion relies on what was checked when its schemes were built. An unchecked run
relies on nothing: it looks for the group of a field in the pattern, for the function of
a rule in its text, for a parameter in the list of parameters and for a compaction method
by its name, when it needs it, and fails with a *gap* if it is not there. On sound
schemes an unchecked run ends exactly as the conversion does, so it never meets a gap.
-/

namespace EpcTag

/-! ## Gaps -/

/-- What an unchecked run looks for and does not find. -/
inductive Gap where
  | group (field : Text) (group : Option Int)
  | function (text : Text)
  | parameter (function : RuleFunction) (place : Nat)
  | method (name : Text)
  deriving DecidableEq, Repr

/-- Why an unchecked run fails. -/
inductive Failure where
  | gap (gap : Gap)
  | error (error : Error)
  deriving DecidableEq, Repr

/-- A calculation without gaps as an unchecked one. -/
def unchecked {α : Type} (outcome : Except Error α) : Except Failure α :=
  outcome.mapError .error

section
variable {α β : Type}

@[simp] theorem unchecked_ok (value : α) : unchecked (.ok value) = .ok value := rfl

@[simp] theorem unchecked_error (error : Error) :
    unchecked (.error error : Except Error α) = .error (.error error) := rfl

@[simp] theorem unchecked_pure (value : α) : unchecked (pure value) = pure value := rfl

@[simp] theorem unchecked_bind (first : Except Error α) (next : α → Except Error β) :
    unchecked (first >>= next) = unchecked first >>= fun value => unchecked (next value) := by
  cases first <;> rfl

theorem unchecked_traced_bind (first : Traced α) (next : α → Traced β) :
    unchecked (first >>= next).outcome =
      unchecked first.outcome >>= fun value => unchecked (next value).outcome := by
  rw [Traced.bind_outcome]
  exact unchecked_bind _ _

/-- A calculation has no gaps. -/
theorem unchecked_ne_gap (outcome : Except Error α) (gap : Gap) :
    unchecked outcome ≠ .error (.gap gap) := by
  cases outcome <;> simp

end

/-! ## Rules -/

/-- The parameter at a place. -/
def RuleFunction.parameter (function : RuleFunction) (params : List RuleParam) (place : Nat) :
    Except Failure RuleParam :=
  match params[place]? with
  | some param => .ok param
  | none => .error (.gap (.parameter function place))

/-- The result of a function, whose parameters are looked up one by one. -/
def RuleFunction.evalUnchecked (lookup : TableLookup) (context : Context)
    (params : List RuleParam) (function : RuleFunction) : Except Failure Scalar :=
  match function with
  | .tableLookup => do
    let value ← unchecked ((← function.parameter params 0).value context)
    let table ← function.parameter params 1
    let input ← function.parameter params 2
    let output ← function.parameter params 3
    unchecked (lookup table.text input.text output.text value)
  | .length => do
    let value ← unchecked ((← function.parameter params 0).value context)
    pure (.text (Text.ofNat (← unchecked value.operand).length))
  | .checkDigit => do
    let value ← unchecked ((← function.parameter params 0).value context)
    pure (.text (← unchecked (CheckDigit.compute (← unchecked value.operand))))
  | .substring => do
    let value ← unchecked ((← function.parameter params 0).value context)
    let first ← unchecked ((← function.parameter params 1).integer context)
    if params.length = 2 then
      pure (.text (Text.sliceFrom (← unchecked value.operand) first))
    else
      let count ← unchecked ((← function.parameter params 2).integer context)
      pure (.text (Text.slice (← unchecked value.operand) first (first + count)))
  | .concatenate => do
    let values ← unchecked (params.mapM (RuleParam.value context))
    pure (.text (Text.join (← unchecked (values.mapM Scalar.operand))))
  | .arithmetic op => do
    let a ← unchecked ((← function.parameter params 0).integer context)
    let b ← unchecked ((← function.parameter params 1).integer context)
    match op.apply? a b with
    | some n => pure (.text (Text.ofInt n))
    | none => .error (.error (.badValue (.divisionByZero (params.map RuleParam.text))))

/-- A function has the parameters that it takes. -/
theorem RuleCall.evalUnchecked_params (call : RuleCall) (lookup : TableLookup)
    (context : Context) :
    call.function.evalUnchecked lookup context call.params = unchecked (call.eval lookup context) := by
  cases call with
  | arithmetic op left right =>
    simp only [RuleFunction.evalUnchecked, RuleFunction.parameter, function, params, eval,
      unchecked_bind, List.getElem?_cons_zero, List.getElem?_cons_succ, ok_bind]
    refine bind_congr fun a => bind_congr fun b => ?_
    cases op.apply? a b <;> rfl
  | substring value start count =>
    cases count <;> simp only [eval, unchecked_bind, unchecked_pure] <;> rfl
  | _ =>
    simp only [eval, unchecked_bind, unchecked_pure]
    rfl

/-- The result of a rule, whose call is read from its text. -/
def Rule.evalUnchecked (lookup : TableLookup) (context : Context) (rule : Rule) :
    Except Failure Scalar :=
  match RuleCall.splitCall? rule.function with
  | none => .error (.gap (.function rule.function))
  | some (word, body) =>
    match RuleFunction.ofName? (Text.upper word) with
    | none => .error (.gap (.function rule.function))
    | some function => function.evalUnchecked lookup context (RuleCall.parseParams body)

/-- The text of a sound rule says what its call is. -/
theorem Rule.Sound.evalUnchecked_eq {rule : Rule} (h : rule.Sound) (lookup : TableLookup)
    (context : Context) :
    rule.evalUnchecked lookup context = unchecked (rule.call.eval lookup context) := by
  obtain ⟨word, body, hsplit, hfunction, hparams⟩ := h.written
  simp only [Rule.evalUnchecked, hsplit, hfunction, hparams]
  exact rule.call.evalUnchecked_params lookup context

namespace Rules

/-- The context that rules derive, one rule after the other. -/
def deriveAfter (lookup : TableLookup) : Option Int → Context → List Rule → Except Error Context
  | _, context, [] => .ok context
  | previous, context, rule :: rest => do
    rule.checkOrder previous
    let result ← rule.call.eval lookup context
    deriveAfter lookup rule.sequence (context.insert rule.newField result) rest

theorem runAfter_outcome (lookup : TableLookup) (previous : Option Int) (context : Context)
    (rules : List Rule) :
    ((runAfter lookup previous context rules).run.outcome.bind fun _ =>
      .ok (runAfter lookup previous context rules).context) =
      deriveAfter lookup previous context rules := by
  induction rules generalizing previous context with
  | nil => rfl
  | cons rule rest ih =>
    rw [runAfter, deriveAfter]
    cases horder : rule.checkOrder previous with
    | error error => rfl
    | ok _ =>
      dsimp only
      cases hvalue : rule.call.eval lookup context with
      | error error => rfl
      | ok value => exact ih rule.sequence (context.insert rule.newField value)

theorem derive_outcome (lookup : TableLookup) (context : Context) (rules : List Rule) :
    (derive lookup context rules).outcome = deriveAfter lookup none context rules := by
  rw [← runAfter_outcome]
  simp only [derive, run, Traced.bind_outcome, Traced.pure_outcome]

/-- The context that rules derive whose calls are read from their texts. -/
def deriveUnchecked (lookup : TableLookup) :
    Option Int → Context → List Rule → Except Failure Context
  | _, context, [] => .ok context
  | previous, context, rule :: rest => do
    unchecked (rule.checkOrder previous)
    let result ← rule.evalUnchecked lookup context
    deriveUnchecked lookup rule.sequence (context.insert rule.newField result) rest

theorem deriveUnchecked_eq {rules : List Rule} (h : ∀ rule ∈ rules, rule.Sound)
    (lookup : TableLookup) (previous : Option Int) (context : Context) :
    deriveUnchecked lookup previous context rules =
      unchecked (deriveAfter lookup previous context rules) := by
  induction rules generalizing previous context with
  | nil => rfl
  | cons rule rest ih =>
    obtain ⟨hrule, hrest⟩ := List.forall_mem_cons.mp h
    simp only [deriveUnchecked, deriveAfter, unchecked_bind, hrule.evalUnchecked_eq, ih hrest]

end Rules

/-! ## Fields -/

/-- The check that the compaction method of a field can be found by its name. -/
def Field.findMethod (field : Field) : Except Failure Unit :=
  match field.compaction with
  | none => .ok ()
  | some method =>
    match Compaction.ofName? method.name with
    | some _ => .ok ()
    | none => .error (.gap (.method method.name))

theorem Field.findMethod_eq (field : Field) : field.findMethod = .ok () := by
  unfold findMethod
  split
  · rfl
  · rw [Compaction.ofName?_name]

namespace LevelOption

/-- What the group of a field has captured, if the pattern of the option has the group. -/
def findGroup (option : LevelOption) (found : Pattern.Match) (field : Field) :
    Except Failure Text :=
  match field.group with
  | none => .error (.gap (.group field.name none))
  | some group =>
    if 1 ≤ group ∧ group ≤ option.pattern.groupCount then .ok ((found.group? group.toNat).getD [])
    else .error (.gap (.group field.name group))

variable (validator : Validator) (tagOption : Option LevelOption)

/-- The values of fields, whose groups and methods are looked up one by one. -/
def decodeUnchecked (option : LevelOption) (found : Pattern.Match) (binary : Bool) :
    List Field → Pairs Text Text → Except Failure (Pairs Text Text)
  | [], values => .ok values
  | field :: rest, values => do
    let captured ← option.findGroup found field
    field.findMethod
    let value ← unchecked (readField validator binary field (tagField? tagOption field.name)
      captured).outcome
    decodeUnchecked option found binary rest (values.insert field.name value)

theorem decodeUnchecked_eq {option : LevelOption} {fields : List Field}
    (h : ∀ field ∈ fields, ∃ group : Nat, field.group = some (group : Int) ∧ 1 ≤ group ∧
      group ≤ option.pattern.groupCount) (found : Pattern.Match) (binary : Bool)
    (values : Pairs Text Text) :
    option.decodeUnchecked validator tagOption found binary fields values =
      unchecked (decodeFields validator binary tagOption found fields values).outcome := by
  induction fields generalizing values with
  | nil => rfl
  | cons field rest ih =>
    obtain ⟨⟨group, hgroup, hrange⟩, hrest⟩ := List.forall_mem_cons.mp h
    have hfound : option.findGroup found field =
        .ok ((field.group.bind fun group => found.group? group.toNat).getD []) := by
      rw [findGroup, hgroup]
      exact if_pos (by omega)
    rw [decodeUnchecked, decodeFields, hfound, field.findMethod_eq]
    simp only [ok_bind, unchecked_traced_bind, Traced.record_outcome, unchecked_ok, ih hrest]

/-- The bits of fields, whose methods are looked up one by one. -/
def encodeUnchecked (key : Text) (context : Context) :
    List Field → Pairs Text Text → Except Failure (Pairs Text Text)
  | [], encoded => .ok encoded
  | field :: rest, encoded =>
    match context.field? field.name with
    | none => .error (.error (.missingField (.inOption field.name key)))
    | some value => do
      field.findMethod
      let bits ← unchecked (field.encode validator (tagField? tagOption field.name) value).outcome
      encodeUnchecked key context rest (encoded.insert field.name bits)

theorem encodeUnchecked_eq (key : Text) (context : Context) (fields : List Field)
    (encoded : Pairs Text Text) :
    encodeUnchecked validator tagOption key context fields encoded =
      unchecked (encodeFields validator key tagOption context fields encoded).outcome := by
  induction fields generalizing encoded with
  | nil => rfl
  | cons field rest ih =>
    rw [encodeUnchecked, encodeFields]
    cases context.field? field.name with
    | none => rfl
    | some value =>
      simp only [field.findMethod_eq, ok_bind, unchecked_traced_bind, Traced.record_outcome,
        unchecked_ok, ih]

end LevelOption

/-! ## Conversions -/

namespace Engine

/-- The first half of an unchecked conversion. -/
def readUnchecked (engine : Engine) (value : Text) (inputLevel : Option Text) (tagLength : Scalar)
    (params : Params) : Except Failure Reading := do
  let ⟨scheme, level⟩ ←
    unchecked (engine.index.resolve (plainValue value) tagLength inputLevel).outcome
  let context := startContext params scheme
  let (option, found) ← unchecked (select scheme level (plainValue value) context)
  let context := context.insert scheme.optionKey (.text option.key)
  let values ← option.decodeUnchecked engine.validator (scheme.tagOption? option.key) found
    (level.type = .binary) option.fields []
  let context := context.insertAll (Context.ofTexts values)
  let context ← Rules.deriveUnchecked engine.lookup none context level.extractRules
  pure ⟨scheme, option.key, context⟩

/-- The output of an option, whose methods are looked up one by one. -/
def renderUnchecked (engine : Engine) (output : Text) (option : LevelOption)
    (tagOption : Option LevelOption) (context : Context) : Except Failure Text :=
  if output = LevelType.binary.name then do
    let encoded ← LevelOption.encodeUnchecked engine.validator tagOption option.key context
      option.fields []
    let grammar ← unchecked option.grammar.operand
    unchecked (Grammar.render grammar (context.insertAll (Context.ofTexts encoded)) output).outcome
  else unchecked (engine.renderOutput output option tagOption context).outcome

/-- The second half of an unchecked conversion. -/
def writeUnchecked (engine : Engine) (reading : Reading) (output : Text) : Except Failure Text := do
  let (level, option) ← unchecked (outputOption reading.scheme output reading.key)
  let context ← Rules.deriveUnchecked engine.lookup none reading.context level.formatRules
  engine.renderUnchecked output option (reading.scheme.tagOption? reading.key) context

/-- Converts a value, looking up everything when it is needed. -/
def convertUnchecked (engine : Engine) (value : Text) (inputLevel : Option Text)
    (tagLength : Scalar) (params : Params) (output : Text) : Except Failure Text := do
  engine.writeUnchecked (← engine.readUnchecked value inputLevel tagLength params) output

variable {engine : Engine}

/-- What a value is resolved to is a level of one of the schemes. -/
theorem level_mem_of_resolve {value : Text} {tagLength : Scalar} {inputLevel : Option Text}
    {candidate : Candidate}
    (h : (engine.index.resolve value tagLength inputLevel).outcome = .ok candidate) :
    candidate.scheme ∈ engine.schemes ∧ candidate.level ∈ candidate.scheme.levels := by
  rw [engine.index_eq] at h
  obtain ⟨start, hmem, -⟩ := LevelIndex.exists_entry_of_resolve h
  obtain ⟨hscheme, hlevel, -⟩ := LevelIndex.mem_allEntries_iff.mp hmem
  exact ⟨hscheme, hlevel⟩

/-- The output level is a level of the scheme. -/
theorem mem_of_outputOption {scheme : Scheme} {output key : Text} {level : Level}
    {option : LevelOption} (h : outputOption scheme output key = .ok (level, option)) :
    level ∈ scheme.levels := by
  unfold outputOption at h
  split at h
  · cases h
  · next found hfound =>
    split at h
    · cases h
    · cases h
      obtain ⟨type, -, htype⟩ := Option.bind_eq_some_iff.mp hfound
      exact List.mem_of_find?_eq_some htype

theorem renderUnchecked_eq (output : Text) (option : LevelOption) (tagOption : Option LevelOption)
    (context : Context) :
    engine.renderUnchecked output option tagOption context =
      unchecked (engine.renderOutput output option tagOption context).outcome := by
  rw [renderUnchecked]
  split
  · next houtput =>
    rw [renderOutput, if_pos houtput]
    simp only [LevelOption.encodeUnchecked_eq, LevelOption.encode, unchecked_traced_bind,
      Traced.liftM_outcome]
  · rfl

theorem readUnchecked_eq (h : ∀ scheme ∈ engine.schemes, scheme.Sound) (value : Text)
    (inputLevel : Option Text) (tagLength : Scalar) (params : Params) :
    engine.readUnchecked value inputLevel tagLength params =
      unchecked (engine.read value inputLevel tagLength params) := by
  rw [readUnchecked, read]
  cases hresolve : (engine.index.resolve (plainValue value) tagLength inputLevel).outcome with
  | error error => rfl
  | ok candidate =>
    obtain ⟨hscheme, hlevel⟩ := level_mem_of_resolve hresolve
    have hsound := (h _ hscheme).levels _ hlevel
    simp only [unchecked_ok, ok_bind]
    cases hselect : select candidate.scheme candidate.level (plainValue value)
      (startContext params candidate.scheme) with
    | error error => rfl
    | ok chosen =>
      obtain ⟨option, found⟩ := chosen
      -- what is selected is of a sound level, whose options and rules pass all that is left out
      have hoption := hsound.options option (mem_of_select hselect).1
      have hrules : ∀ rule ∈ candidate.level.extractRules, rule.Sound := hsound.rules .extract
      simp only [unchecked_ok, ok_bind, unchecked_bind, unchecked_pure,
        LevelOption.decodeUnchecked_eq _ _ hoption, LevelOption.decode, Rules.derive_outcome,
        Rules.deriveUnchecked_eq hrules]

theorem writeUnchecked_eq {reading : Reading} (h : reading.scheme.Sound) (output : Text) :
    engine.writeUnchecked reading output = unchecked (engine.write reading output) := by
  rw [writeUnchecked, write]
  cases houtput : outputOption reading.scheme output reading.key with
  | error error => rfl
  | ok chosen =>
    obtain ⟨level, option⟩ := chosen
    have hrules : ∀ rule ∈ level.formatRules, rule.Sound :=
      (h.levels level (mem_of_outputOption houtput)).rules .format
    simp only [unchecked_ok, ok_bind, unchecked_bind, renderUnchecked_eq, Rules.derive_outcome,
      Rules.deriveUnchecked_eq hrules]

/-- A value is read as one of a scheme of the engine. -/
theorem scheme_mem_of_read {value : Text} {inputLevel : Option Text} {tagLength : Scalar}
    {params : Params} {reading : Reading}
    (h : engine.read value inputLevel tagLength params = .ok reading) :
    reading.scheme ∈ engine.schemes := by
  obtain ⟨candidate, hresolve, h⟩ := bind_eq_ok_iff.mp h
  obtain ⟨chosen, -, h⟩ := bind_eq_ok_iff.mp h
  obtain ⟨values, -, h⟩ := bind_eq_ok_iff.mp h
  obtain ⟨context, -, h⟩ := bind_eq_ok_iff.mp h
  cases h
  exact (level_mem_of_resolve hresolve).1

/-- On sound schemes an unchecked conversion ends like the conversion. -/
theorem convertUnchecked_eq (h : ∀ scheme ∈ engine.schemes, scheme.Sound) (value : Text)
    (inputLevel : Option Text) (tagLength : Scalar) (params : Params) (output : Text) :
    engine.convertUnchecked value inputLevel tagLength params output =
      unchecked (engine.convertFromLevel value inputLevel tagLength params output).outcome := by
  rw [convertUnchecked, convertFromLevel_outcome, readUnchecked_eq h]
  cases hread : engine.read value inputLevel tagLength params with
  | error error => rfl
  | ok reading =>
    rw [unchecked_ok, ok_bind, writeUnchecked_eq (h _ (scheme_mem_of_read hread))]
    rfl

end Engine

end EpcTag
