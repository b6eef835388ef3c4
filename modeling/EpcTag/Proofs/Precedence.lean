-- SUMMARY: What a tag says takes precedence over parameters: conversions whose outcome no parameter changes.
import EpcTag.Proofs.IndexedTags

/-!
# Precedence of the input

Parameters are put into the same context that rules, encoders and grammars read,
under any names. Two contexts that agree on the names that are read lead to the same
outcome, and a name is agreed on as soon as a value is stored under it: the fields of
the input are, and so is the result of every rule. Which names a conversion reads can
be told from the definitions alone.
-/

namespace EpcTag

/-! ## Contexts that agree -/

namespace Context

/-- The names have the same values in two contexts. -/
def Agree (names : List Text) (a b : Context) : Prop := ∀ name ∈ names, a.field? name = b.field? name

variable {names : List Text} {a b : Context}

theorem Agree.mono {names' : List Text} (h : Agree names' a b) (hsub : names ⊆ names') :
    Agree names a b := fun name hname => h name (hsub hname)

/-- A name is agreed on once a value is stored under it. -/
theorem Agree.insert (h : Agree names a b) (key value : Scalar) :
    Agree (key.text?.toList ++ names) (Pairs.insert a key value) (Pairs.insert b key value) := by
  intro name hname
  by_cases hkey : (.text name : Scalar) = key
  · subst hkey
    rw [field?, field?, Pairs.get?_insert_self, Pairs.get?_insert_self]
  · rw [field?, field?, Pairs.get?_insert_of_ne value hkey, Pairs.get?_insert_of_ne value hkey]
    refine h name ((List.mem_append.mp hname).resolve_left fun hmem => hkey ?_)
    cases key with
    | text key => rw [List.mem_singleton.mp hmem]
    | _ => cases hmem

/-- The names of stored texts are agreed on. -/
theorem Agree.insertAll (h : Agree names a b) (pairs : List (Text × Text)) :
    Agree (pairs.map Prod.fst ++ names) (Pairs.insertAll a (ofTexts pairs))
      (Pairs.insertAll b (ofTexts pairs)) := by
  induction pairs generalizing names a b with
  | nil => exact h
  | cons entry pairs ih =>
    obtain ⟨name, value⟩ := entry
    refine (ih (h.insert (.text name) (.text value))).mono ?_
    simp [Scalar.text?]

end Context

/-! ## Outcomes that are alike -/

/-- Two calculations fail with the same error or have results in a relation. -/
inductive Alike {ε α : Type} (related : α → α → Prop) : Except ε α → Except ε α → Prop
  | ok {a b : α} (h : related a b) : Alike related (.ok a) (.ok b)
  | error (error : ε) : Alike related (.error error) (.error error)

namespace Alike

variable {ε α β : Type} {related : α → α → Prop} {first second : Except ε α}

/-- What comes after alike calculations has the same outcome if it does for related results. -/
theorem bind_eq (h : Alike related first second) {next next' : α → Except ε β}
    (hnext : ∀ a b, related a b → next a = next' b) : first.bind next = second.bind next' := by
  cases h with
  | ok h => exact hnext _ _ h
  | error error => rfl

end Alike

/-! ## Rules -/

/-- The fields that a parameter reads. -/
def RuleParam.reads : RuleParam → List Text
  | .literal _ => []
  | .field name => [name]

/-- The fields that a call reads. A look-up names its table and the columns by their
    parameters as they are written. -/
def RuleCall.reads : RuleCall → List Text
  | .tableLookup value _ _ _ => value.reads
  | call => call.params.flatMap RuleParam.reads

section
variable {lookup : TableLookup} {names known : List Text} {a b : Context}

theorem RuleParam.value_congr {param : RuleParam} (h : Context.Agree param.reads a b) :
    param.value a = param.value b := by
  cases param with
  | literal value => rfl
  | field name => rw [value, value, h name (by simp [reads])]

theorem RuleParam.integer_congr {param : RuleParam} (h : Context.Agree param.reads a b) :
    param.integer a = param.integer b := by
  rw [integer, integer, value_congr h]

theorem RuleParam.mapM_value_congr {params : List RuleParam}
    (h : Context.Agree (params.flatMap reads) a b) :
    params.mapM (RuleParam.value a) = params.mapM (RuleParam.value b) := by
  induction params with
  | nil => rfl
  | cons param params ih =>
    rw [List.flatMap_cons] at h
    rw [List.mapM_cons, List.mapM_cons, value_congr (h.mono (List.subset_append_left _ _)),
      ih (h.mono (List.subset_append_right _ _))]

/-- The result of a call depends on the fields that it reads. -/
theorem RuleCall.eval_congr {call : RuleCall} (h : Context.Agree call.reads a b) :
    call.eval lookup a = call.eval lookup b := by
  have hparam (param : RuleParam) (hmem : param.reads ⊆ call.reads) :
      param.value a = param.value b ∧ param.integer a = param.integer b :=
    ⟨RuleParam.value_congr (h.mono hmem), RuleParam.integer_congr (h.mono hmem)⟩
  cases call with
  | tableLookup value table input output =>
    rw [eval, eval, (hparam value (by simp [reads])).1]
  | length value => rw [eval, eval, (hparam value (by simp [reads, params])).1]
  | checkDigit value => rw [eval, eval, (hparam value (by simp [reads, params])).1]
  | substring value start count =>
    have hvalue := (hparam value (by simp [reads, params])).1
    have hstart := (hparam start (by simp [reads, params])).2
    cases count with
    | none => rw [eval, eval, hvalue, hstart]
    | some count =>
      rw [eval, eval, hvalue, hstart, (hparam count (by simp [reads, params])).2]
  | concatenate first rest =>
    have hvalues : (first :: rest).mapM (RuleParam.value a) =
        (first :: rest).mapM (RuleParam.value b) := RuleParam.mapM_value_congr h
    rw [eval, eval, hvalues]
  | arithmetic op left right =>
    rw [eval, eval, (hparam left (by simp [reads, params])).2,
      (hparam right (by simp [reads, params])).2]

namespace Rules

/-- The names that are settled after rules ran, if every rule reads settled names only. -/
def settled (names : List Text) : List Rule → Option (List Text)
  | [] => some names
  | rule :: rules =>
    if rule.call.reads ⊆ names then settled (rule.newField.text?.toList ++ names) rules else none

/-- Rules that read what contexts agree on derive contexts that agree on their results. -/
theorem alike_runAfter (hsettled : settled names rules = some known)
    (hagree : Context.Agree names a b) (previous : Option Int) :
    Alike (Context.Agree known)
      ((runAfter lookup previous a rules).run.outcome.bind fun _ =>
        .ok (runAfter lookup previous a rules).context)
      ((runAfter lookup previous b rules).run.outcome.bind fun _ =>
        .ok (runAfter lookup previous b rules).context) := by
  induction rules generalizing names a b previous with
  | nil =>
    cases hsettled
    exact .ok hagree
  | cons rule rules ih =>
    rw [settled] at hsettled
    split at hsettled
    · next hreads =>
      -- the rule reads only what the contexts agree on, so it fails in both or stores the same
      rw [runAfter, runAfter]
      cases rule.checkOrder previous with
      | error error => exact .error error
      | ok =>
        dsimp only
        rw [RuleCall.eval_congr (hagree.mono hreads)]
        cases rule.call.eval lookup b with
        | error error => exact .error error
        | ok value => exact ih hsettled (hagree.insert _ _) _
    · cases hsettled

theorem alike_derive (hsettled : settled names rules = some known)
    (hagree : Context.Agree names a b) :
    Alike (Context.Agree known) (derive lookup a rules).outcome (derive lookup b rules).outcome := by
  have h := @alike_runAfter lookup names known a b rules hsettled hagree none
  simpa only [derive, run, Traced.bind_outcome, Traced.pure_outcome] using h

end Rules

end

/-! ## Options -/

/-- The field that a piece of a grammar stands for. -/
def GrammarPiece.reads : GrammarPiece → List Text
  | .literal _ => []
  | .field name => [name]

namespace LevelOption

/-- The fields that the grammar of an option names. -/
def grammarReads (option : LevelOption) : List Text :=
  (Grammar.pieces (option.grammar.text?.getD [])).flatMap GrammarPiece.reads

/-- The fields that an output of an option reads. -/
def reads (option : LevelOption) : List Text := option.fields.map Field.name ++ option.grammarReads

end LevelOption

section
variable {a b : Context}

theorem Grammar.render_congr {option : LevelOption} {grammar : Text}
    (hgrammar : option.grammar.operand = .ok grammar) (h : Context.Agree option.grammarReads a b)
    (level : Text) : (render grammar a level).outcome = (render grammar b level).outcome := by
  have htext : option.grammar.text?.getD [] = grammar := by
    cases hoption : option.grammar with
    | text text => rw [hoption] at hgrammar; exact Except.ok.inj hgrammar
    | _ => rw [hoption] at hgrammar; cases hgrammar
  rw [LevelOption.grammarReads, htext] at h
  have hpieces : ∀ {some : List GrammarPiece}, Context.Agree (some.flatMap GrammarPiece.reads) a b →
      some.mapM (renderPiece grammar (isEscapedAt level) a) =
        some.mapM (renderPiece grammar (isEscapedAt level) b) := by
    intro some hsome
    induction some with
    | nil => rfl
    | cons piece rest ih =>
      rw [List.flatMap_cons] at hsome
      have hpiece : renderPiece grammar (isEscapedAt level) a piece =
          renderPiece grammar (isEscapedAt level) b piece := by
        cases piece with
        | literal text => rfl
        | field name => rw [renderPiece, renderPiece, hsome name (by simp [GrammarPiece.reads])]
      rw [List.mapM_cons, List.mapM_cons, hpiece, ih (hsome.mono (List.subset_append_right _ _))]
  simp only [render, renderPieces, hpieces h, Traced.bind_outcome, Traced.ofExcept_outcome,
    Traced.record_outcome, Traced.pure_outcome]

namespace LevelOption

variable {validator : Validator} {tagOption : Option LevelOption} {fields : List Field}

theorem encodeFields_congr {key : Text} (h : Context.Agree (fields.map Field.name) a b)
    (encoded : Pairs Text Text) :
    (encodeFields validator key tagOption a fields encoded).outcome =
      (encodeFields validator key tagOption b fields encoded).outcome := by
  induction fields generalizing encoded with
  | nil => rfl
  | cons field fields ih =>
    have hrest := ih (h.mono (List.subset_cons_self _ _))
    rw [encodeFields, encodeFields, h field.name (by simp)]
    cases Context.field? b field.name with
    | none => rfl
    | some value => simp only [Traced.bind_outcome, hrest]

theorem validateFields_congr (h : Context.Agree (fields.map Field.name) a b) :
    (validateFields validator a fields).outcome = (validateFields validator b fields).outcome := by
  induction fields with
  | nil => rfl
  | cons field fields ih =>
    have hrest := ih (h.mono (List.subset_cons_self _ _))
    rw [validateFields, validateFields, h field.name (by simp)]
    dsimp only
    split
    · simp only [Traced.bind_outcome, hrest]
    · exact hrest

/-- A name stays stored while fields are decoded. -/
theorem mem_decodeFields {binary : Bool} {found : Pattern.Match} {stored values : Pairs Text Text}
    (h : (decodeFields validator binary tagOption found fields stored).outcome = .ok values) :
    stored.map Prod.fst ++ fields.map Field.name ⊆ values.map Prod.fst := by
  induction fields generalizing stored with
  | nil =>
    cases h
    simp
  | cons field fields ih =>
    rw [decodeFields] at h
    simp only [Traced.bind_outcome_eq_ok_iff] at h
    obtain ⟨value, -, -, -, h⟩ := h
    refine List.Subset.trans ?_ (ih h)
    intro name hname
    simp only [List.map_cons, List.mem_append, List.mem_cons] at hname
    rw [List.mem_append, Pairs.mem_names_insert]
    tauto

end LevelOption

namespace Engine

variable {engine : Engine} {scheme : Scheme} {option : LevelOption}

/-- An output depends on the fields that its option reads. -/
theorem renderOutput_congr (h : Context.Agree option.reads a b) (output : Text)
    (tagOption : Option LevelOption) :
    (engine.renderOutput output option tagOption a).outcome =
      (engine.renderOutput output option tagOption b).outcome := by
  have hfields := h.mono (List.subset_append_left _ option.grammarReads)
  have hgrammar := h.mono (List.subset_append_right (option.fields.map Field.name) _)
  unfold renderOutput
  split
  · simp only [Traced.bind_outcome, Traced.liftM_outcome, LevelOption.encode,
      LevelOption.encodeFields_congr hfields]
    refine congrArg _ (funext fun encoded => ?_)
    cases hoperand : option.grammar.operand with
    | error error => rfl
    | ok grammar =>
      exact Grammar.render_congr hoperand
        ((hgrammar.insertAll encoded).mono (List.subset_append_right _ _)) output
  · simp only [Traced.bind_outcome, Traced.liftM_outcome, LevelOption.validate,
      LevelOption.validateFields_congr hfields]
    refine congrArg _ (funext fun _ => ?_)
    cases hoperand : option.grammar.operand with
    | error error => rfl
    | ok grammar => exact Grammar.render_congr hoperand hgrammar output

/-- The names that are settled when an option of a scheme has been decoded. -/
def settledFields (scheme : Scheme) (option : LevelOption) : List Text :=
  option.fields.map Field.name ++ scheme.optionKey.text?.toList ++ [tagLengthName]

/-- The outputs of a scheme only read fields that the inputs of a level hold, or that are
    derived from these. -/
def Determines (scheme : Scheme) (level : Level) : Prop :=
  ∀ option ∈ level.options,
    ∃ read ∈ Rules.settled (settledFields scheme option) level.extractRules,
      ∀ output ∈ scheme.levels, ∀ target ∈ output.options, target.key = option.key →
        ∃ written ∈ Rules.settled read output.formatRules, target.reads ⊆ written

instance (scheme : Scheme) (level : Level) : Decidable (Determines scheme level) :=
  inferInstanceAs (Decidable (∀ option ∈ level.options,
    ∃ read ∈ Rules.settled (settledFields scheme option) level.extractRules,
      ∀ output ∈ scheme.levels, ∀ target ∈ output.options, target.key = option.key →
        ∃ written ∈ Rules.settled read output.formatRules, target.reads ⊆ written))

/-- What is written depends on the names that are settled. -/
theorem write_congr {key : Text} {read : List Text}
    (houtputs : ∀ output ∈ scheme.levels, ∀ target ∈ output.options, target.key = key →
      ∃ written ∈ Rules.settled read output.formatRules, target.reads ⊆ written)
    (h : Context.Agree read a b) (output : Text) :
    engine.write ⟨scheme, key, a⟩ output = engine.write ⟨scheme, key, b⟩ output := by
  rw [write, write]
  dsimp only
  cases houtput : outputOption scheme output key with
  | error error => rfl
  | ok found =>
    obtain ⟨level, target⟩ := found
    obtain ⟨hlevel, htarget, hkey⟩ : level ∈ scheme.levels ∧ target ∈ level.options ∧
        target.key = key := by
      unfold outputOption at houtput
      split at houtput
      · cases houtput
      · next level hlevel =>
        split at houtput
        · cases houtput
        · next target htarget =>
          cases houtput
          obtain ⟨type, -, hlevel⟩ := Option.bind_eq_some_iff.mp hlevel
          exact ⟨List.mem_of_find?_eq_some hlevel, List.mem_of_find?_eq_some htarget,
            by simpa using List.find?_some htarget⟩
    obtain ⟨written, hwritten, hreads⟩ := houtputs level hlevel target htarget hkey
    exact (Rules.alike_derive hwritten h).bind_eq fun a b hagree =>
      renderOutput_congr (hagree.mono hreads) output _

/-- A value whose level determines the outputs, and whose option is selected without regard
    to the parameters, is converted to the same whatever these are. -/
theorem convert_congr {level : Level} {value : Text} {params params' : Params}
    (hresolve : (engine.index.resolve (plainValue value) (params.get tagLengthName) none).outcome =
      .ok ⟨scheme, level⟩)
    (hresolve' : (engine.index.resolve (plainValue value) (params'.get tagLengthName)
      none).outcome = .ok ⟨scheme, level⟩)
    (hselect : ∀ a b, select scheme level (plainValue value) a =
      select scheme level (plainValue value) b)
    (hdetermines : Determines scheme level) (output : Text) :
    (engine.convert value params output).outcome =
      (engine.convert value params' output).outcome := by
  rw [convert_outcome, convert_outcome, read, read]
  simp only [bind_eq_bind, hresolve, hresolve', ok_bind, bind_assoc,
    hselect (startContext params scheme) (startContext params' scheme)]
  cases hselected : select scheme level (plainValue value) (startContext params' scheme) with
  | error error => rfl
  | ok selected =>
    obtain ⟨option, found⟩ := selected
    simp only [ok_bind]
    cases hdecode : (option.decode engine.validator found (level.type = .binary)
        (scheme.tagOption? option.key)).outcome with
    | error error => rfl
    | ok values =>
      obtain ⟨read, hread, houtputs⟩ := hdetermines option (mem_of_select hselected).1
      -- the contexts agree on what the option settles, and the outputs read nothing else
      have hstored : option.fields.map Field.name ⊆ values.map Prod.fst :=
        LevelOption.mem_decodeFields hdecode
      have hstart : Context.Agree [tagLengthName] (startContext params scheme)
          (startContext params' scheme) :=
        (@Context.Agree.insert [] _ _ (List.forall_mem_nil _) (.text tagLengthName) _)
      have hfields := (hstart.insert scheme.optionKey (.text option.key)).insertAll values
      have hsub : settledFields scheme option ⊆
          values.map Prod.fst ++ (scheme.optionKey.text?.toList ++ [tagLengthName]) := by
        rw [settledFields, List.append_assoc]
        exact List.append_subset.mpr ⟨List.subset_append_of_subset_left _ hstored,
          List.subset_append_right _ _⟩
      exact (Rules.alike_derive hread (hfields.mono hsub)).bind_eq fun a b hagree =>
        write_congr houtputs hagree output

end Engine

end

/-! ## The built-in schemes -/

namespace Builtin

/-- Bits and tag URIs hold all that any output needs. -/
theorem determines : ∀ scheme ∈ schemes, ∀ level ∈ scheme.levels,
    level.type = .binary ∨ level.type = .tagEncoding → Engine.Determines scheme level := by
  decide +kernel

/-- The option of a tag or a tag URI is the same in all contexts, except for the bits of
    an SGTIN-64, which look alike at all places. -/
theorem select_congr {scheme : Scheme} {level : Level} (hscheme : scheme ∈ schemes)
    (hmem : level ∈ scheme.levels)
    (hlevel : level.type = .tagEncoding ∨ level.type = .binary ∧ scheme.name ≠ "SGTIN-64".toList)
    (value : Text) (a b : Context) :
    Engine.select scheme level value a = Engine.select scheme level value b := by
  have hlawful {Place : Type} {form : TagForm Place} (h : form.Lawful)
      (hmem : level ∈ form.scheme.levels) :
      Engine.select form.scheme level value a = Engine.select form.scheme level value b := by
    obtain ⟨hbinary, htag, -⟩ := h.type_eq
    rcases hlevel.imp_right And.left with htype | htype
    · obtain rfl := TagForm.level_eq_of_type h.types_nodup (by simp [TagForm.sides]) hmem
        (htype.trans htag.symm)
      exact (h.separates (by simp)).select_congr value a b
    · obtain rfl := TagForm.level_eq_of_type h.types_nodup (by simp [TagForm.sides]) hmem
        (htype.trans hbinary.symm)
      exact (h.separates (by simp)).select_congr value a b
  rcases scheme_cases hscheme with ⟨form, hform, rfl⟩ | ⟨form, hform, rfl⟩ | rfl
  · exact hlawful (lawful_gs1 form hform).tagForm hmem
  · exact hlawful (lawful_single form hform) hmem
  · have htype : level.type = .tagEncoding := hlevel.resolve_right fun h => h.2 rfl
    obtain rfl : level = Gs1Form.shortForm.level Gs1Form.shortForm.tag :=
      TagForm.level_eq_of_type Gs1Form.written_short.types (by simp [TagForm.sides]) hmem htype
    exact Gs1Form.separates_short.select_congr value a b

end Builtin

namespace Engine

variable {settings : Settings} {engine : Engine} {value : Text} {scheme : Scheme} {level : Level}

/-- A tag or a tag URI is resolved to its level whatever tag length is asked for. -/
theorem resolve_of_isHint (hengine : (Engine.builtin settings).outcome = .ok engine)
    (hresolve : (engine.index.resolve value .null none).outcome = .ok ⟨scheme, level⟩)
    (hlevel : level.type = .binary ∨ level.type = .tagEncoding) {hint : Scalar}
    (hhint : LevelIndex.IsHint hint) :
    (engine.index.resolve value hint none).outcome = .ok ⟨scheme, level⟩ := by
  rw [engine.index_eq, schemes_of_builtin hengine] at hresolve ⊢
  obtain ⟨start, hmem, hprefix⟩ := LevelIndex.exists_entry_of_resolve hresolve
  exact LevelIndex.resolve_of_start Builtin.distinct_schemes hhint hmem
    (Builtin.count_tagStart _ hmem hlevel) hprefix

end Engine

end EpcTag
