-- SUMMARY: Strict and lenient engines: a strict run ends with the first violation that a lenient run records, and agrees with it otherwise.
import EpcTag.Proofs.BuiltinSchemes

/-!
# Strict runs

A lenient run records a violation and goes on, a strict run fails with it. So the
outcome of the strict run can be told from the lenient one: it is the first
violation that was recorded or, without one, the outcome itself. Runs that are
related in this way can be put in sequence, and all that depends on the strictness
of an engine is how a violation is reported.
-/

namespace EpcTag

namespace Traced

variable {α β : Type}

/-- The outcome of a run that ends with its first violation. -/
def strictOutcome (run : Traced α) : Except Error α :=
  match Event.violations run.events with
  | [] => run.outcome
  | violation :: _ => .error (.violation violation)

/-- The outcome of `strict` is that of `lenient` if its first violation ended it. -/
def Mirrors (strict lenient : Traced α) : Prop := strict.outcome = lenient.strictOutcome

/-- No violation is recorded. -/
def Quiet (run : Traced α) : Prop := Event.violations run.events = []

theorem strictOutcome_of_quiet {run : Traced α} (h : run.Quiet) :
    run.strictOutcome = run.outcome := by
  rw [strictOutcome, h]

theorem strictOutcome_bind (first : Traced α) (next : α → Traced β) :
    (first >>= next).strictOutcome =
      first.strictOutcome.bind fun value => (next value).strictOutcome := by
  cases hfirst : first.outcome with
  | error error =>
    rw [bind_of_error hfirst, strictOutcome, strictOutcome, hfirst]
    cases Event.violations first.events <;> rfl
  | ok value =>
    rw [bind_of_ok hfirst, strictOutcome, strictOutcome, hfirst, Event.violations_append]
    cases Event.violations first.events <;> rfl

/-! ## Quiet runs -/

namespace Quiet

theorem pure (value : α) : Quiet (Pure.pure value : Traced α) := rfl

theorem fail (error : Error) : Quiet (Traced.fail error : Traced α) := rfl

theorem ofExcept (outcome : Except Error α) : Quiet (Traced.ofExcept outcome) := rfl

theorem record {event : Event} (h : event.logger ≠ .validation) : Quiet (Traced.record event) := by
  cases event <;> first | rfl | exact absurd rfl h

theorem bind {first : Traced α} {next : α → Traced β} (hfirst : Quiet first)
    (hnext : ∀ value, Quiet (next value)) : Quiet (first >>= next) := by
  cases h : first.outcome with
  | error error =>
    rw [bind_of_error h]
    exact hfirst
  | ok value =>
    rw [bind_of_ok h, Quiet, Event.violations_append, hfirst, hnext value]
    rfl

end Quiet

/-! ## Sequences -/

namespace Mirrors

theorem of_quiet {run : Traced α} (h : run.Quiet) : Mirrors run run :=
  (strictOutcome_of_quiet h).symm

theorem pure (value : α) : Mirrors (Pure.pure value) (Pure.pure value) := rfl

theorem fail (error : Error) : Mirrors (Traced.fail error : Traced α) (Traced.fail error) := rfl

theorem record {event : Event} (h : event.logger ≠ .validation) :
    Mirrors (Traced.record event) (Traced.record event) := of_quiet (.record h)

theorem lift (outcome : Except Error α) :
    Mirrors (liftM outcome : Traced α) (liftM outcome) := rfl

/-- Runs are mirrored one after the other. -/
theorem bind {strict lenient : Traced α} {next next' : α → Traced β} (h : Mirrors strict lenient)
    (hnext : ∀ value, Mirrors (next value) (next' value)) :
    Mirrors (strict >>= next) (lenient >>= next') := by
  unfold Mirrors at *
  rw [bind_outcome, strictOutcome_bind, h]
  congr
  funext value
  exact hnext value

/-- A mirrored run after a calculation without events. -/
theorem lift_bind {outcome : Except Error α} {next next' : α → Traced β}
    (h : ∀ value, Mirrors (next value) (next' value)) :
    Mirrors ((liftM outcome : Traced α) >>= next) ((liftM outcome : Traced α) >>= next') :=
  bind (lift outcome) h

end Mirrors

end Traced

open Traced

/-- The strict and the lenient validator. -/
abbrev Validator.strictly : Validator := ⟨true⟩

/-- The lenient validator. -/
abbrev Validator.leniently : Validator := ⟨false⟩

/-! ## Checks -/

namespace Validator

theorem mirrors_report (violation : Violation) :
    Mirrors (strictly.report violation) (leniently.report violation) := rfl

/-- A check that reports a violation and gives `false` is mirrored. -/
theorem mirrors_refuse (violation : Violation) :
    Mirrors (do strictly.report violation; pure false)
      (do leniently.report violation; pure false) :=
  (mirrors_report violation).bind fun _ => .pure false

theorem mirrors_checkCharacterSet (field : Text) (value set : Scalar) :
    Mirrors (strictly.checkCharacterSet field value set)
      (leniently.checkCharacterSet field value set) := by
  unfold checkCharacterSet
  split
  · exact .pure true
  · refine .lift_bind fun set => .lift_bind fun pattern => .lift_bind fun text => ?_
    split
    · exact .pure true
    · exact mirrors_refuse _

theorem mirrors_checkRange (field : Text) (value minimum maximum : Scalar) :
    Mirrors (strictly.checkRange field value minimum maximum)
      (leniently.checkRange field value minimum maximum) := by
  unfold checkRange
  refine .lift_bind fun text => ?_
  split
  · refine .lift_bind fun below => ?_
    split
    · exact mirrors_refuse _
    · refine .lift_bind fun above => ?_
      split
      · exact mirrors_refuse _
      · exact .pure true
  · exact .pure true

theorem mirrors_checkField (field : Field) (value : Scalar) :
    Mirrors (strictly.checkField field value) (leniently.checkField field value) := by
  unfold checkField
  apply (mirrors_checkCharacterSet _ _ _).bind
  intro conforming
  apply (mirrors_checkRange _ _ _ _).bind
  intro within
  exact .pure _

end Validator

open Validator (strictly leniently)

/-! ## Fields -/

namespace Field

theorem mirrors_decode (field : Field) (tag : Option Field) (bits : Text) :
    Mirrors (field.decode strictly tag bits) (field.decode leniently tag bits) := by
  unfold decode
  refine .lift_bind fun raw => ?_
  cases field.compaction with
  | none =>
    cases tag with
    | none => exact .lift_bind fun padded => .lift_bind fun value => .pure value
    | some tag =>
      apply (Validator.mirrors_checkRange _ _ _ _).bind
      intro within
      exact .lift_bind fun padded => .lift_bind fun value => .pure _
  | some method =>
    cases tag with
    | none => exact .lift_bind fun padded => .lift_bind fun value => .pure value
    | some tag =>
      refine .lift_bind fun padded => .lift_bind fun value => ?_
      apply (Validator.mirrors_checkCharacterSet _ _ _).bind
      intro conforming
      exact .pure _

theorem mirrors_encode (field : Field) (tag : Option Field) (value : Scalar) :
    Mirrors (field.encode strictly tag value) (field.encode leniently tag value) := by
  unfold encode
  cases field.compaction with
  | none =>
    refine .lift_bind fun padded => ?_
    cases tag with
    | none => exact .lift_bind fun bits => .lift _
    | some tag =>
      apply (Validator.mirrors_checkRange _ _ _ _).bind
      intro within
      exact .lift_bind fun bits => .lift _
  | some method =>
    cases tag with
    | none => exact .lift_bind fun padded => .lift_bind fun text => .lift _
    | some tag =>
      apply (Validator.mirrors_checkCharacterSet _ _ _).bind
      intro conforming
      exact .lift_bind fun padded => .lift_bind fun text => .lift _

end Field

namespace LevelOption

theorem mirrors_readField (binary : Bool) (field : Field) (tag : Option Field) (captured : Text) :
    Mirrors (readField strictly binary field tag captured)
      (readField leniently binary field tag captured) := by
  unfold readField
  split
  · exact field.mirrors_decode tag captured
  · cases tag with
    | none => exact .pure captured
    | some tag =>
      apply (Validator.mirrors_checkField _ _).bind
      intro passed
      exact .pure _

theorem mirrors_decodeFields (binary : Bool) (tagOption : Option LevelOption)
    (found : Pattern.Match) (fields : List Field) (values : Pairs Text Text) :
    Mirrors (decodeFields strictly binary tagOption found fields values)
      (decodeFields leniently binary tagOption found fields values) := by
  induction fields generalizing values with
  | nil => exact .pure values
  | cons field fields ih =>
    unfold decodeFields
    apply (mirrors_readField _ _ _ _).bind
    intro value
    apply (Mirrors.record Logger.noConfusion).bind
    intro _
    exact ih _

theorem mirrors_encodeFields (key : Text) (tagOption : Option LevelOption) (context : Context)
    (fields : List Field) (encoded : Pairs Text Text) :
    Mirrors (encodeFields strictly key tagOption context fields encoded)
      (encodeFields leniently key tagOption context fields encoded) := by
  induction fields generalizing encoded with
  | nil => exact .pure encoded
  | cons field fields ih =>
    unfold encodeFields
    split
    · exact .fail _
    · next value _ =>
      apply (field.mirrors_encode _ value).bind
      intro bits
      apply (Mirrors.record Logger.noConfusion).bind
      intro _
      exact ih _

theorem mirrors_validateFields (context : Context) (fields : List Field) :
    Mirrors (validateFields strictly context fields) (validateFields leniently context fields) := by
  induction fields with
  | nil => exact .pure ()
  | cons field fields ih =>
    unfold validateFields
    dsimp only
    split
    · apply (Validator.mirrors_checkField _ _).bind
      intro passed
      exact ih
    · exact ih

end LevelOption

/-! ## Runs without checks -/

theorem Rules.quiet_runAfter (lookup : TableLookup) (previous : Option Int) (context : Context)
    (rules : List Rule) : (runAfter lookup previous context rules).run.Quiet := by
  induction rules generalizing previous context with
  | nil => exact .pure ()
  | cons rule rules ih =>
    unfold runAfter
    split
    · exact .fail _
    · dsimp only
      split
      · exact .bind (.record Logger.noConfusion) fun _ => .fail _
      · refine .bind (.record Logger.noConfusion) fun _ => ?_
        exact .bind (.record Logger.noConfusion) fun _ => ih _ _

theorem Rules.quiet_derive (lookup : TableLookup) (context : Context) (rules : List Rule) :
    (derive lookup context rules).Quiet :=
  .bind (quiet_runAfter lookup none context rules) fun _ => .pure _

theorem Grammar.quiet_render (grammar : Text) (context : Context) (output : Text) :
    (render grammar context output).Quiet := by
  unfold render
  refine .bind (.ofExcept _) fun result => ?_
  exact .bind (.record Logger.noConfusion) fun _ => .pure _

theorem LevelIndex.quiet_settle (value : Text) (candidates : List Candidate) :
    (settle value candidates).Quiet := by
  unfold settle
  split
  · exact .fail _
  · exact .pure _
  · refine .bind (.record Logger.noConfusion) fun _ => ?_
    split
    · exact .fail _
    · exact .pure _
    · exact .fail _

theorem LevelIndex.quiet_preferLength (value : Text) (hint : Scalar)
    (candidates : List Candidate) : (preferLength value hint candidates).Quiet := by
  unfold preferLength
  split
  · exact .pure _
  · refine .bind (.ofExcept _) fun length => ?_
    dsimp only
    split
    · exact .pure _
    · split
      · exact .bind (.record Logger.noConfusion) fun _ => .pure _
      · exact .pure _

theorem LevelIndex.quiet_resolve (index : LevelIndex) (value : Text) (hint : Scalar)
    (level : Option Text) : (index.resolve value hint level).Quiet := by
  unfold resolve
  refine .bind (.ofExcept _) fun types => ?_
  dsimp only
  split
  · exact .fail _
  · refine .bind (quiet_preferLength _ _ _) fun preferred => ?_
    refine .bind (quiet_settle _ _) fun chosen => ?_
    exact .bind (.record Logger.noConfusion) fun _ => .pure _

/-! ## Conversions -/

namespace Engine

/-- Two engines that differ in nothing but how they take violations. -/
structure Twins (strict lenient : Engine) : Prop where
  index : strict.index = lenient.index
  lookup : strict.lookup = lenient.lookup
  strictly : strict.validator = strictly
  leniently : lenient.validator = leniently

variable {strict lenient : Engine}

theorem Twins.renderOutput (h : Twins strict lenient) (output : Text) (option : LevelOption)
    (tagOption : Option LevelOption) (context : Context) :
    Mirrors (strict.renderOutput output option tagOption context)
      (lenient.renderOutput output option tagOption context) := by
  unfold Engine.renderOutput
  rw [h.strictly, h.leniently]
  split
  · apply (LevelOption.mirrors_encodeFields _ _ _ _ _).bind
    intro encoded
    exact .lift_bind fun grammar => .of_quiet (Grammar.quiet_render _ _ _)
  · apply (LevelOption.mirrors_validateFields _ _).bind
    intro _
    exact .lift_bind fun grammar => .of_quiet (Grammar.quiet_render _ _ _)

/-- Every conversion of a strict engine is that of its lenient twin up to the first
    violation. -/
theorem Twins.convertFromLevel (h : Twins strict lenient) (value : Text)
    (inputLevel : Option Text) (tagLength : Scalar) (params : Params) (output : Text) :
    Mirrors (strict.convertFromLevel value inputLevel tagLength params output)
      (lenient.convertFromLevel value inputLevel tagLength params output) := by
  unfold Engine.convertFromLevel
  dsimp only
  rw [h.index, h.lookup, h.strictly, h.leniently]
  apply (Mirrors.of_quiet (LevelIndex.quiet_resolve _ _ _ _)).bind
  intro candidate
  apply (Mirrors.of_quiet (.ofExcept _)).bind
  rintro ⟨option, found⟩
  apply (Mirrors.record Logger.noConfusion).bind
  intro _
  apply (LevelOption.mirrors_decodeFields _ _ _ _ _).bind
  intro values
  apply (Mirrors.of_quiet (Rules.quiet_derive _ _ _)).bind
  intro extracted
  apply (Mirrors.of_quiet (.ofExcept _)).bind
  rintro ⟨outputLevel, outputOption⟩
  apply (Mirrors.of_quiet (Rules.quiet_derive _ _ _)).bind
  intro context
  apply (h.renderOutput _ _ _ _).bind
  intro result
  exact .bind (.record Logger.noConfusion) fun _ => .pure _

/-- A lenient engine has a strict twin. -/
theorem exists_twin {docs : List SchemeDocument} {settings : Settings} {lenient : Engine}
    (h : (ofDocuments docs { settings with strict := false }).outcome = .ok lenient) :
    ∃ strict, (ofDocuments docs { settings with strict := true }).outcome = .ok strict ∧
      Twins strict lenient := by
  simp only [ofDocuments, ofSchemes, Traced.bind_outcome_eq_ok_iff, Traced.ofExcept_outcome,
    Traced.record_outcome, Traced.pure_outcome] at h ⊢
  obtain ⟨schemes, hschemes, sorted, hsorted, passed, hstarts, recorded, hrecorded, hengine⟩ := h
  obtain rfl := Except.ok.inj hengine
  exact ⟨_, ⟨schemes, hschemes, sorted, hsorted, passed, hstarts, recorded, hrecorded, rfl⟩,
    ⟨rfl, rfl, rfl, rfl⟩⟩

end Engine

/-- The events of the validation logger are those of violations. -/
theorem Event.filter_validation (events : List Event) :
    events.filter (·.logger = .validation) = (violations events).map .violated := by
  induction events with
  | nil => rfl
  | cons event events ih => cases event <;> simp_all [logger, violations]

/-- A strict engine does what its lenient twin does if that logs no violation, and
    otherwise fails with the violation that is logged first. -/
theorem strict_outcome_of_lenient {docs : List SchemeDocument} {settings : Engine.Settings}
    {lenient : Engine}
    (h : (Engine.ofDocuments docs { settings with strict := false }).outcome = .ok lenient) :
    ∃ strict, (Engine.ofDocuments docs { settings with strict := true }).outcome = .ok strict ∧
      ∀ (value : Text) (inputLevel : Option Text) (tagLength : Scalar) (params : Params)
        (output : Text),
        let run := lenient.convertFromLevel value inputLevel tagLength params output
        let outcome := (strict.convertFromLevel value inputLevel tagLength params output).outcome
        match run.events.filter (·.logger = .validation) with
        | [] => outcome = run.outcome
        | warning :: _ => ∃ error, outcome = .error error ∧ error.message? = some warning.message ∧
            (error.kind? = some "CharacterSetViolation".toList ∨
              error.kind? = some "RangeViolation".toList) := by
  obtain ⟨strict, hstrict, htwins⟩ := Engine.exists_twin h
  refine ⟨strict, hstrict, ?_⟩
  intro value inputLevel tagLength params output
  dsimp only
  have hmirrors : (strict.convertFromLevel _ _ _ _ _).outcome = _ :=
    htwins.convertFromLevel value inputLevel tagLength params output
  rw [hmirrors, Event.filter_validation, strictOutcome]
  cases Event.violations (lenient.convertFromLevel value inputLevel tagLength params output).events with
  | nil => rfl
  | cons violation rest =>
    refine ⟨_, rfl, rfl, ?_⟩
    obtain ⟨field, value, limit⟩ := violation
    cases limit with
    | characterSet set => exact .inl rfl
    | minimum bound => exact .inr rfl
    | maximum bound => exact .inr rfl

/-- The bits of a location whose company prefix leaves no digits for the reference, but
    whose reference is not zero. -/
def idleReferenceBits : Text := Text.join
  ["00110010", "001", "000", "1000111011111101101010011101101110000000", "1",
   "00000000000000000000000000000000000000101"]

/-- The location is refused by a strict engine. -/
theorem strict_outcome_of_lenient_location :
    ∃ lenient strict, (Engine.ofDocuments Builtin.definitions { strict := false }).outcome =
        .ok lenient ∧
      (Engine.ofDocuments Builtin.definitions { strict := true }).outcome = .ok strict ∧
      (lenient.convertFromLevel idleReferenceBits none .null [] "BINARY").events.filter
          (·.logger = .validation) = [.violated ⟨"locationref", "1", .maximum (.text "0")⟩] ∧
      ∃ error, (strict.convertFromLevel idleReferenceBits none .null [] "BINARY").outcome =
          .error error ∧
        error.message? =
          some "field locationref (1) is greater than DecimalMaximum (0) allowed".toList ∧
        (error.kind? = some "CharacterSetViolation".toList ∨
          error.kind? = some "RangeViolation".toList) := by
  obtain ⟨lenient, hlenient, hwarnings⟩ :
      ∃ lenient, (Engine.ofDocuments Builtin.definitions { strict := false }).outcome =
          .ok lenient ∧
        (lenient.convertFromLevel idleReferenceBits none .null [] "BINARY").events.filter
          (·.logger = .validation) = [.violated ⟨"locationref", "1", .maximum (.text "0")⟩] :=
    ⟨_, Engine.builtin_outcome { strict := false }, by decide +kernel⟩
  obtain ⟨strict, hstrict, h⟩ := @strict_outcome_of_lenient Builtin.definitions {} _ hlenient
  have hrun := h idleReferenceBits none .null [] "BINARY"
  dsimp only at hrun
  rw [hwarnings] at hrun
  obtain ⟨error, herror, hmessage, hkind⟩ := hrun
  exact ⟨lenient, strict, hlenient, hstrict, hwarnings, error, herror, hmessage, hkind⟩

end EpcTag
