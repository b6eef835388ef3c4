-- SUMMARY: Parts of a conversion that never end with a defect of their scheme or an overflow: checks, coding, rules, output.
import EpcTag.Engine.Basic
import Mathlib.Tactic

/-!
# Clean runs

Two errors tell that a scheme is defective, whatever the value is: a compaction method
that is not supported, and rules that are out of sequence. Only running the rules of a
level can end with one of them. A third one tells that bits do not fit into their field,
and only fitting them can end with it. Everything else that a conversion does is *clean*
of these errors: it may fail, but with another one.
-/

namespace EpcTag

/-! ## Clean runs -/

/-- Does the error tell that a scheme is defective: a compaction method that is not
    supported, or rules out of sequence? -/
def Error.isDefect : Error → Bool
  | .unsupportedCompaction _ | .fault .sequenceOrder => true
  | _ => false

/-- Does the error tell that bits do not fit into their field? -/
def Error.isOverflow : Error → Bool
  | .bitOverflow .. => true
  | _ => false

/-- Is the error one of the three that most of a conversion cannot end with? -/
def Error.isPeculiar (error : Error) : Bool := error.isDefect || error.isOverflow

theorem Error.isPeculiar_of_isDefect {error : Error} (h : error.isDefect = true) :
    error.isPeculiar = true := by rw [isPeculiar, h, Bool.true_or]

theorem Error.isPeculiar_of_isOverflow {error : Error} (h : error.isOverflow = true) :
    error.isPeculiar = true := by rw [isPeculiar, h, Bool.or_true]

/-- The calculation does not end with an error of the kind. -/
def Avoids (kind : Error → Bool) {α : Type} : Except Error α → Prop
  | .ok _ => True
  | .error error => kind error = false

namespace Avoids

variable {α β : Type} {kind : Error → Bool} {first : Except Error α}

theorem not_kind {error : Error} (h : Avoids kind first) (herror : first = .error error) :
    ¬ kind error = true := by
  rw [herror] at h
  exact Bool.eq_false_iff.mp h

/-- A calculation that avoids overflow does not end with it. -/
theorem ne_bitOverflow (h : Avoids Error.isOverflow first) (field : Text) (needed : Nat)
    (allowed : Int) : first ≠ .error (.bitOverflow field needed allowed) :=
  fun herror => h.not_kind herror rfl

theorem imp {other : Error → Bool} (h : Avoids kind first)
    (hkind : ∀ error, other error = true → kind error = true) : Avoids other first := by
  cases first with
  | ok value => trivial
  | error error => exact Bool.eq_false_iff.mpr fun herror => Bool.eq_false_iff.mp h (hkind _ herror)

theorem bind {next : α → Except Error β} (h : Avoids kind first)
    (hnext : ∀ value, Avoids kind (next value)) : Avoids kind (first >>= next) := by
  cases first with
  | ok value => exact hnext value
  | error error => exact h

/-- The value is also known to be that of the calculation. -/
theorem bind_eq {next : α → Except Error β} (h : Avoids kind first)
    (hnext : ∀ value, first = .ok value → Avoids kind (next value)) :
    Avoids kind (first >>= next) := by
  cases first with
  | ok value => exact hnext value rfl
  | error error => exact h

theorem map {f : α → β} (h : Avoids kind first) : Avoids kind (first.map f) := by
  cases first with
  | ok value => trivial
  | error error => exact h

theorem traced_bind {first : Traced α} {next : α → Traced β} (h : Avoids kind first.outcome)
    (hnext : ∀ value, Avoids kind (next value).outcome) :
    Avoids kind (first >>= next).outcome := by
  rw [Traced.bind_outcome]
  exact h.bind hnext

theorem mapM {f : β → Except Error α} (h : ∀ x, Avoids kind (f x)) (xs : List β) :
    Avoids kind (xs.mapM f) := by
  induction xs with
  | nil => trivial
  | cons x xs ih =>
    rw [List.mapM_cons]
    exact (h x).bind fun _ => ih.bind fun _ => trivial

end Avoids

/-- The calculation ends with none of the three errors. -/
abbrev Clean {α : Type} (calculation : Except Error α) : Prop :=
  Avoids Error.isPeculiar calculation

namespace Clean

variable {α : Type} {calculation : Except Error α}

theorem defect (h : Clean calculation) : Avoids Error.isDefect calculation :=
  h.imp fun _ => Error.isPeculiar_of_isDefect

theorem overflow (h : Clean calculation) : Avoids Error.isOverflow calculation :=
  h.imp fun _ => Error.isPeculiar_of_isOverflow

theorem not_isDefect {error : Error} (h : Clean calculation) (herror : calculation = .error error) :
    ¬ error.isDefect = true := h.defect.not_kind herror

end Clean

/-! ## Scalars and checks -/

namespace Scalar

theorem clean_operand (s : Scalar) : Clean s.operand := by
  unfold operand
  split <;> trivial

theorem clean_subject (s : Scalar) : Clean s.subject := by
  unfold subject
  split <;> trivial

theorem clean_contentOrVoid (s : Scalar) : Clean s.contentOrVoid := by
  unfold contentOrVoid
  split
  · trivial
  · exact s.clean_operand

theorem clean_toInteger (s : Scalar) : Clean s.toInteger := by
  unfold toInteger
  split
  · rfl
  · split <;> trivial
  · trivial

end Scalar

namespace Validator

variable (validator : Validator)

theorem clean_report (violation : Violation) : Clean (validator.report violation).outcome := by
  unfold report
  split <;> trivial

theorem clean_readSet (set : Text) : Clean (readSet set) := by
  unfold readSet
  split <;> trivial

theorem clean_checkCharacterSet (field : Text) (value set : Scalar) :
    Clean (validator.checkCharacterSet field value set).outcome := by
  unfold checkCharacterSet
  split
  · trivial
  · refine Avoids.traced_bind set.clean_subject fun text => ?_
    refine Avoids.traced_bind (clean_readSet _) fun pattern => ?_
    refine Avoids.traced_bind value.clean_operand fun text => ?_
    split
    · trivial
    · exact Avoids.traced_bind (validator.clean_report _) fun _ => trivial

theorem clean_isBelow (number : Int) (bound : Scalar) : Clean (isBelow number bound) := by
  unfold isBelow
  split
  · trivial
  · exact (bound.clean_toInteger).map

theorem clean_isAbove (number : Int) (bound : Scalar) : Clean (isAbove number bound) := by
  unfold isAbove
  split
  · trivial
  · exact (bound.clean_toInteger).map

theorem clean_checkRange (field : Text) (value minimum maximum : Scalar) :
    Clean (validator.checkRange field value minimum maximum).outcome := by
  unfold checkRange
  refine Avoids.traced_bind value.clean_contentOrVoid fun text => ?_
  split
  · refine Avoids.traced_bind (clean_isBelow _ minimum) fun below => ?_
    split
    · exact Avoids.traced_bind (validator.clean_report _) fun _ => trivial
    · refine Avoids.traced_bind (clean_isAbove _ maximum) fun above => ?_
      split
      · exact Avoids.traced_bind (validator.clean_report _) fun _ => trivial
      · trivial
  · trivial

theorem clean_checkField (field : Field) (value : Scalar) :
    Clean (validator.checkField field value).outcome :=
  Avoids.traced_bind (validator.clean_checkCharacterSet _ _ _) fun _ =>
    Avoids.traced_bind (validator.clean_checkRange _ _ _ _) fun _ => trivial

end Validator

/-! ## Fields -/

namespace Padding

theorem clean_padValue (value : Scalar) (edge : Option Edge) (padding : Scalar)
    (length : Option Int) : Clean (padValue value edge padding length) := by
  unfold padValue
  split
  · trivial
  · exact value.clean_operand.bind fun _ => padding.clean_operand.bind fun _ => trivial

theorem clean_stripValue (value : Scalar) (edge : Option Edge) (padding : Scalar) :
    Clean (stripValue value edge padding) := by
  unfold stripValue
  split
  · trivial
  · exact value.clean_subject.bind fun _ => padding.clean_operand.bind fun _ => trivial

end Padding

namespace Field

variable (validator : Validator) (field : Field) (tag : Option Field)

theorem clean_readBits (bits : Text) : Clean (field.readBits bits) := by
  have hchunk (method : Compaction) (chunk : Text) : Clean (method.unpackChunk chunk) := by
    unfold Compaction.unpackChunk
    split
    · rfl
    · dsimp only
      split <;> trivial
  unfold readBits
  split
  · split
    · exact Avoids.mapM (hchunk _) _
    · trivial
  · unfold Bits.toDecimal
    split
    · trivial
    · split <;> trivial

theorem clean_padDecoded (value : Scalar) : Clean (field.padDecoded tag value) := by
  unfold padDecoded
  split
  · split
    · rfl
    · exact Padding.clean_stripValue _ _ _
  · split
    · exact Padding.clean_padValue _ _ _ _
    · trivial

theorem clean_padEncoded (value : Scalar) : Clean (field.padEncoded tag value) := by
  unfold padEncoded
  split
  · split
    · rfl
    · exact Padding.clean_stripValue _ _ _
  · exact Padding.clean_padValue _ _ _ _

theorem clean_decode (bits : Text) : Clean (field.decode validator tag bits).outcome := by
  have hpadded {next : Text → Traced Text} (raw : Text)
      (hnext : ∀ value, Clean (next value).outcome) :
      Clean (do next (← (← field.padDecoded tag (.text raw)).operand) : Traced Text).outcome :=
    Avoids.traced_bind (field.clean_padDecoded tag _) fun padded =>
      Avoids.traced_bind padded.clean_operand hnext
  unfold decode
  refine Avoids.traced_bind (field.clean_readBits _) fun raw => ?_
  cases tag with
  | none => cases field.compaction <;> exact hpadded raw fun _ => trivial
  | some other =>
    cases field.compaction with
    | none => exact Avoids.traced_bind (validator.clean_checkRange _ _ _ _) fun _ =>
        hpadded raw fun _ => trivial
    | some method => exact hpadded raw fun _ =>
        Avoids.traced_bind (validator.clean_checkCharacterSet _ _ _) fun _ => trivial

/-- Fitting bits can only fail because they are too many. -/
theorem avoids_fitBits (bits : Text) : Avoids Error.isDefect (field.fitBits bits) := by
  unfold fitBits
  split
  · trivial
  · split
    · trivial
    · split
      · rfl
      · dsimp only
        split <;> trivial

theorem clean_decimalBits (value : Scalar) : Clean (field.decimalBits value) := by
  unfold decimalBits
  refine value.clean_contentOrVoid.bind fun text => ?_
  split <;> trivial

theorem avoids_encode (value : Scalar) :
    Avoids Error.isDefect (field.encode validator tag value).outcome := by
  have hpadded {next : Scalar → Traced Text}
      (hnext : ∀ value, Avoids Error.isDefect (next value).outcome) :
      Avoids Error.isDefect (do next (← field.padEncoded tag value) : Traced Text).outcome :=
    Avoids.traced_bind (field.clean_padEncoded tag value).defect hnext
  have hnumber (value : Scalar) : Avoids Error.isDefect
      (do field.fitBits (← field.decimalBits value) : Traced Text).outcome :=
    Avoids.traced_bind (field.clean_decimalBits value).defect field.avoids_fitBits
  have hpacked (method : Compaction) (value : Scalar) : Avoids Error.isDefect
      (do field.fitBits (method.pack (← value.operand)) : Traced Text).outcome :=
    Avoids.traced_bind value.clean_operand.defect fun _ => field.avoids_fitBits _
  unfold encode
  cases field.compaction with
  | none =>
    refine hpadded fun value => ?_
    cases tag with
    | none => exact hnumber value
    | some other =>
      exact Avoids.traced_bind (validator.clean_checkRange _ _ _ _).defect fun _ => hnumber value
  | some method =>
    cases tag with
    | none => exact hpadded (hpacked method)
    | some other =>
      refine Avoids.traced_bind (validator.clean_checkCharacterSet _ _ _).defect ?_
      exact fun _ => hpadded (hpacked method)

end Field

namespace LevelOption

variable (validator : Validator) (tagOption : Option LevelOption)

theorem clean_readField (binary : Bool) (field : Field) (tag : Option Field) (captured : Text) :
    Clean (readField validator binary field tag captured).outcome := by
  unfold readField
  split
  · exact field.clean_decode validator tag captured
  · split
    · trivial
    · exact Avoids.traced_bind (validator.clean_checkField _ _) fun _ => trivial

theorem clean_decodeFields (binary : Bool) (found : Pattern.Match) (fields : List Field)
    (values : Pairs Text Text) :
    Clean (decodeFields validator binary tagOption found fields values).outcome := by
  induction fields generalizing values with
  | nil => trivial
  | cons field rest ih =>
    refine Avoids.traced_bind (clean_readField validator binary field _ _) fun value => ?_
    exact Avoids.traced_bind trivial fun _ => ih _

/-- Fields are encoded without errors of a kind if each of them is. -/
theorem avoids_encodeFields {kind : Error → Bool}
    (hkind : ∀ error, kind error = true → error.isPeculiar = true) (key : Text)
    {context : Context} {fields : List Field}
    (hfields : ∀ field ∈ fields, ∀ value, context.field? field.name = some value →
      Avoids kind (field.encode validator (tagField? tagOption field.name) value).outcome)
    (encoded : Pairs Text Text) :
    Avoids kind (encodeFields validator key tagOption context fields encoded).outcome := by
  induction fields generalizing encoded with
  | nil => trivial
  | cons field rest ih =>
    rw [encodeFields]
    split
    · have hmissing : Clean (Traced.fail (.missingField (.inOption field.name key)) :
          Traced (Pairs Text Text)).outcome := rfl
      exact hmissing.imp hkind
    · next value hvalue =>
      refine Avoids.traced_bind (hfields field (by simp) value hvalue) fun bits => ?_
      exact Avoids.traced_bind trivial fun _ =>
        ih (fun other hother => hfields other (by simp [hother])) _

theorem clean_validateFields (context : Context) (fields : List Field) :
    Clean (validateFields validator context fields).outcome := by
  induction fields with
  | nil => trivial
  | cons field rest ih =>
    rw [validateFields]
    dsimp only
    split
    · exact Avoids.traced_bind (validator.clean_checkField _ _) fun _ => ih
    · exact ih

end LevelOption

/-! ## Rules -/

theorem CheckDigit.clean_compute (digits : Text) : Clean (compute digits) := by
  refine Avoids.bind (Avoids.mapM (fun c => ?_) _) fun _ => trivial
  unfold digitValue
  split
  · trivial
  · split <;> rfl

theorem CompanyPrefixTable.clean_lookup (table : CompanyPrefixTable) (input output : Text)
    (value : Scalar) : Clean (table.lookup input output value) := by
  refine Avoids.bind ?_ fun answer => ?_
  · unfold find?
    split
    · refine value.clean_operand.bind fun index => ?_
      split
      · exact Avoids.bind (Scalar.clean_toInteger _).map fun _ => trivial
      · trivial
    · split <;> trivial
  · split <;> trivial

theorem Engine.clean_lookup (engine : Engine) (table input output : Text) (value : Scalar) :
    Clean (engine.lookup table input output value) := by
  unfold lookup
  split
  · exact (engine.companyPrefixes.clean_lookup _ _ _).map
  · split <;> trivial

theorem RuleParam.clean_value (context : Context) (param : RuleParam) :
    Clean (param.value context) := by
  unfold value
  split
  · trivial
  · split <;> trivial

theorem RuleParam.clean_integer (context : Context) (param : RuleParam) :
    Clean (param.integer context) := by
  unfold integer
  refine (param.clean_value context).bind fun value => ?_
  split
  · split <;> trivial
  · exact value.clean_toInteger

theorem RuleCall.clean_eval {lookup : TableLookup}
    (hlookup : ∀ table input output value, Clean (lookup table input output value))
    (context : Context) (call : RuleCall) : Clean (call.eval lookup context) := by
  cases call with
  | tableLookup value table input output =>
    exact (value.clean_value context).bind fun _ => hlookup _ _ _ _
  | length value =>
    exact (value.clean_value context).bind fun text => text.clean_operand.bind fun _ => trivial
  | checkDigit value =>
    exact (value.clean_value context).bind fun text => text.clean_operand.bind fun digits =>
      (CheckDigit.clean_compute digits).bind fun _ => trivial
  | substring value start count =>
    cases count with
    | none =>
      exact (value.clean_value context).bind fun text => (start.clean_integer context).bind fun _ =>
        text.clean_operand.bind fun _ => trivial
    | some count =>
      exact (value.clean_value context).bind fun text => (start.clean_integer context).bind fun _ =>
        (count.clean_integer context).bind fun _ => text.clean_operand.bind fun _ => trivial
  | concatenate first rest =>
    exact (Avoids.mapM (RuleParam.clean_value context) _).bind fun values =>
      (Avoids.mapM Scalar.clean_operand values).bind fun _ => trivial
  | arithmetic op left right =>
    refine (left.clean_integer context).bind fun a => (right.clean_integer context).bind fun b => ?_
    split <;> trivial

/-- A rule that is out of sequence is a defect, but it does not overflow. -/
theorem Rule.avoids_checkOrder (previous : Option Int) (rule : Rule) :
    Avoids Error.isOverflow (rule.checkOrder previous) := by
  unfold checkOrder
  split
  · trivial
  · rfl
  · split <;> trivial

theorem Rules.avoids_runAfter {lookup : TableLookup}
    (hlookup : ∀ table input output value, Clean (lookup table input output value))
    (previous : Option Int) (context : Context) (rules : List Rule) :
    Avoids Error.isOverflow (runAfter lookup previous context rules).run.outcome := by
  induction rules generalizing previous context with
  | nil => trivial
  | cons rule rest ih =>
    have horder := rule.avoids_checkOrder previous
    have hcall := (rule.call.clean_eval hlookup context).overflow
    rw [runAfter]
    split
    · next error herror =>
      rw [herror] at horder
      exact horder
    · split
      · next error herror =>
        rw [herror] at hcall
        exact Avoids.traced_bind trivial fun _ => hcall
      · exact Avoids.traced_bind trivial fun _ => Avoids.traced_bind trivial fun _ => ih _ _

theorem Engine.avoids_derive (engine : Engine) (context : Context) (rules : List Rule) :
    Avoids Error.isOverflow (Rules.derive engine.lookup context rules).outcome :=
  Avoids.traced_bind (Rules.avoids_runAfter engine.clean_lookup none context rules) fun _ => trivial

/-! ## Resolution, selection and output -/

namespace LevelIndex

theorem clean_preferLength (value : Text) (hint : Scalar) (candidates : List Candidate) :
    Clean (preferLength value hint candidates).outcome := by
  have hhint : Clean (readHint hint) := by
    unfold readHint
    split <;> trivial
  unfold preferLength
  split
  · trivial
  · refine Avoids.traced_bind hhint fun length => ?_
    dsimp only
    split
    · trivial
    · split <;> trivial

theorem clean_settle (value : Text) (candidates : List Candidate) :
    Clean (settle value candidates).outcome := by
  unfold settle
  split
  · rfl
  · trivial
  · refine Avoids.traced_bind trivial fun _ => ?_
    split <;> trivial

theorem clean_resolve (index : LevelIndex) (value : Text) (hint : Scalar) (level : Option Text) :
    Clean (index.resolve value hint level).outcome := by
  have hsearched : Clean (searched level) := by
    unfold searched
    split
    · trivial
    · split <;> trivial
  refine Avoids.traced_bind hsearched fun types => ?_
  dsimp only
  split
  · rfl
  · refine Avoids.traced_bind (clean_preferLength _ _ _) fun preferred => ?_
    refine Avoids.traced_bind (clean_settle _ _) fun chosen => ?_
    exact Avoids.traced_bind trivial fun _ => trivial

end LevelIndex

namespace Engine

theorem clean_select (scheme : Scheme) (level : Level) (value : Text) (context : Context) :
    Clean (select scheme level value context) := by
  unfold select
  dsimp only
  split
  · rfl
  · trivial
  · split <;> trivial

theorem clean_outputOption (scheme : Scheme) (output key : Text) :
    Clean (outputOption scheme output key) := by
  unfold outputOption
  split
  · rfl
  · split <;> trivial

end Engine

theorem Grammar.clean_render (grammar : Text) (context : Context) (output : Text) :
    Clean (render grammar context output).outcome := by
  have hpiece (escaped : Bool) (piece : GrammarPiece) :
      Clean (renderPiece grammar escaped context piece) := by
    unfold renderPiece
    split
    · trivial
    · split
      · split
        · exact (Scalar.clean_subject _).map
        · trivial
      · rfl
  have hpieces (escaped : Bool) (pieces : List GrammarPiece) :
      Clean (renderPieces grammar escaped context pieces) :=
    (Avoids.mapM (hpiece escaped) pieces).bind fun values =>
      (Avoids.mapM Scalar.clean_operand values).bind fun _ => trivial
  exact Avoids.traced_bind (hpieces _ _) fun _ => trivial

/-- Output is rendered without errors of a kind if the fields of a tag are encoded without
    them. -/
theorem Engine.avoids_renderOutput {kind : Error → Bool}
    (hkind : ∀ error, kind error = true → error.isPeculiar = true) {engine : Engine}
    (output : Text) {option : LevelOption} {tagOption : Option LevelOption} {context : Context}
    (hfields : ∀ field ∈ option.fields, ∀ value, context.field? field.name = some value →
      Avoids kind (field.encode engine.validator (LevelOption.tagField? tagOption field.name)
        value).outcome) :
    Avoids kind (engine.renderOutput output option tagOption context).outcome := by
  unfold renderOutput
  split
  · refine Avoids.traced_bind
      (LevelOption.avoids_encodeFields engine.validator tagOption hkind _ hfields _)
        fun encoded => ?_
    exact Avoids.traced_bind (option.grammar.clean_operand.imp hkind) fun grammar =>
      (Grammar.clean_render _ _ _).imp hkind
  · refine Avoids.traced_bind
      ((LevelOption.clean_validateFields engine.validator context _).imp hkind) fun _ => ?_
    exact Avoids.traced_bind (option.grammar.clean_operand.imp hkind) fun grammar =>
      (Grammar.clean_render _ _ _).imp hkind

end EpcTag
