-- SUMMARY: Conversions on built schemes never meet a gap, and their rules are out of sequence only where two have the same place.
import EpcTag.Proofs.CleanRuns
import EpcTag.Proofs.DefinitionOrder
import EpcTag.Proofs.UncheckedRuns

/-!
# Defects of schemes

What building checks is what running relies on. An unchecked conversion on built schemes
ends like the conversion itself, so nothing that it looks up is missing. The one defect
that building lets pass are rules of one type with the same place in the sequence: these
are found when the rules run, and nothing else is.
-/

namespace EpcTag

/-! ## The sequence of rules -/

/-- Two of the rules have the same place in the sequence. -/
def Rules.Repeat (rules : List Rule) : Prop :=
  ∃ first second, [first, second].Sublist rules ∧ first.sequence = second.sequence

/-- A rule that is not behind the one before it is refused only if it has the same place. -/
theorem Rule.eq_of_checkOrder {previous : Option Int} {rule : Rule} {error : Error}
    (hplace : ∀ place ∈ previous, ∃ place', rule.sequence = some place' ∧ place ≤ place')
    (h : rule.checkOrder previous = .error error) :
    error = .fault .sequenceOrder ∧ previous ≠ none ∧ rule.sequence = previous := by
  cases previous with
  | none => cases h
  | some place =>
    obtain ⟨place', hplace', hle⟩ := hplace place rfl
    rw [checkOrder.eq_def, hplace'] at h
    dsimp only at h
    split at h
    · cases h
    · next hlt =>
      cases h
      refine ⟨rfl, by simp, ?_⟩
      rw [hplace', le_antisymm hle (not_lt.mp hlt)]

/-- Rules in order end with a defect only if two have the same place, or the first has the
    place of the rule before it. -/
theorem Rules.repeat_of_deriveAfter {lookup : TableLookup}
    (hlookup : ∀ table input output value, Clean (lookup table input output value))
    {rules : List Rule} (hascending : rules.Pairwise Rule.NotBehind) {previous : Option Int}
    (hprevious : ∀ rule ∈ rules, ∀ place ∈ previous,
      ∃ place', rule.sequence = some place' ∧ place ≤ place')
    {context : Context} {error : Error}
    (h : deriveAfter lookup previous context rules = .error error)
    (hdefect : error.isDefect = true) :
    error = .fault .sequenceOrder ∧
      (Rules.Repeat rules ∨ previous ≠ none ∧ ∃ rule ∈ rules, rule.sequence = previous) := by
  induction rules generalizing previous context with
  | nil => cases h
  | cons rule rest ih =>
    obtain ⟨hfirst, hrest⟩ := List.pairwise_cons.mp hascending
    rcases bind_eq_error_iff.mp h with h | ⟨_, -, h⟩
    · obtain ⟨rfl, hsome, hsame⟩ :=
        Rule.eq_of_checkOrder (hprevious rule List.mem_cons_self) h
      exact ⟨rfl, .inr ⟨hsome, rule, List.mem_cons_self, hsame⟩⟩
    rcases bind_eq_error_iff.mp h with h | ⟨value, -, h⟩
    · -- a call that fails is no defect
      exact absurd hdefect ((rule.call.clean_eval hlookup context).not_isDefect h)
    · have hplaces : ∀ next ∈ rest, ∀ place ∈ rule.sequence,
          ∃ place', next.sequence = some place' ∧ place ≤ place' := by
        intro next hnext place hplace
        obtain ⟨first, second, hfirst', hsecond, hle⟩ := hfirst next hnext
        cases hfirst'.symm.trans hplace
        exact ⟨second, hsecond, hle⟩
      -- two of the rest have the same place, or one of them has that of this rule
      obtain ⟨rfl, hrepeat | ⟨-, next, hnext, hsame⟩⟩ := ih hrest hplaces h
      · obtain ⟨first, second, hsub, hsame⟩ := hrepeat
        exact ⟨rfl, .inl ⟨first, second, hsub.cons rule, hsame⟩⟩
      · exact ⟨rfl, .inl ⟨rule, next,
          (List.singleton_sublist.mpr hnext).cons_cons rule, hsame.symm⟩⟩

/-- The rules of a sound level end with a defect only if two have the same place. -/
theorem Engine.repeat_of_derive (engine : Engine) {level : Level} (hlevel : level.Sound)
    (type : RuleType) {context : Context} {error : Error}
    (h : (Rules.derive engine.lookup context (level.rulesOf type)).outcome = .error error)
    (hdefect : error.isDefect = true) :
    error = .fault .sequenceOrder ∧ Rules.Repeat (level.rulesOf type) := by
  rw [Rules.derive_outcome] at h
  obtain ⟨rfl, hrepeat | ⟨hnone, -⟩⟩ := Rules.repeat_of_deriveAfter engine.clean_lookup
    (hlevel.ascending type) (by simp) h hdefect
  · exact ⟨rfl, hrepeat⟩
  · exact absurd rfl hnone

/-! ## Conversions -/

namespace Engine

variable {engine : Engine} {error : Error}

/-- The error is that of rules of one of the schemes that have the same place. -/
def Repeats (engine : Engine) (error : Error) : Prop :=
  error = .fault .sequenceOrder ∧ ∃ scheme ∈ engine.schemes, ∃ level ∈ scheme.levels,
    ∃ type, Rules.Repeat (level.rulesOf type)

theorem repeats_of_read (hsound : ∀ scheme ∈ engine.schemes, scheme.Sound) {value : Text}
    {inputLevel : Option Text} {tagLength : Scalar} {params : Params}
    (h : engine.read value inputLevel tagLength params = .error error)
    (hdefect : error.isDefect = true) : engine.Repeats error := by
  rcases bind_eq_error_iff.mp h with h | ⟨candidate, hresolve, h⟩
  · exact absurd hdefect (Clean.not_isDefect (engine.index.clean_resolve _ _ _) h)
  obtain ⟨hscheme, hlevel⟩ := level_mem_of_resolve hresolve
  rcases bind_eq_error_iff.mp h with h | ⟨⟨option, found⟩, -, h⟩
  · exact absurd hdefect (Clean.not_isDefect (clean_select _ _ _ _) h)
  rcases bind_eq_error_iff.mp h with h | ⟨values, -, h⟩
  · exact absurd hdefect (Clean.not_isDefect (LevelOption.clean_decodeFields _ _ _ _ _ _) h)
  rcases bind_eq_error_iff.mp h with h | ⟨context, -, h⟩
  · obtain ⟨rfl, hrepeat⟩ := engine.repeat_of_derive ((hsound _ hscheme).levels _ hlevel)
      .extract h hdefect
    exact ⟨rfl, _, hscheme, _, hlevel, .extract, hrepeat⟩
  · cases h

theorem repeats_of_write (hsound : ∀ scheme ∈ engine.schemes, scheme.Sound) {reading : Reading}
    (hreading : reading.scheme ∈ engine.schemes) {output : Text}
    (h : engine.write reading output = .error error) (hdefect : error.isDefect = true) :
    engine.Repeats error := by
  rcases bind_eq_error_iff.mp h with h | ⟨⟨level, option⟩, houtput, h⟩
  · exact absurd hdefect (Clean.not_isDefect (clean_outputOption _ _ _) h)
  have hlevel := mem_of_outputOption houtput
  rcases bind_eq_error_iff.mp h with h | ⟨context, -, h⟩
  · obtain ⟨rfl, hrepeat⟩ := engine.repeat_of_derive ((hsound _ hreading).levels _ hlevel)
      .format h hdefect
    exact ⟨rfl, _, hreading, _, hlevel, .format, hrepeat⟩
  · exact absurd hdefect (Avoids.not_kind (avoids_renderOutput
      (fun _ => Error.isPeculiar_of_isDefect) output
      fun field _ value _ => field.avoids_encode engine.validator _ value) h)

/-- A conversion on sound schemes ends with a defect only if two rules have the same place. -/
theorem repeats_of_convertFromLevel (hsound : ∀ scheme ∈ engine.schemes, scheme.Sound)
    {value : Text} {inputLevel : Option Text} {tagLength : Scalar} {params : Params} {output : Text}
    (h : (engine.convertFromLevel value inputLevel tagLength params output).outcome =
      .error error) (hdefect : error.isDefect = true) : engine.Repeats error := by
  rw [convertFromLevel_outcome] at h
  rcases bind_eq_error_iff.mp h with h | ⟨reading, hread, h⟩
  · exact repeats_of_read hsound h hdefect
  · exact repeats_of_write hsound (scheme_mem_of_read hread) h hdefect

end Engine

/-- Schemes that are built are sound, and an engine of them can be run: an unchecked
    conversion ends like the conversion and never meets a gap; no compaction method is
    unsupported; and rules are out of sequence only where two rules of one type of a level
    have the same place. -/
theorem conversion_of_buildAll {docs : List SchemeDocument} {schemes : List Scheme}
    (hbuild : (Scheme.buildAll docs).outcome = .ok schemes) :
    (∀ scheme ∈ schemes, scheme.Sound) ∧
      ∀ settings engine, (Engine.ofSchemes schemes settings).outcome = .ok engine →
        ∀ value inputLevel tagLength params output,
          engine.convertUnchecked value inputLevel tagLength params output =
              unchecked (engine.convertFromLevel value inputLevel tagLength params output).outcome ∧
            (∀ gap, engine.convertUnchecked value inputLevel tagLength params output ≠
              .error (.gap gap)) ∧
            (∀ method, (engine.convertFromLevel value inputLevel tagLength params output).outcome ≠
              .error (.unsupportedCompaction method)) ∧
            ((engine.convertFromLevel value inputLevel tagLength params output).outcome =
                .error (.fault .sequenceOrder) →
              ∃ scheme ∈ schemes, ∃ level ∈ scheme.levels, ∃ type,
                Rules.Repeat (level.rulesOf type)) := by
  have hsound := Scheme.sound_of_buildAll hbuild
  refine ⟨hsound, fun settings engine hengine value inputLevel tagLength params output => ?_⟩
  have hmem {scheme : Scheme} (hscheme : scheme ∈ engine.schemes) : scheme ∈ schemes :=
    (Engine.perm_of_ofSchemes hengine).1.mem_iff.mp hscheme
  have hschemes : ∀ scheme ∈ engine.schemes, scheme.Sound := fun scheme hscheme =>
    hsound scheme (hmem hscheme)
  have hunchecked := Engine.convertUnchecked_eq hschemes value inputLevel tagLength params output
  refine ⟨hunchecked, fun gap => ?_, fun method h => ?_, fun h => ?_⟩
  · rw [hunchecked]
    exact unchecked_ne_gap _ gap
  · cases (Engine.repeats_of_convertFromLevel hschemes h rfl).1
  · obtain ⟨-, scheme, hscheme, level, hlevel, type, hrepeat⟩ :=
      Engine.repeats_of_convertFromLevel hschemes h rfl
    exact ⟨scheme, hmem hscheme, level, hlevel, type, hrepeat⟩

/-- A scheme with two extract rules that have the same place. -/
def samePlaces : SchemeDocument where
  name := .text "S"
  tagLength := .number 8
  optionKey := .text "k"
  levels := some [{
    type := .text "BINARY"
    prefixMatch := .text "1"
    options := some [{
      optionKey := .text "1", pattern := .text "^1([01]*)$", grammar := .text "'1' rest"
      fields := some [{ name := .text "rest", seq := .number 1, bitLength := .number 7 }] }]
    rules := some [
      { type := .text "EXTRACT", seq := .number 1, newFieldName := .text "count",
        function := .text "LENGTH(rest)" },
      { type := .text "EXTRACT", seq := .text "1", newFieldName := .text "first",
        function := .text "SUBSTR(rest,0,1)" }] }]

/-- The scheme is built, and converting a value with it shows the defect. -/
theorem conversion_of_buildAll_samePlaces :
    ∃ schemes engine, (Scheme.buildAll [samePlaces]).outcome = .ok schemes ∧
      (Engine.ofSchemes schemes {}).outcome = .ok engine ∧
      (∀ scheme ∈ schemes, scheme.Sound) ∧
      (engine.convertFromLevel "10000101" none .null [] LevelType.binary.name).outcome =
        .error (.fault .sequenceOrder) ∧
      engine.convertUnchecked "10000101" none .null [] LevelType.binary.name =
        .error (.error (.fault .sequenceOrder)) ∧
      ∃ scheme ∈ schemes, ∃ level ∈ scheme.levels, ∃ type, Rules.Repeat (level.rulesOf type) := by
  have hrun : ((Engine.ofDocuments [samePlaces] {}).outcome.bind fun engine =>
      (engine.convertFromLevel "10000101" none .null [] LevelType.binary.name).outcome) =
        .error (.fault .sequenceOrder) := by decide +kernel
  obtain ⟨engine, hengine⟩ := exists_eq_ok_of_isSome
    (by decide +kernel : (Engine.ofDocuments [samePlaces] {}).outcome.toOption.isSome = true)
  rw [hengine] at hrun
  obtain ⟨schemes, hbuild, hengine⟩ := Traced.bind_outcome_eq_ok_iff.mp hengine
  obtain ⟨hsound, hconvert⟩ := conversion_of_buildAll hbuild
  obtain ⟨hunchecked, -, -, hrepeat⟩ := hconvert {} engine hengine "10000101" none .null []
    LevelType.binary.name
  exact ⟨schemes, engine, hbuild, hengine, hsound, hrun,
    hunchecked.trans (congrArg unchecked hrun), hrepeat hrun⟩

end EpcTag
