-- SUMMARY: What every built scheme satisfies: groups that exist, unique keys and types, rules in order, calls of supported functions.
import EpcTag.Proofs.Building

/-!
# Sound schemes

Running a scheme takes for granted that the groups of its fields exist, that keys and
types are unique, that rules are in order and that the functions they call are known and
have their parameters. Building a scheme checks all of this.
-/

namespace EpcTag

/-! ## Rules -/

/-- Does a function take that many parameters? -/
def RuleFunction.Takes (count : Nat) : RuleFunction → Prop
  | .tableLookup => count = 4
  | .length | .checkDigit => count = 1
  | .substring => count = 2 ∨ count = 3
  | .concatenate => 1 ≤ count
  | .arithmetic _ => count = 2

/-- A call has as many parameters as its function takes. -/
theorem RuleCall.takes_params (call : RuleCall) : call.function.Takes call.params.length := by
  cases call with
  | substring value start count => cases count <;> simp [function, params, RuleFunction.Takes]
  | concatenate first rest => simp [function, params, RuleFunction.Takes]
  | _ => rfl

/-- The text of a rule names a supported function, with parameters as many as it takes. -/
structure Rule.Sound (rule : Rule) : Prop where
  written : ∃ word body, RuleCall.splitCall? rule.function = some (word, body) ∧
    RuleFunction.ofName? (Text.upper word) = some rule.call.function ∧
    RuleCall.parseParams body = rule.call.params
  takes : rule.call.function.Takes rule.call.params.length

theorem RuleCall.exists_written_of_parse {text : Text} {call : RuleCall} (h : parse text = .ok call) :
    ∃ word body, splitCall? text = some (word, body) ∧
      RuleFunction.ofName? (Text.upper word) = some call.function ∧
      parseParams body = call.params := by
  unfold parse at h
  split at h
  · cases h
  · next word body hsplit =>
    dsimp only at h
    split at h
    · cases h
    · next function hfunction =>
      split at h
      · cases h
      · next built hbuilt =>
        cases h
        obtain ⟨rfl, hparams⟩ := eq_of_ofParams? hbuilt
        exact ⟨word, body, hsplit, hfunction, hparams.symm⟩

theorem Rule.Built.sound {doc : RuleDocument} {rule : Rule} (h : rule.Built doc) : rule.Sound where
  written := RuleCall.exists_written_of_parse h.call
  takes := rule.call.takes_params

/-- Both rules have a place, and the first is not behind the second. -/
def Rule.NotBehind (first second : Rule) : Prop :=
  ∃ place place', first.sequence = some place ∧ second.sequence = some place' ∧ place ≤ place'

namespace Rules

variable {rules ordered : List Rule}

theorem Placed.perm (h : Placed rules) (hperm : ordered.Perm rules) : Placed ordered :=
  fun hlong rule hrule => h (hperm.length_eq ▸ hlong) rule (hperm.mem_iff.mp hrule)

/-- Several rules have places of their own, so none is compared by a default. -/
theorem Placed.pairwise (h : Placed ordered)
    (hpairwise : ordered.Pairwise fun a b => a.sequence.getD 0 ≤ b.sequence.getD 0) :
    ordered.Pairwise Rule.NotBehind := by
  have hlong (h2 : 2 ≤ ordered.length) : ordered.Pairwise Rule.NotBehind := by
    refine hpairwise.imp_of_mem fun {first second} hfirst hsecond hle => ?_
    obtain ⟨place, hplace⟩ := Option.ne_none_iff_exists'.mp (h h2 first hfirst)
    obtain ⟨place', hplace'⟩ := Option.ne_none_iff_exists'.mp (h h2 second hsecond)
    rw [hplace, hplace'] at hle
    exact ⟨place, place', hplace, hplace', hle⟩
  cases ordered with
  | nil => exact .nil
  | cons first rest =>
    cases rest with
    | nil => exact List.pairwise_singleton _ first
    | cons second rest => exact hlong (by simp)

/-- Rules of a type that are put in order are in order. -/
theorem pairwise_of_ofType {type : RuleType} (h : ofType type rules = .ok ordered) :
    ordered.Pairwise Rule.NotBehind := by
  obtain ⟨hplaced, rfl⟩ := ofType_eq_ok_iff.mp h
  exact (hplaced.perm (sortStable_perm _ _)).pairwise
    (sortStable_pairwise (fun rule : Rule => rule.sequence.getD 0) _)

/-- The rules of a type are rules that are given, and of that type. -/
theorem mem_of_ofType {type : RuleType} (h : ofType type rules = .ok ordered) {rule : Rule}
    (hrule : rule ∈ ordered) : rule ∈ rules ∧ rule.type = type := by
  rw [(ofType_eq_ok_iff.mp h).2, mem_sortStable, List.mem_filter] at hrule
  exact ⟨hrule.1, of_decide_eq_true hrule.2⟩

end Rules

/-! ## Levels and schemes -/

/-- The rules of a type. -/
def Level.rulesOf (level : Level) : RuleType → List Rule
  | .extract => level.extractRules
  | .format => level.formatRules

/-- Every field of an option names a group of its pattern. -/
def LevelOption.GroupsExist (option : LevelOption) : Prop :=
  ∀ field ∈ option.fields, ∃ group : Nat, field.group = some (group : Int) ∧ 1 ≤ group ∧
    group ≤ option.pattern.groupCount

/-- What running a level takes for granted. -/
structure Level.Sound (level : Level) : Prop where
  keys : (level.options.map LevelOption.key).Nodup
  options : ∀ option ∈ level.options, option.GroupsExist
  types : ∀ type, ∀ rule ∈ level.rulesOf type, rule.type = type
  rules : ∀ type, ∀ rule ∈ level.rulesOf type, rule.Sound
  ascending : ∀ type, (level.rulesOf type).Pairwise Rule.NotBehind

/-- What running a scheme takes for granted. -/
structure Scheme.Sound (scheme : Scheme) : Prop where
  types : (scheme.levels.map Level.type).Nodup
  levels : ∀ level ∈ scheme.levels, level.Sound

/-- The rules of a type are the built ones of that type, in order. -/
theorem Level.Built.exists_rulesOf {doc : LevelDocument} {level : Level} (h : level.Built doc)
    (type : RuleType) :
    ∃ rules, (∀ rule ∈ rules, ∃ doc, rule.Built doc) ∧
      Rules.ofType type rules = .ok (level.rulesOf type) := by
  obtain ⟨docs, rules, -, hbuilt, hextract, hformat⟩ := h.rules
  refine ⟨rules, fun rule hrule => ?_, ?_⟩
  · obtain ⟨doc, -, hbuild⟩ := exists_of_mem_mapM hbuilt hrule
    exact ⟨doc, Rule.built_of_build hbuild⟩
  · cases type with
    | extract => exact hextract
    | format => exact hformat

theorem Level.Built.sound {doc : LevelDocument} {level : Level} (h : level.Built doc) :
    level.Sound where
  keys := h.keys
  options := by
    intro option hoption
    obtain ⟨docs, -, hbuilt⟩ := h.options
    obtain ⟨doc, -, hbuild⟩ := exists_of_mem_mapM hbuilt hoption
    exact (LevelOption.built_of_build hbuild).groups
  types := by
    intro type rule hrule
    obtain ⟨rules, -, hrules⟩ := h.exists_rulesOf type
    exact (Rules.mem_of_ofType hrules hrule).2
  rules := by
    intro type rule hrule
    obtain ⟨rules, hbuilt, hrules⟩ := h.exists_rulesOf type
    obtain ⟨doc, hdoc⟩ := hbuilt rule (Rules.mem_of_ofType hrules hrule).1
    exact hdoc.sound
  ascending := by
    intro type
    obtain ⟨rules, -, hrules⟩ := h.exists_rulesOf type
    exact Rules.pairwise_of_ofType hrules

theorem Scheme.Built.sound {doc : SchemeDocument} {scheme : Scheme} (h : scheme.Built doc) :
    scheme.Sound where
  types := h.types
  levels := by
    intro level hlevel
    obtain ⟨docs, -, hbuilt⟩ := h.levels
    obtain ⟨doc, -, hbuild⟩ := exists_of_mem_mapM hbuilt hlevel
    exact (Level.built_of_build hbuild).sound

/-- Schemes that are built are sound. -/
theorem Scheme.sound_of_buildAll {docs : List SchemeDocument} {schemes : List Scheme}
    (h : (Scheme.buildAll docs).outcome = .ok schemes) : ∀ scheme ∈ schemes, scheme.Sound := by
  intro scheme hscheme
  rw [Scheme.buildAll_outcome] at h
  obtain ⟨doc, -, hbuild⟩ := exists_of_mem_mapM h hscheme
  exact (Scheme.built_of_build hbuild).sound

end EpcTag
