-- SUMMARY: What a built scheme has from its document: its parts one by one, groups of the patterns, unique keys and types, prefixes that are not empty.
import EpcTag.Scheme.Building
import Mathlib.Tactic

/-!
# Built schemes

Building succeeds part by part. What is said here of a scheme, a level or an option
follows from the document having been built, and is all that is needed of it.
-/

namespace EpcTag

theorem exists_eq_ok_of_isSome {ε α : Type} {outcome : Except ε α}
    (h : outcome.toOption.isSome = true) : ∃ result, outcome = .ok result := by
  cases outcome with
  | error error => cases h
  | ok result => exact ⟨result, rfl⟩

/-! ## Lists of parts -/

theorem mapM_eq_ok {α β : Type} {f : α → Except Error β} {xs : List α} {ys : List β}
    (h : List.Forall₂ (fun x y => f x = .ok y) xs ys) : xs.mapM f = .ok ys := by
  induction h with
  | nil => rfl
  | cons hxy _ ih =>
    rw [List.mapM_cons, hxy, ih]
    rfl

theorem mapM_eq_ok_map {α β : Type} {f : α → Except Error β} {g : α → β} {xs : List α}
    (h : ∀ x ∈ xs, f x = .ok (g x)) : xs.mapM f = .ok (xs.map g) :=
  mapM_eq_ok (List.forall₂_map_right_iff.mpr (List.forall₂_same.mpr h))

/-- What is built from a list is built element by element. -/
theorem forall₂_of_mapM {ε α β : Type} {f : α → Except ε β} {xs : List α} {ys : List β}
    (h : xs.mapM f = .ok ys) : List.Forall₂ (fun x y => f x = .ok y) xs ys := by
  induction xs generalizing ys with
  | nil =>
    cases h
    exact .nil
  | cons x xs ih =>
    rw [List.mapM_cons] at h
    obtain ⟨y, hy, h⟩ := bind_eq_ok_iff.mp h
    obtain ⟨rest, hrest, h⟩ := bind_eq_ok_iff.mp h
    cases h
    exact .cons hy (ih hrest)

section
variable {ε α β : Type} {xs : List α} {ys : List β} {error : ε}

theorem exists_right_of_mem {R : α → β → Prop} (h : List.Forall₂ R xs ys) {x : α} (hx : x ∈ xs) :
    ∃ y ∈ ys, R x y := by
  induction h with
  | nil => cases hx
  | @cons head y _ _ hxy _ ih =>
    rcases List.mem_cons.mp hx with rfl | hx
    · exact ⟨y, List.mem_cons_self, hxy⟩
    · obtain ⟨y', hy', hR⟩ := ih hx
      exact ⟨y', List.mem_cons_of_mem _ hy', hR⟩

theorem exists_left_of_mem {R : α → β → Prop} (h : List.Forall₂ R xs ys) {y : β} (hy : y ∈ ys) :
    ∃ x ∈ xs, R x y :=
  exists_right_of_mem h.flip hy

theorem exists_of_mem_mapM {f : α → Except ε β} (h : xs.mapM f = .ok ys) {y : β} (hy : y ∈ ys) :
    ∃ x ∈ xs, f x = .ok y :=
  exists_left_of_mem (forall₂_of_mapM h) hy

/-- Every element of a list that is built is built. -/
theorem exists_build_of_mem {f : α → Except ε β} (h : xs.mapM f = .ok ys) {x : α} (hx : x ∈ xs) :
    ∃ y ∈ ys, f x = .ok y :=
  exists_right_of_mem (forall₂_of_mapM h) hx

/-- A list that is not built has an element that is not. -/
theorem exists_error_of_mapM {f : α → Except ε β} (h : xs.mapM f = .error error) :
    ∃ x ∈ xs, f x = .error error := by
  induction xs with
  | nil => cases h
  | cons x xs ih =>
    rw [List.mapM_cons] at h
    rcases bind_eq_error_iff.mp h with h | ⟨y, -, h⟩
    · exact ⟨x, List.mem_cons_self, h⟩
    · rcases bind_eq_error_iff.mp h with h | ⟨ys, -, h⟩
      · obtain ⟨x', hx', herror⟩ := ih h
        exact ⟨x', List.mem_cons_of_mem _ hx', herror⟩
      · cases h

/-- A check of a list fails at one of its elements. -/
theorem exists_error_of_forM {f : α → Except ε Unit} (h : xs.forM f = .error error) :
    ∃ x ∈ xs, f x = .error error := by
  induction xs with
  | nil => cases h
  | cons x xs ih =>
    rcases bind_eq_error_iff.mp h with h | ⟨-, -, h⟩
    · exact ⟨x, List.mem_cons_self, h⟩
    · obtain ⟨x', hx', herror⟩ := ih h
      exact ⟨x', List.mem_cons_of_mem _ hx', herror⟩

theorem eq_ok_of_forM {f : α → Except ε Unit} (h : xs.forM f = .ok ()) :
    ∀ x ∈ xs, f x = .ok () := by
  induction xs with
  | nil => simp
  | cons x xs ih =>
    obtain ⟨_, hx, h⟩ := bind_eq_ok_iff.mp h
    exact List.forall_mem_cons.mpr ⟨hx, ih h⟩

end

theorem nodup_of_firstRepeated?_go {α κ : Type} [BEq κ] [LawfulBEq κ] {key : α → κ} {seen : List κ}
    {xs : List α} (h : firstRepeated? key seen xs = none) :
    (xs.map key).Nodup ∧ ∀ x ∈ xs, key x ∉ seen := by
  induction xs generalizing seen with
  | nil => simp
  | cons x xs ih =>
    rw [firstRepeated?] at h
    split at h
    · cases h
    · next hseen =>
      obtain ⟨hnodup, hrest⟩ := ih h
      -- the key was put among those seen, so none of the rest has it
      have hfresh : ∀ y ∈ xs, key y ≠ key x := fun y hy heq => hrest y hy (by simp [heq])
      refine ⟨?_, ?_⟩
      · rw [List.map_cons, List.nodup_cons]
        exact ⟨fun hmem => by
          obtain ⟨y, hy, heq⟩ := List.mem_map.mp hmem
          exact hfresh y hy heq, hnodup⟩
      · intro y hy
        rcases List.mem_cons.mp hy with rfl | hy
        · simpa using hseen
        · exact fun hmem => hrest y hy (List.mem_cons_of_mem _ hmem)

/-- Elements of which none repeats the key of an earlier one have different keys. -/
theorem nodup_of_firstRepeated? {α κ : Type} [BEq κ] [LawfulBEq κ] {key : α → κ} {xs : List α}
    (h : firstRepeated? key [] xs = none) : (xs.map key).Nodup :=
  (nodup_of_firstRepeated?_go h).1

/-! ## Attributes -/

theorem Attribute.required_eq_ok_iff {slot : Attribute} {key owner : Text} {value : Scalar} :
    slot.required key owner = .ok value ↔ slot = some value := by
  cases slot <;> simp [required]

theorem Attribute.integer_eq_ok_some {slot : Attribute} {what : Text} {n : Int}
    (h : slot.integer what = .ok (some n)) : slot.value.integer? = some n := by
  unfold integer at h
  split at h
  · cases h
  · cases h
  · cases h
  · split at h
    · next value _ _ n' hn =>
      cases h
      exact hn
    · cases h

/-- An attribute has no number exactly if it is missing, nothing or empty. -/
theorem Attribute.integer_eq_ok_none_iff {slot : Attribute} {what : Text} :
    slot.integer what = .ok none ↔ slot = none ∨ slot = some .null ∨ slot = some (.text []) := by
  by_cases hvoid : slot = none ∨ slot = some .null ∨ slot = some (.text [])
  · rcases hvoid with rfl | rfl | rfl <;> simp [integer]
  · simp only [hvoid, iff_false]
    unfold integer
    split
    · simp at hvoid
    · simp at hvoid
    · simp at hvoid
    · split <;> simp

theorem Parts.required_eq_ok_iff {α : Type} {parts : Parts α} {list : List α} :
    parts.required = .ok list ↔ parts = some list := by
  cases parts <;> simp [required]

theorem Scalar.text?_eq_some_iff {s : Scalar} {text : Text} :
    s.text? = some text ↔ s = .text text := by
  cases s <;> simp [text?]

theorem Scalar.eq_text_of_operand {s : Scalar} {text : Text} (h : s.operand = .ok text) :
    s = .text text := by
  unfold operand at h
  split at h
  · next content hcontent =>
    cases h
    exact text?_eq_some_iff.mp hcontent
  · cases h

theorem Scalar.eq_text_of_subject {s : Scalar} {text : Text} (h : s.subject = .ok text) :
    s = .text text := by
  unfold subject at h
  split at h
  · next content hcontent =>
    cases h
    exact text?_eq_some_iff.mp hcontent
  · cases h

/-! ## Fields -/

theorem Compaction.eq_name_of_ofName? {text : Text} {method : Compaction}
    (h : ofName? text = some method) : text = method.name := by
  have := List.find?_some h
  exact (eq_of_beq this).symm

/-- What a field has from its document. -/
structure Field.Built (doc : FieldDocument) (field : Field) : Prop where
  name : doc.name = some (.text field.name)
  group : ∃ seq what, doc.seq = some seq ∧ Attribute.integer (some seq) what = .ok field.group
  compaction : ∀ method ∈ field.compaction, doc.compaction = some (.text method.name)

theorem FieldDocument.compaction_of_method {label : Scalar} {slot : Attribute}
    {compaction : Option Compaction} (h : method label slot = .ok compaction) :
    ∀ method ∈ compaction, slot = some (.text method.name) := by
  unfold method at h
  split at h
  · cases h
    simp
  · cases h
    simp
  · next value _ =>
    split at h
    · next method hmethod =>
      cases h
      intro _ hmem
      cases hmem
      obtain ⟨text, htext, hname⟩ := Option.bind_eq_some_iff.mp hmethod
      rw [Scalar.text?_eq_some_iff.mp htext, Compaction.eq_name_of_ofName? hname]
    · cases h

theorem Field.built_of_build {doc : FieldDocument} {field : Field} (h : doc.build = .ok field) :
    field.Built doc := by
  obtain ⟨label, hlabel, h⟩ := bind_eq_ok_iff.mp h
  obtain ⟨compaction, hcompaction, h⟩ := bind_eq_ok_iff.mp h
  obtain ⟨padEdge, -, h⟩ := bind_eq_ok_iff.mp h
  obtain ⟨bitPadEdge, -, h⟩ := bind_eq_ok_iff.mp h
  obtain ⟨name, hname, h⟩ := bind_eq_ok_iff.mp h
  obtain ⟨seq, hseq, h⟩ := bind_eq_ok_iff.mp h
  obtain ⟨group, hgroup, h⟩ := bind_eq_ok_iff.mp h
  obtain ⟨length, -, h⟩ := bind_eq_ok_iff.mp h
  obtain ⟨bitLength, -, h⟩ := bind_eq_ok_iff.mp h
  cases h
  rw [Attribute.required_eq_ok_iff, Scalar.eq_text_of_operand hname] at hlabel
  exact {
    name := hlabel
    group := ⟨seq, _, Attribute.required_eq_ok_iff.mp hseq, hgroup⟩
    compaction := FieldDocument.compaction_of_method hcompaction }

/-! ## Rules -/

/-- The type of the rule that a document describes, if it names one. -/
def RuleDocument.ruleType? (doc : RuleDocument) : Option RuleType :=
  doc.type.value.text?.bind fun name => RuleType.ofName? (Text.upper name)

/-- What a rule has from its document. -/
structure Rule.Built (doc : RuleDocument) (rule : Rule) : Prop where
  type : doc.ruleType? = some rule.type
  sequence : ∃ seq what, doc.seq = some seq ∧ Attribute.integer (some seq) what = .ok rule.sequence
  function : doc.function = some (.text rule.function)
  call : RuleCall.parse rule.function = .ok rule.call

theorem Rule.built_of_build {doc : RuleDocument} {rule : Rule} (h : doc.build = .ok rule) :
    rule.Built doc := by
  obtain ⟨functionSlot, hfunctionSlot, h⟩ := bind_eq_ok_iff.mp h
  obtain ⟨function, hfunction, h⟩ := bind_eq_ok_iff.mp h
  obtain ⟨typeSlot, htypeSlot, h⟩ := bind_eq_ok_iff.mp h
  obtain ⟨typeName, htypeName, h⟩ := bind_eq_ok_iff.mp h
  rw [Attribute.required_eq_ok_iff] at hfunctionSlot htypeSlot
  rw [Scalar.eq_text_of_operand hfunction] at hfunctionSlot
  rw [Scalar.eq_text_of_subject htypeName] at htypeSlot
  have hname : doc.ruleType? = RuleType.ofName? (Text.upper typeName) := by
    rw [RuleDocument.ruleType?, htypeSlot]
    rfl
  cases htype : RuleType.ofName? (Text.upper typeName) with
  | none =>
    simp only [htype] at h
    cases h
  | some type =>
    simp only [htype] at h
    obtain ⟨_, htype', h⟩ := bind_eq_ok_iff.mp (h : (Except.ok type).bind _ = _)
    cases htype'
    obtain ⟨seq, hseq, h⟩ := bind_eq_ok_iff.mp h
    obtain ⟨sequence, hsequence, h⟩ := bind_eq_ok_iff.mp h
    obtain ⟨newField, -, h⟩ := bind_eq_ok_iff.mp h
    obtain ⟨call, hcall, h⟩ := bind_eq_ok_iff.mp h
    cases h
    exact {
      type := hname.trans htype
      sequence := ⟨seq, _, Attribute.required_eq_ok_iff.mp hseq, hsequence⟩
      function := hfunctionSlot
      call := hcall }

namespace Rules

variable {type : RuleType} {rules ordered : List Rule}

/-- Rules can be put in order: every rule has a place, or there is no more than one. -/
def Placed (rules : List Rule) : Prop :=
  2 ≤ rules.length → ∀ rule ∈ rules, rule.sequence ≠ none

theorem placed_iff : Placed rules ↔ ¬ (2 ≤ rules.length ∧ rules.any (·.sequence.isNone) = true) := by
  simp only [Placed, List.any_eq_true, Option.isNone_iff_eq_none, not_and, not_exists]

/-- The rules of a type are put in order if they can be. -/
theorem ofType_of_placed (h : Placed (rules.filter (·.type = type))) :
    ofType type rules = .ok (sortStable (fun a b => a.sequence.getD 0 < b.sequence.getD 0)
      (rules.filter (·.type = type))) :=
  if_neg (placed_iff.mp h)

theorem ofType_of_not_placed (h : ¬ Placed (rules.filter (·.type = type))) :
    ofType type rules = .error (.fault .wrongType) :=
  if_pos (not_not.mp (placed_iff.not.mp h))

theorem ofType_eq_ok_iff : ofType type rules = .ok ordered ↔
    Placed (rules.filter (·.type = type)) ∧
      ordered = sortStable (fun a b => a.sequence.getD 0 < b.sequence.getD 0)
        (rules.filter (·.type = type)) := by
  by_cases h : Placed (rules.filter (·.type = type))
  · rw [ofType_of_placed h, Except.ok.injEq, and_iff_right h]
    exact eq_comm
  · simp [ofType_of_not_placed h, h]

end Rules

/-! ## Options -/

/-- What an option has from its document. -/
structure LevelOption.Built (doc : OptionDocument) (option : LevelOption) : Prop where
  pattern : doc.pattern = some (.text option.patternText) ∧
    Pattern.parse option.patternText = .ok option.pattern
  fields : ∃ docs, doc.fields = some docs ∧ docs.mapM FieldDocument.build = .ok option.fields
  groups : ∀ field ∈ option.fields, ∃ group : Nat, field.group = some (group : Int) ∧ 1 ≤ group ∧
    group ≤ option.pattern.groupCount

theorem Field.exists_group_of_checkGroup {key : Text} {groups : Nat} {field : Field}
    (h : field.checkGroup key groups = .ok ()) :
    ∃ group : Nat, field.group = some (group : Int) ∧ 1 ≤ group ∧ group ≤ groups := by
  unfold checkGroup at h
  split at h
  · cases h
  · next group hgroup =>
    split at h
    · next hrange =>
      obtain ⟨n, rfl⟩ := Int.eq_ofNat_of_zero_le (by omega : 0 ≤ group)
      exact ⟨n, hgroup, by omega, by omega⟩
    · cases h

theorem LevelOption.built_of_build {doc : OptionDocument} {option : LevelOption}
    (h : doc.build = .ok option) : option.Built doc := by
  obtain ⟨keySlot, -, h⟩ := bind_eq_ok_iff.mp h
  obtain ⟨patternSlot, hpatternSlot, h⟩ := bind_eq_ok_iff.mp h
  obtain ⟨grammar, -, h⟩ := bind_eq_ok_iff.mp h
  obtain ⟨fieldDocs, hfieldDocs, h⟩ := bind_eq_ok_iff.mp h
  obtain ⟨fields, hfields, h⟩ := bind_eq_ok_iff.mp h
  obtain ⟨patternText, hpatternText, h⟩ := bind_eq_ok_iff.mp h
  obtain ⟨pattern, hpattern, h⟩ := bind_eq_ok_iff.mp h
  obtain ⟨_, hgroups, h⟩ := bind_eq_ok_iff.mp h
  cases h
  rw [Attribute.required_eq_ok_iff, Scalar.eq_text_of_operand hpatternText] at hpatternSlot
  have hparse : Pattern.parse patternText = .ok pattern := by
    unfold OptionDocument.readPattern at hpattern
    split at hpattern
    · next parsed hparsed =>
      cases hpattern
      exact hparsed
    · cases hpattern
    · cases hpattern
  exact {
    pattern := ⟨hpatternSlot, hparse⟩
    fields := ⟨fieldDocs, Parts.required_eq_ok_iff.mp hfieldDocs, hfields⟩
    groups := fun field hfield =>
      Field.exists_group_of_checkGroup (eq_ok_of_forM hgroups field hfield) }

/-! ## Levels -/

/-- What a level has from its document. -/
structure Level.Built (doc : LevelDocument) (level : Level) : Prop where
  type : ∃ text, doc.type = some (.text text) ∧
    LevelType.ofName? (Text.upper text) = some level.type
  start : level.start = doc.start
  options : ∃ docs, doc.options = some docs ∧ docs.mapM OptionDocument.build = .ok level.options
  keys : (level.options.map LevelOption.key).Nodup
  rules : ∃ docs rules, doc.rules = some docs ∧ docs.mapM RuleDocument.build = .ok rules ∧
    Rules.ofType .extract rules = .ok level.extractRules ∧
    Rules.ofType .format rules = .ok level.formatRules

theorem Level.built_of_assemble {typeName : Text} {start : Scalar} {options : List LevelOption}
    {rules : List Rule} {level : Level} (h : assemble typeName start options rules = .ok level) :
    LevelType.ofName? typeName = some level.type ∧ level.start = start ∧
      level.options = options ∧ (options.map LevelOption.key).Nodup ∧
      Rules.ofType .extract rules = .ok level.extractRules ∧
      Rules.ofType .format rules = .ok level.formatRules := by
  unfold assemble at h
  cases htype : LevelType.ofName? typeName with
  | none =>
    rw [htype] at h
    cases h
  | some type =>
    rw [htype] at h
    obtain ⟨_, htype', h⟩ := bind_eq_ok_iff.mp (h : (Except.ok type).bind _ = _)
    cases htype'
    split at h
    · cases h
    · next hrepeated =>
      obtain ⟨extractRules, hextract, h⟩ := bind_eq_ok_iff.mp h
      obtain ⟨formatRules, hformat, h⟩ := bind_eq_ok_iff.mp h
      cases h
      exact ⟨rfl, rfl, rfl, nodup_of_firstRepeated? hrepeated, hextract, hformat⟩

theorem Level.built_of_build {doc : LevelDocument} {level : Level} (h : doc.build = .ok level) :
    level.Built doc := by
  obtain ⟨slot, hslot, h⟩ := bind_eq_ok_iff.mp h
  obtain ⟨text, htext, h⟩ := bind_eq_ok_iff.mp h
  obtain ⟨optionDocs, hoptionDocs, h⟩ := bind_eq_ok_iff.mp h
  obtain ⟨options, hoptions, h⟩ := bind_eq_ok_iff.mp h
  obtain ⟨ruleDocs, hruleDocs, h⟩ := bind_eq_ok_iff.mp h
  obtain ⟨rules, hrules, h⟩ := bind_eq_ok_iff.mp h
  obtain ⟨htype, hstart, rfl, hkeys, hextract, hformat⟩ := Level.built_of_assemble h
  rw [Attribute.required_eq_ok_iff, Scalar.eq_text_of_subject htext] at hslot
  exact {
    type := ⟨text, hslot, htype⟩
    start := hstart
    options := ⟨optionDocs, Parts.required_eq_ok_iff.mp hoptionDocs, hoptions⟩
    keys := hkeys
    rules := ⟨ruleDocs, rules, Parts.required_eq_ok_iff.mp hruleDocs, hrules, hextract, hformat⟩ }

/-- The prefix of a level is not empty. -/
theorem LevelDocument.start_ne (doc : LevelDocument) : doc.start ≠ .text [] := by
  unfold start
  split
  · simp
  · next hvoid =>
    intro heq
    rw [heq] at hvoid
    exact hvoid rfl

/-! ## Schemes -/

/-- What a scheme has from its document. -/
structure Scheme.Built (doc : SchemeDocument) (scheme : Scheme) : Prop where
  name : doc.name = some (.text scheme.name)
  tagLength : doc.tagLength.value.integer? = some scheme.tagLength
  optionKey : doc.optionKey = some scheme.optionKey
  levels : ∃ docs, doc.levels = some docs ∧ docs.mapM LevelDocument.build = .ok scheme.levels
  types : (scheme.levels.map Level.type).Nodup

theorem Scheme.built_of_build {doc : SchemeDocument} {scheme : Scheme}
    (h : doc.build = .ok scheme) : scheme.Built doc := by
  obtain ⟨slot, hslot, h⟩ := bind_eq_ok_iff.mp h
  obtain ⟨name, hname, h⟩ := bind_eq_ok_iff.mp h
  obtain ⟨lengthSlot, hlengthSlot, h⟩ := bind_eq_ok_iff.mp h
  obtain ⟨length, hlength, h⟩ := bind_eq_ok_iff.mp h
  obtain ⟨optionKey, hoptionKey, h⟩ := bind_eq_ok_iff.mp h
  obtain ⟨levelDocs, hlevelDocs, h⟩ := bind_eq_ok_iff.mp h
  obtain ⟨levels, hlevels, h⟩ := bind_eq_ok_iff.mp h
  rw [Attribute.required_eq_ok_iff] at hslot hlengthSlot hoptionKey
  rw [Scalar.eq_text_of_operand hname] at hslot
  unfold assemble at h
  split at h
  · cases h
  · next tagLength =>
    split at h
    · cases h
    · next hrepeated =>
      cases h
      exact {
        name := hslot
        tagLength := by
          rw [hlengthSlot]
          exact Attribute.integer_eq_ok_some hlength
        optionKey := hoptionKey
        levels := ⟨levelDocs, Parts.required_eq_ok_iff.mp hlevelDocs, hlevels⟩
        types := nodup_of_firstRepeated? hrepeated }

/-- Documents are built one by one. -/
theorem Scheme.buildAll_outcome (docs : List SchemeDocument) :
    (Scheme.buildAll docs).outcome = docs.mapM SchemeDocument.build := by
  induction docs with
  | nil => rfl
  | cons doc docs ih =>
    rw [buildAll] at ih ⊢
    rw [List.mapM_cons, List.mapM_cons, Traced.bind_outcome]
    simp only [Traced.bind_outcome, ih]
    cases doc.build <;> rfl

/-- The prefixes of the levels of a scheme are not empty. -/
theorem Scheme.Built.start_ne {doc : SchemeDocument} {scheme : Scheme} (h : scheme.Built doc) :
    ∀ level ∈ scheme.levels, level.start ≠ .text [] := by
  obtain ⟨docs, -, hlevels⟩ := h.levels
  intro level hlevel
  obtain ⟨doc, -, hbuild⟩ := exists_of_mem_mapM hlevels hlevel
  rw [(Level.built_of_build hbuild).start]
  exact doc.start_ne

end EpcTag
