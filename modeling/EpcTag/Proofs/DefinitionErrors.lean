-- SUMMARY: What building definitions of texts ends with: schemes, a definition error, or a fault after one of two lapses.
import EpcTag.Proofs.Building
import EpcTag.Scheme.Definition

/-!
# Definitions with errors

The attributes of a definition file are texts. Nearly everything that can be wrong
with them is reported as a definition error. What is not are the two *lapses*: a
number that is empty where it is needed, and a pattern that repeats too often. A
document with a lapse is never built; if nothing else is found to be wrong with it
before, building it ends with a fault.
-/

namespace EpcTag

/-! ## Documents of texts -/

/-- The attribute is missing or a text. -/
def Attribute.Textual (slot : Attribute) : Prop := ∀ value ∈ slot, ∃ text, value = .text text

def FieldDocument.attributes (doc : FieldDocument) : List Attribute :=
  [doc.name, doc.seq, doc.length, doc.bitLength, doc.padChar, doc.padDir, doc.bitPadDir,
   doc.compaction, doc.characterSet, doc.decimalMinimum, doc.decimalMaximum]

def RuleDocument.attributes (doc : RuleDocument) : List Attribute :=
  [doc.type, doc.seq, doc.newFieldName, doc.function, doc.tableUrl, doc.tableXPath]

/-- All attributes of a field are texts. -/
def FieldDocument.Textual (doc : FieldDocument) : Prop := ∀ slot ∈ doc.attributes, slot.Textual

/-- All attributes of a rule are texts. -/
def RuleDocument.Textual (doc : RuleDocument) : Prop := ∀ slot ∈ doc.attributes, slot.Textual

/-- All attributes of an option and of its fields are texts. -/
structure OptionDocument.Textual (doc : OptionDocument) : Prop where
  attributes : ∀ slot ∈ [doc.optionKey, doc.pattern, doc.grammar], slot.Textual
  fields : ∃ fields, doc.fields = some fields ∧ ∀ field ∈ fields, field.Textual

/-- All attributes of a level, of its options and of its rules are texts. -/
structure LevelDocument.Textual (doc : LevelDocument) : Prop where
  attributes : ∀ slot ∈ [doc.type, doc.prefixMatch], slot.Textual
  options : ∃ options, doc.options = some options ∧ ∀ option ∈ options, option.Textual
  rules : ∃ rules, doc.rules = some rules ∧ ∀ rule ∈ rules, rule.Textual

/-- All attributes of a scheme and of its levels are texts. -/
structure SchemeDocument.Textual (doc : SchemeDocument) : Prop where
  attributes : ∀ slot ∈ [doc.name, doc.tagLength, doc.optionKey], slot.Textual
  levels : ∃ levels, doc.levels = some levels ∧ ∀ level ∈ levels, level.Textual

/-! ## Definition files -/

section
variable (element : Xml.Element)

theorem Attribute.textual_ofElement (name : Text) : (Attribute.ofElement element name).Textual := by
  intro value hvalue
  obtain ⟨text, -, rfl⟩ := Option.map_eq_some_iff.mp hvalue
  exact ⟨text, rfl⟩

theorem FieldDocument.textual_ofElement : (FieldDocument.ofElement element).Textual := by
  simp [Textual, attributes, ofElement, Attribute.textual_ofElement]

theorem RuleDocument.textual_ofElement : (RuleDocument.ofElement element).Textual := by
  simp [Textual, attributes, ofElement, Attribute.textual_ofElement]

theorem OptionDocument.textual_ofElement : (OptionDocument.ofElement element).Textual where
  attributes := by simp [ofElement, Attribute.textual_ofElement]
  fields := ⟨_, rfl, by simp [FieldDocument.textual_ofElement]⟩

theorem LevelDocument.textual_ofElement : (LevelDocument.ofElement element).Textual where
  attributes := by simp [ofElement, Attribute.textual_ofElement]
  options := ⟨_, rfl, by simp [OptionDocument.textual_ofElement]⟩
  rules := ⟨_, rfl, by simp [RuleDocument.textual_ofElement]⟩

theorem SchemeDocument.textual_ofElement : (SchemeDocument.ofElement element).Textual where
  attributes := by simp [ofElement, Attribute.textual_ofElement]
  levels := ⟨_, rfl, by simp [LevelDocument.textual_ofElement]⟩

end

/-- The documents of a definition file are documents of texts. -/
theorem SchemeDocument.textual_of_parse {source : Xml.Source} {docs : List SchemeDocument}
    (h : SchemeDocument.parse source = .ok docs) : ∀ doc ∈ docs, doc.Textual := by
  obtain ⟨root, -, h⟩ := bind_eq_ok_iff.mp h
  split at h
  · cases h
  · cases h
    intro doc hdoc
    obtain ⟨element, -, rfl⟩ := List.mem_map.mp hdoc
    exact SchemeDocument.textual_ofElement element

/-! ## Lapses -/

/-- The attribute is there but empty. -/
def Attribute.Blank (slot : Attribute) : Prop := slot = some (.text [])

/-- The lapses of an option: a field with an empty group, and a pattern that repeats too
    often. -/
def OptionDocument.Lapse (doc : OptionDocument) : Fault → Prop
  | .wrongType => ∃ fields, doc.fields = some fields ∧ ∃ field ∈ fields, field.seq.Blank
  | .repetitionTooLarge => ∃ text, doc.pattern = some (.text text) ∧
      Pattern.parse text = .error .repetitionTooLarge
  | _ => False

/-- The documents of the rules of one type. -/
def RuleDocument.ofType (type : RuleType) (docs : List RuleDocument) : List RuleDocument :=
  docs.filter (·.ruleType? = some type)

/-- The lapses of a level: those of its options, and several rules of one type, one of
    them with an empty place. -/
def LevelDocument.Lapse (doc : LevelDocument) (fault : Fault) : Prop :=
  (∃ options, doc.options = some options ∧ ∃ option ∈ options, option.Lapse fault) ∨
  fault = .wrongType ∧ ∃ rules, doc.rules = some rules ∧ ∃ type,
    2 ≤ (RuleDocument.ofType type rules).length ∧
      ∃ rule ∈ RuleDocument.ofType type rules, rule.seq.Blank

/-- The lapses of a scheme: those of its levels, and an empty tag length. -/
def SchemeDocument.Lapse (doc : SchemeDocument) (fault : Fault) : Prop :=
  (∃ levels, doc.levels = some levels ∧ ∃ level ∈ levels, level.Lapse fault) ∨
  fault = .wrongType ∧ doc.tagLength.Blank

/-- The error is a definition error, or a fault after a lapse. -/
def Error.Follows (lapse : Fault → Prop) : Error → Prop
  | .definition _ => True
  | .fault cause => lapse cause
  | _ => False

/-- A fault after a lapse of a part is one after a lapse of the whole. -/
theorem Error.Follows.imp {error : Error} {lapse lapse' : Fault → Prop} (h : error.Follows lapse)
    (himp : ∀ fault, lapse fault → lapse' fault) : error.Follows lapse' := by
  cases error with
  | fault cause => exact himp cause h
  | definition cause => exact trivial
  | _ => exact h

/-! ## Attributes -/

section
variable {lapse : Fault → Prop} {error : Error}

theorem Attribute.follows_required {slot : Attribute} {key owner : Text}
    (h : slot.required key owner = .error error) : error.Follows lapse := by
  cases slot <;> cases h
  trivial

theorem Attribute.follows_integer {slot : Attribute} {what : Text}
    (h : slot.integer what = .error error) : error.Follows lapse := by
  unfold integer at h
  split at h
  · cases h
  · cases h
  · cases h
  · split at h <;> cases h
    trivial

/-- What is found in an attribute that must be there is a text. -/
theorem Attribute.Textual.required_eq {slot : Attribute} (h : slot.Textual) {key owner : Text}
    {value : Scalar} (hvalue : slot.required key owner = .ok value) :
    ∃ text, value = .text text :=
  h value (Attribute.required_eq_ok_iff.mp hvalue)

/-- A text has no number only if it is empty. -/
theorem Attribute.Textual.blank_of_integer {slot : Attribute} (h : slot.Textual) {value : Scalar}
    (hslot : slot = some value) {what : Text} (hnone : integer (some value) what = .ok none) :
    slot.Blank := by
  obtain ⟨text, rfl⟩ := h value hslot
  rcases Attribute.integer_eq_ok_none_iff.mp hnone with hvalue | hvalue | hvalue
  · cases hvalue
  · cases hvalue
  · exact hslot.trans hvalue

/-- The text that is found in an attribute can be read. -/
theorem Attribute.Textual.operand_eq {slot : Attribute} (h : slot.Textual) {key owner : Text}
    {value : Scalar} (hvalue : slot.required key owner = .ok value) :
    ∃ text, value.operand = .ok text ∧ value.subject = .ok text := by
  obtain ⟨text, rfl⟩ := h.required_eq hvalue
  exact ⟨text, rfl, rfl⟩

/-! ## Fields and rules -/

theorem FieldDocument.follows_edge {label : Scalar} {slot : Attribute} (hslot : slot.Textual)
    (h : edge label slot = .error error) : error.Follows lapse := by
  unfold edge at h
  split at h
  · cases h
  · cases h
  · next value _ =>
    obtain ⟨text, rfl⟩ := hslot value rfl
    rcases bind_eq_error_iff.mp h with h | ⟨name, -, h⟩
    · cases h
    · split at h <;> cases h
      exact trivial

theorem FieldDocument.follows_method {label : Scalar} {slot : Attribute}
    (h : method label slot = .error error) : error.Follows lapse := by
  unfold method at h
  split at h
  · cases h
  · cases h
  · split at h <;> cases h
    exact trivial

/-- A field of texts is built, or what is wrong with it is reported. -/
theorem FieldDocument.follows_build {doc : FieldDocument} (hdoc : doc.Textual)
    (h : doc.build = .error error) : error.Follows lapse := by
  have hname : doc.name.Textual := hdoc _ (by simp [attributes])
  rcases bind_eq_error_iff.mp h with h | ⟨label, hlabel, h⟩
  · exact Attribute.follows_required h
  rcases bind_eq_error_iff.mp h with h | ⟨_, -, h⟩
  · exact follows_method h
  rcases bind_eq_error_iff.mp h with h | ⟨_, -, h⟩
  · exact follows_edge (hdoc _ (by simp [attributes])) h
  rcases bind_eq_error_iff.mp h with h | ⟨_, -, h⟩
  · exact follows_edge (hdoc _ (by simp [attributes])) h
  rcases bind_eq_error_iff.mp h with h | ⟨_, -, h⟩
  · obtain ⟨text, htext, -⟩ := hname.operand_eq hlabel
    rw [htext] at h
    cases h
  rcases bind_eq_error_iff.mp h with h | ⟨_, -, h⟩
  · exact Attribute.follows_required h
  rcases bind_eq_error_iff.mp h with h | ⟨_, -, h⟩
  · exact Attribute.follows_integer h
  rcases bind_eq_error_iff.mp h with h | ⟨_, -, h⟩
  · exact Attribute.follows_integer h
  rcases bind_eq_error_iff.mp h with h | ⟨_, -, h⟩
  · exact Attribute.follows_integer h
  cases h

theorem RuleCall.follows_parse {text : Text} (h : RuleCall.parse text = .error error) :
    error.Follows lapse := by
  unfold RuleCall.parse at h
  split at h
  · cases h
    exact trivial
  · dsimp only at h
    split at h
    · cases h
      exact trivial
    · split at h <;> cases h
      exact trivial

/-- A rule of texts is built, or what is wrong with it is reported. -/
theorem RuleDocument.follows_build {doc : RuleDocument} (hdoc : doc.Textual)
    (h : doc.build = .error error) : error.Follows lapse := by
  rcases bind_eq_error_iff.mp h with h | ⟨_, hfunction, h⟩
  · exact Attribute.follows_required h
  rcases bind_eq_error_iff.mp h with h | ⟨_, -, h⟩
  · obtain ⟨text, htext, -⟩ :=
      Attribute.Textual.operand_eq (hdoc _ (by simp [attributes])) hfunction
    rw [htext] at h
    cases h
  rcases bind_eq_error_iff.mp h with h | ⟨_, htype, h⟩
  · exact Attribute.follows_required h
  rcases bind_eq_error_iff.mp h with h | ⟨typeName, -, h⟩
  · obtain ⟨text, -, htext⟩ :=
      Attribute.Textual.operand_eq (hdoc _ (by simp [attributes])) htype
    rw [htext] at h
    cases h
  cases htype : RuleType.ofName? (Text.upper typeName) with
  | none =>
    simp only [htype] at h
    cases h
    exact trivial
  | some type =>
    simp only [htype] at h
    rcases bind_eq_error_iff.mp (h : (Except.ok type).bind _ = _) with h | ⟨_, -, h⟩
    · cases h
    rcases bind_eq_error_iff.mp h with h | ⟨_, -, h⟩
    · exact Attribute.follows_required h
    rcases bind_eq_error_iff.mp h with h | ⟨_, -, h⟩
    · exact Attribute.follows_integer h
    rcases bind_eq_error_iff.mp h with h | ⟨_, -, h⟩
    · exact Attribute.follows_required h
    rcases bind_eq_error_iff.mp h with h | ⟨_, -, h⟩
    · exact RuleCall.follows_parse h
    cases h

end

/-! ## Options -/

section
variable {error : Error} {fault : Fault}

theorem Field.follows_checkGroup {lapse : Fault → Prop} {key : Text} {groups : Nat} {field : Field}
    (hlapse : field.group = none → lapse .wrongType)
    (h : field.checkGroup key groups = .error error) : error.Follows lapse := by
  unfold checkGroup at h
  split at h
  · next hnone =>
    cases h
    exact hlapse hnone
  · split at h <;> cases h
    exact trivial

/-- A field of texts has no group only if the document has an empty one. -/
theorem Field.Built.blank_of_group {doc : FieldDocument} {field : Field} (h : field.Built doc)
    (hdoc : doc.Textual) (hnone : field.group = none) : doc.seq.Blank := by
  obtain ⟨seq, what, hseq, hgroup⟩ := h.group
  have htext : doc.seq.Textual := hdoc _ (by simp [FieldDocument.attributes])
  exact htext.blank_of_integer hseq (hnone ▸ hgroup)

theorem Field.Built.not_blank {doc : FieldDocument} {field : Field} (h : field.Built doc)
    {group : Int} (hsome : field.group = some group) : ¬ doc.seq.Blank := by
  intro hblank
  obtain ⟨seq, what, hseq, hgroup⟩ := h.group
  cases hseq.symm.trans hblank
  rw [hsome] at hgroup
  cases hgroup

/-- An option of texts is built, or what is wrong with it is reported, or it has a lapse. -/
theorem OptionDocument.follows_build {doc : OptionDocument} (hdoc : doc.Textual)
    (h : doc.build = .error error) : error.Follows doc.Lapse := by
  obtain ⟨fieldDocs, hfields, htextual⟩ := hdoc.fields
  have hpattern : doc.pattern.Textual := hdoc.attributes _ (by simp)
  rcases bind_eq_error_iff.mp h with h | ⟨_, -, h⟩
  · exact Attribute.follows_required h
  rcases bind_eq_error_iff.mp h with h | ⟨_, hslot, h⟩
  · exact Attribute.follows_required h
  obtain ⟨text, rfl⟩ := hpattern.required_eq hslot
  rw [Attribute.required_eq_ok_iff] at hslot
  rcases bind_eq_error_iff.mp h with h | ⟨_, -, h⟩
  · exact Attribute.follows_required h
  rw [hfields] at h
  rcases bind_eq_error_iff.mp h with h | ⟨_, hdocs, h⟩
  · cases h
  cases hdocs
  rcases bind_eq_error_iff.mp h with h | ⟨fields, hbuilt, h⟩
  · obtain ⟨field, hfield, h⟩ := exists_error_of_mapM h
    exact FieldDocument.follows_build (htextual field hfield) h
  rcases bind_eq_error_iff.mp h with h | ⟨_, htext, h⟩
  · cases h
  cases htext
  rcases bind_eq_error_iff.mp h with h | ⟨_, -, h⟩
  · unfold readPattern at h
    split at h <;> cases h
    · exact trivial
    · exact ⟨text, hslot, ‹_›⟩
  rcases bind_eq_error_iff.mp h with h | ⟨_, -, h⟩
  · obtain ⟨field, hfield, h⟩ := exists_error_of_forM h
    obtain ⟨fieldDoc, hfieldDoc, hbuild⟩ := exists_of_mem_mapM hbuilt hfield
    exact Field.follows_checkGroup (fun hnone => ⟨fieldDocs, hfields, fieldDoc, hfieldDoc,
      (Field.built_of_build hbuild).blank_of_group (htextual fieldDoc hfieldDoc) hnone⟩) h
  cases h

/-- An option that is built has no lapse. -/
theorem LevelOption.Built.not_lapse {doc : OptionDocument} {option : LevelOption}
    (h : option.Built doc) : ¬ doc.Lapse fault := by
  intro hlapse
  cases fault with
  | wrongType =>
    obtain ⟨fieldDocs, hfields, fieldDoc, hfieldDoc, hblank⟩ := hlapse
    obtain ⟨built, hdocs, hbuilt⟩ := h.fields
    cases hdocs.symm.trans hfields
    obtain ⟨field, hfield, hbuild⟩ := exists_build_of_mem hbuilt hfieldDoc
    obtain ⟨group, hgroup, -⟩ := h.groups field hfield
    exact (Field.built_of_build hbuild).not_blank hgroup hblank
  | repetitionTooLarge =>
    obtain ⟨text, hpattern, hparse⟩ := hlapse
    cases h.pattern.1.symm.trans hpattern
    cases h.pattern.2.symm.trans hparse
  | _ => exact hlapse

/-! ## Levels -/

/-- The rules of a type are built from the documents of that type. -/
theorem RuleDocument.forall₂_ofType {docs : List RuleDocument} {rules : List Rule}
    (h : docs.mapM RuleDocument.build = .ok rules) (type : RuleType) :
    List.Forall₂ (fun doc rule => rule.Built doc) (RuleDocument.ofType type docs)
      (rules.filter (·.type = type)) := by
  have hbuilt : List.Forall₂ (fun doc rule => Rule.Built doc rule) docs rules :=
    (forall₂_of_mapM h).imp fun _ _ hbuild => Rule.built_of_build hbuild
  refine List.rel_filter (fun doc rule hrule => ?_) hbuilt
  simp [hrule.type]

/-- A rule of texts has no place exactly if the document has an empty one. -/
theorem Rule.Built.sequence_eq_none_iff {doc : RuleDocument} {rule : Rule} (h : rule.Built doc)
    (hdoc : doc.Textual) : rule.sequence = none ↔ doc.seq.Blank := by
  obtain ⟨seq, what, hseq, hsequence⟩ := h.sequence
  have htext : doc.seq.Textual := hdoc _ (by simp [RuleDocument.attributes])
  constructor
  · intro hnone
    exact htext.blank_of_integer hseq (hnone ▸ hsequence)
  · intro hblank
    cases hseq.symm.trans hblank
    exact (Except.ok.inj hsequence).symm

/-- Rules of texts cannot be put in order exactly if there are several and one has an
    empty place. -/
theorem Rules.not_placed_iff {docs : List RuleDocument} {rules : List Rule}
    (h : List.Forall₂ (fun doc rule => Rule.Built doc rule) docs rules)
    (hdocs : ∀ doc ∈ docs, doc.Textual) :
    ¬ Placed rules ↔ 2 ≤ docs.length ∧ ∃ doc ∈ docs, doc.seq.Blank := by
  simp only [Placed, h.length_eq, Classical.not_imp, not_forall, not_not]
  refine and_congr_right fun _ => ⟨?_, ?_⟩
  · rintro ⟨rule, hrule, hnone⟩
    obtain ⟨doc, hdoc, hbuilt⟩ := exists_left_of_mem h hrule
    exact ⟨doc, hdoc, (hbuilt.sequence_eq_none_iff (hdocs doc hdoc)).mp hnone⟩
  · rintro ⟨doc, hdoc, hblank⟩
    obtain ⟨rule, hrule, hbuilt⟩ := exists_right_of_mem h hdoc
    exact ⟨rule, hrule, (hbuilt.sequence_eq_none_iff (hdocs doc hdoc)).mpr hblank⟩

theorem Rules.eq_of_ofType_error {type : RuleType} {rules : List Rule}
    (h : Rules.ofType type rules = .error error) :
    error = .fault .wrongType ∧ ¬ Placed (rules.filter (·.type = type)) := by
  by_cases hplaced : Placed (rules.filter (·.type = type))
  · rw [ofType_of_placed hplaced] at h
    cases h
  · rw [ofType_of_not_placed hplaced] at h
    cases h
    exact ⟨rfl, hplaced⟩

theorem Level.follows_assemble {lapse : Fault → Prop} {typeName : Text} {start : Scalar}
    {options : List LevelOption} {rules : List Rule}
    (hlapse : ∀ type, ¬ Rules.Placed (rules.filter (·.type = type)) → lapse .wrongType)
    (h : Level.assemble typeName start options rules = .error error) : error.Follows lapse := by
  unfold assemble at h
  cases htype : LevelType.ofName? typeName with
  | none =>
    rw [htype] at h
    cases h
    exact trivial
  | some type =>
    rw [htype] at h
    rcases bind_eq_error_iff.mp (h : (Except.ok type).bind _ = _) with h | ⟨_, -, h⟩
    · cases h
    split at h
    · cases h
      exact trivial
    rcases bind_eq_error_iff.mp h with h | ⟨_, -, h⟩
    · obtain ⟨rfl, hplaced⟩ := Rules.eq_of_ofType_error h
      exact hlapse _ hplaced
    rcases bind_eq_error_iff.mp h with h | ⟨_, -, h⟩
    · obtain ⟨rfl, hplaced⟩ := Rules.eq_of_ofType_error h
      exact hlapse _ hplaced
    cases h

/-- A level of texts is built, or what is wrong with it is reported, or it has a lapse. -/
theorem LevelDocument.follows_build {doc : LevelDocument} (hdoc : doc.Textual)
    (h : doc.build = .error error) : error.Follows doc.Lapse := by
  obtain ⟨optionDocs, hoptions, hoptionTexts⟩ := hdoc.options
  obtain ⟨ruleDocs, hrules, hruleTexts⟩ := hdoc.rules
  have htypeText : doc.type.Textual := hdoc.attributes _ (by simp)
  rcases bind_eq_error_iff.mp h with h | ⟨_, htype, h⟩
  · exact Attribute.follows_required h
  rcases bind_eq_error_iff.mp h with h | ⟨typeName, -, h⟩
  · obtain ⟨text, -, htext⟩ := htypeText.operand_eq htype
    rw [htext] at h
    cases h
  rw [hoptions] at h
  rcases bind_eq_error_iff.mp h with h | ⟨_, hdocs, h⟩
  · cases h
  cases hdocs
  rcases bind_eq_error_iff.mp h with h | ⟨options, -, h⟩
  · obtain ⟨option, hoption, h⟩ := exists_error_of_mapM h
    exact (OptionDocument.follows_build (hoptionTexts option hoption) h).imp
      fun _ hlapse => .inl ⟨optionDocs, hoptions, option, hoption, hlapse⟩
  rw [hrules] at h
  rcases bind_eq_error_iff.mp h with h | ⟨_, hdocs, h⟩
  · cases h
  cases hdocs
  rcases bind_eq_error_iff.mp h with h | ⟨rules, hbuilt, h⟩
  · obtain ⟨rule, hrule, h⟩ := exists_error_of_mapM h
    exact RuleDocument.follows_build (hruleTexts rule hrule) h
  refine Level.follows_assemble (fun type hplaced => .inr ⟨rfl, ruleDocs, hrules, type, ?_⟩) h
  exact (Rules.not_placed_iff (RuleDocument.forall₂_ofType hbuilt type)
    fun rule hrule => hruleTexts rule (List.mem_of_mem_filter hrule)).mp hplaced

/-- A level of texts that is built has no lapse. -/
theorem Level.Built.not_lapse {doc : LevelDocument} {level : Level} (h : level.Built doc)
    (hdoc : doc.Textual) : ¬ doc.Lapse fault := by
  rintro (⟨optionDocs, hoptions, option, hoption, hlapse⟩ | ⟨-, ruleDocs, hrules, type, hlapse⟩)
  · obtain ⟨docs, hdocs, hbuilt⟩ := h.options
    cases hdocs.symm.trans hoptions
    obtain ⟨built, -, hbuild⟩ := exists_build_of_mem hbuilt hoption
    exact (LevelOption.built_of_build hbuild).not_lapse hlapse
  · obtain ⟨docs, rules, hdocs, hbuilt, hextract, hformat⟩ := h.rules
    cases hdocs.symm.trans hrules
    obtain ⟨docs, hdocs, htexts⟩ := hdoc.rules
    cases hdocs.symm.trans hrules
    have hplaced : Rules.Placed (rules.filter (·.type = type)) := by
      cases type with
      | extract => exact (Rules.ofType_eq_ok_iff.mp hextract).1
      | format => exact (Rules.ofType_eq_ok_iff.mp hformat).1
    exact (Rules.not_placed_iff (RuleDocument.forall₂_ofType hbuilt type)
      fun rule hrule => htexts rule (List.mem_of_mem_filter hrule)).mpr hlapse hplaced

/-! ## Schemes -/

/-- A scheme of texts is built, or what is wrong with it is reported, or it has a lapse. -/
theorem SchemeDocument.follows_build {doc : SchemeDocument} (hdoc : doc.Textual)
    (h : doc.build = .error error) : error.Follows doc.Lapse := by
  obtain ⟨levelDocs, hlevels, hlevelTexts⟩ := hdoc.levels
  have hnameText : doc.name.Textual := hdoc.attributes _ (by simp)
  have hlengthText : doc.tagLength.Textual := hdoc.attributes _ (by simp)
  rcases bind_eq_error_iff.mp h with h | ⟨_, hname, h⟩
  · exact Attribute.follows_required h
  rcases bind_eq_error_iff.mp h with h | ⟨name, -, h⟩
  · obtain ⟨text, htext, -⟩ := hnameText.operand_eq hname
    rw [htext] at h
    cases h
  rcases bind_eq_error_iff.mp h with h | ⟨_, hlength, h⟩
  · exact Attribute.follows_required h
  rcases bind_eq_error_iff.mp h with h | ⟨length, hinteger, h⟩
  · exact Attribute.follows_integer h
  rcases bind_eq_error_iff.mp h with h | ⟨_, -, h⟩
  · exact Attribute.follows_required h
  rw [hlevels] at h
  rcases bind_eq_error_iff.mp h with h | ⟨_, hdocs, h⟩
  · cases h
  cases hdocs
  rcases bind_eq_error_iff.mp h with h | ⟨levels, -, h⟩
  · obtain ⟨level, hlevel, h⟩ := exists_error_of_mapM h
    exact (LevelDocument.follows_build (hlevelTexts level hlevel) h).imp
      fun _ hlapse => .inl ⟨levelDocs, hlevels, level, hlevel, hlapse⟩
  unfold Scheme.assemble at h
  split at h
  · cases h
    exact .inr ⟨rfl, hlengthText.blank_of_integer (Attribute.required_eq_ok_iff.mp hlength) hinteger⟩
  · split at h <;> cases h
    exact trivial

/-- A scheme of texts that is built has no lapse. -/
theorem Scheme.Built.not_lapse {doc : SchemeDocument} {scheme : Scheme} (h : scheme.Built doc)
    (hdoc : doc.Textual) : ¬ doc.Lapse fault := by
  rintro (⟨levelDocs, hlevels, level, hlevel, hlapse⟩ | ⟨-, hblank⟩)
  · obtain ⟨docs, hdocs, hbuilt⟩ := h.levels
    cases hdocs.symm.trans hlevels
    obtain ⟨docs, hdocs, htexts⟩ := hdoc.levels
    cases hdocs.symm.trans hlevels
    obtain ⟨built, -, hbuild⟩ := exists_build_of_mem hbuilt hlevel
    exact (Level.built_of_build hbuild).not_lapse (htexts level hlevel) hlapse
  · have hlength := h.tagLength
    have hnone : (Attribute.value (some (.text []))).integer? = none := by decide
    rw [hblank, hnone] at hlength
    cases hlength

end

/-- A definition file: the second scheme has a field with an empty group. -/
def blankGroup : Xml.Source where
  name := "blank.xml"
  document := Text.join ["<schemes><scheme name=\"A\" tagLength=\"96\" optionKey=\"k\"/>",
    "<scheme name=\"B\" tagLength=\"96\" optionKey=\"k\"><level type=\"BINARY\">",
    "<option optionKey=\"1\" pattern=\"^(0)\" grammar=\"f\"><field name=\"f\" seq=\"\"/></option>",
    "</level></scheme></schemes>"]

/-- The documents of that file. -/
def blankGroupDocuments : List SchemeDocument :=
  [{ name := .text "A", tagLength := .text "96", optionKey := .text "k" },
   { name := .text "B", tagLength := .text "96", optionKey := .text "k"
     levels := some [{
       type := .text "BINARY"
       options := some [{
         optionKey := .text "1", pattern := .text "^(0)", grammar := .text "f"
         fields := some [{ name := .text "f", seq := .text [] }] }] }] }]

theorem parse_blankGroup : SchemeDocument.parse blankGroup = .ok blankGroupDocuments := by
  decide +kernel

/-- A definition file with an empty tag length. -/
def blankLength : Xml.Source where
  name := "blank.xml"
  document := "<scheme name=\"B\" tagLength=\"\" optionKey=\"k\"/>"

/-- The document of that file. -/
def blankLengthDocuments : List SchemeDocument :=
  [{ name := .text "B", tagLength := .text [], optionKey := .text "k" }]

end EpcTag
