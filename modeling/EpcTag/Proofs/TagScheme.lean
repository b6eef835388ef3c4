-- SUMMARY: Schemes given by their parts and templates: what their levels read and write.
import EpcTag.Scheme.Document
import EpcTag.Proofs.Conversion
import EpcTag.Proofs.Rules
import EpcTag.Proofs.TagFields
import EpcTag.Proofs.UriEscape

/-!
# Schemes of tags

All built-in schemes have one form. A level has an option for each place, with a
template and fields, and assignments in place of rules. The parts of a place are
the fields of a tag: the binary level and the tag URI hold all of them, and the
pure identity URI all but the first ones, which only concern the tag. What is read
at one of these levels is what is written at another one.
-/

namespace EpcTag

/-! ## Templates -/

/-- The template of fields that are separated by points. -/
def Template.dotted : List Part → Template
  | [] => []
  | [part] => [.field part.name part.slot]
  | part :: rest => .field part.name part.slot :: .literal ['.'] :: Template.dotted rest

/-- The template starts with a literal that starts with a text. -/
def Template.opens (start : Text) : Template → Bool
  | .literal text :: _ => start.isPrefixOf text
  | _ => false

theorem Template.isPrefixOf_text_of_opens {start : Text} {template : Template}
    (h : template.opens start = true) (values : List Text) :
    start.isPrefixOf (template.text values) = true := by
  unfold opens at h
  split at h
  · next text rest =>
    rw [text_literal]
    rw [List.isPrefixOf_iff_prefix] at h ⊢
    exact h.trans (List.prefix_append _ _)
  · cases h

/-- Bits that a template reads are what it writes. -/
theorem Template.text_of_read?_digits {template : Template} (hsep : template.separated = true)
    {bits : Text} (hbits : Numeral.Digits 2 bits) {captures : List Text}
    (h : template.read? bits = some captures) :
    List.Forall₂ Slot.Fits template.slots captures ∧ bits = template.text captures := by
  obtain ⟨hfits, ending, hending, heq⟩ := (read?_eq_some_iff hsep).mp h
  -- a line end is no bit
  obtain rfl : ending = [] := by
    rcases hending with rfl | rfl
    · rfl
    · rw [heq] at hbits
      exact absurd (hbits '\n' (by simp)) (by decide)
  rw [List.append_nil] at heq
  exact ⟨hfits, heq⟩

/-! ## Levels -/

/-- A level with one option for each place. -/
structure LevelForm (Place : Type) where
  type : LevelType
  start : Scalar
  template : Place → Template
  /-- The document of the option, for its texts. -/
  doc : Place → OptionDocument
  fields : Place → List Field
  extract : List Assignment := []
  format : List Assignment := []

namespace LevelForm

variable {Place : Type}

/-- The option of a place. -/
def option (side : LevelForm Place) (key : Place → Text) (place : Place) : LevelOption where
  key := key place
  patternText := (side.doc place).pattern.value.shown
  pattern := (side.template place).pattern
  grammar := (side.doc place).grammar.value
  fields := side.fields place

/-- The level with the options of the given places. -/
def level (side : LevelForm Place) (places : List Place) (key : Place → Text) : Level where
  type := side.type
  start := side.start
  options := places.map (side.option key)
  extractRules := Rules.numbered .extract 1 side.extract
  formatRules := Rules.numbered .format 1 side.format

/-- All values of a place start with the prefix of the level. It tells apart URIs, whose
    escapes are undone, and other values. -/
def opens (side : LevelForm Place) (place : Place) : Bool :=
  match side.start with
  | .text start => (side.template place).opens start &&
    if side.type.isUri then Engine.uriStart.isPrefixOf start else start.head?.any (· ≠ 'u')
  | _ => false

/-- What is written for the values of a place. -/
def text (side : LevelForm Place) (place : Place) (values : List Text) : Text :=
  if side.type.isUri then UriEscape.escape ((side.template place).text values)
  else (side.template place).text values

/-- The values of a level start with its prefix, and they are matched as the texts of its
    templates. -/
theorem opens_cases {side : LevelForm Place} {place : Place} (hopens : side.opens place = true)
    (values : List Text) :
    ∃ start, side.start = .text start ∧
      start.isPrefixOf ((side.template place).text values) = true ∧
      Engine.plainValue (side.text place values) = (side.template place).text values := by
  rw [opens] at hopens
  split at hopens
  · next start hstart =>
    rw [Bool.and_eq_true] at hopens
    obtain ⟨hopens, hkind⟩ := hopens
    have hprefix := Template.isPrefixOf_text_of_opens hopens values
    refine ⟨start, hstart, hprefix, ?_⟩
    rw [text]
    split
    · next huri =>
      rw [if_pos huri, List.isPrefixOf_iff_prefix] at hkind
      rw [List.isPrefixOf_iff_prefix] at hprefix
      exact Engine.plainValue_escape (List.isPrefixOf_iff_prefix.mpr (hkind.trans hprefix))
    · next huri =>
      rw [if_neg huri] at hkind
      -- a value that is not a URI is told by its first character
      refine Engine.plainValue_of_head? ?_
      obtain ⟨rest, hrest⟩ := List.isPrefixOf_iff_prefix.mp hprefix
      cases start with
      | nil => cases hkind
      | cons c start =>
        rw [← hrest]
        simpa using hkind
  · cases hopens

end LevelForm

/-! ## Schemes -/

/-- A level is found by its type, if no other level has this type. -/
theorem Scheme.level?_eq_of_mem {scheme : Scheme} (htypes : (scheme.levels.map Level.type).Nodup)
    {level : Level} (hlevel : level ∈ scheme.levels) : scheme.level? level.type = some level := by
  have hfound := find?_eq_of_nodup_map htypes hlevel
  have hsame : (fun other : Level => other.type == level.type) =
      fun other => decide (other.type = level.type) := by
    funext other
    rw [Bool.eq_iff_iff]
    simp
  rwa [hsame] at hfound

/-- A scheme of tags with one option for each place. -/
structure TagForm (Place : Type) where
  name : Text
  tagLength : Nat
  optionKey : Text
  places : List Place
  key : Place → Text
  parts : Place → List Part
  /-- The number of the first parts that only concern the tag. -/
  tagOnly : Nat
  binary : LevelForm Place
  tag : LevelForm Place
  identity : LevelForm Place
  others : List (LevelForm Place)

namespace TagForm

variable {Place : Type}

/-- All levels. -/
def sides (form : TagForm Place) : List (LevelForm Place) :=
  [form.binary, form.tag, form.identity] ++ form.others

/-- The parts that are in a pure identity URI. -/
def identityParts (form : TagForm Place) (place : Place) : List Part :=
  (form.parts place).drop form.tagOnly

/-- The level of a side. -/
def level (form : TagForm Place) (side : LevelForm Place) : Level :=
  side.level form.places form.key

def scheme (form : TagForm Place) : Scheme where
  name := form.name
  tagLength := form.tagLength
  optionKey := .text form.optionKey
  levels := form.sides.map form.level

/-- What the data of a form must satisfy for its levels to be read and written. -/
@[mk_iff]
structure Lawful (form : TagForm Place) : Prop where
  types : form.sides.map LevelForm.type = [.binary, .tagEncoding, .pureIdentity, .legacy] ∨
    form.sides.map LevelForm.type = [.binary, .tagEncoding, .pureIdentity, .legacy, .onsHostname]
  keys : (form.places.map form.key).Nodup
  follows : ∀ side ∈ form.sides, ∀ place ∈ form.places,
    (side.option form.key place).Follows (side.template place)
  opens : ∀ side ∈ form.sides, side.type ≠ .onsHostname → ∀ place ∈ form.places,
    side.opens place = true
  plain : ∀ side ∈ form.sides, side.type.isUri = true → ∀ place ∈ form.places,
    (side.template place).PlainLiterals
  clashes : ∀ side ∈ [form.binary, form.tag, form.identity],
    side.extract = [] ∧ side.format = [] ∧ ∀ place ∈ form.places, ∀ other ∈ form.places,
      form.key other ≠ form.key place →
        (side.template place).clash (side.template other) = true
  fields : ∀ place ∈ form.places,
    form.binary.fields place = Part.binaryFields 1 (form.parts place) ∧
    form.tag.fields place = Part.textFields 1 (form.parts place) ∧
    form.identity.fields place = Part.textFields 1 (form.identityParts place)
  slots : ∀ place ∈ form.places,
    (form.binary.template place).slots = (form.parts place).map (fun part => part.coding.bitSlot) ∧
    (form.tag.template place).slots = (form.parts place).map Part.slot ∧
    (form.identity.template place).slots = (form.identityParts place).map Part.slot
  widths : ∀ place ∈ form.places, ∀ part ∈ form.parts place, 0 < part.coding.width

instance (form : TagForm Place) : Decidable form.Lawful := decidable_of_iff' _ (lawful_iff form)

/-- What the data of a form must satisfy for its levels to be found and written as texts. -/
@[mk_iff]
structure Written (form : TagForm Place) : Prop where
  types : (form.sides.map LevelForm.type).Nodup
  keys : (form.places.map form.key).Nodup
  follows : ∀ side ∈ form.sides, ∀ place ∈ form.places,
    (side.option form.key place).Follows (side.template place)
  plain : ∀ side ∈ form.sides, side.type.isUri = true → ∀ place ∈ form.places,
    (side.template place).PlainLiterals

instance (form : TagForm Place) : Decidable form.Written :=
  decidable_of_iff' _ (written_iff form)

/-- What the data of a form must satisfy for no value of a level to have two options, and
    for the fields of a value to be all that is read. -/
structure Separates (form : TagForm Place) (side : LevelForm Place) : Prop where
  selfDescribing : side.type.selfDescribing = true
  extract : side.extract = []
  nodup : form.places.Nodup
  follows : ∀ place ∈ form.places, (side.option form.key place).Follows (side.template place)
  clashes : ∀ place ∈ form.places, ∀ other ∈ form.places, other ≠ place →
    (side.template place).clash (side.template other) = true

variable {form : TagForm Place} {side : LevelForm Place} {place : Place}

namespace Written

/-- The level of a type is that of its side. -/
theorem level?_eq (h : form.Written) (side : LevelForm Place) (hside : side ∈ form.sides) :
    form.scheme.level? side.type = some (form.level side) := by
  have hmem : form.level side ∈ form.sides.map form.level := List.mem_map_of_mem hside
  have htypes : ((form.sides.map form.level).map Level.type).Nodup := by
    rw [List.map_map]
    exact h.types
  exact @Scheme.level?_eq_of_mem form.scheme htypes _ hmem

theorem option?_eq (h : form.Written) (side : LevelForm Place) (hplace : place ∈ form.places) :
    (form.level side).option? (form.key place) = some (side.option form.key place) :=
  @Engine.option?_of_place Place form.places (side.option form.key) (form.level side) place rfl
    h.keys hplace

theorem outputOption_eq (h : form.Written) (side : LevelForm Place) (hside : side ∈ form.sides)
    (hplace : place ∈ form.places) :
    Engine.outputOption form.scheme side.type.name (form.key place) =
      .ok (form.level side, side.option form.key place) := by
  rw [Engine.outputOption, Scheme.levelNamed?, LevelType.ofName?_name]
  simp only [Option.bind_some, h.level?_eq side hside, h.option?_eq side hplace]

theorem tagOption?_eq (h : form.Written) (htag : form.tag.type = .tagEncoding)
    (hplace : place ∈ form.places) :
    form.scheme.tagOption? (form.key place) = some (form.tag.option form.key place) := by
  have hlevel := h.level?_eq form.tag (by simp [sides])
  rw [htag] at hlevel
  rw [Scheme.tagOption?, hlevel]
  exact h.option?_eq form.tag hplace

theorem names_nodup (h : form.Written)
    (hfields : form.tag.fields place = Part.textFields 1 (form.parts place))
    (hplace : place ∈ form.places) : ((form.parts place).map Part.name).Nodup := by
  have hfollows := h.follows form.tag (by simp [sides]) place hplace
  have hfields : (form.tag.option form.key place).fields = Part.textFields 1 (form.parts place) :=
    hfields
  rw [← Part.names_textFields 1, ← hfields, hfollows.names_eq]
  exact hfollows.nodup

/-- The tag option has a field for every part. -/
theorem inTag (h : form.Written) (htag : form.tag.type = .tagEncoding)
    (hfields : form.tag.fields place = Part.textFields 1 (form.parts place))
    (hplace : place ∈ form.places) :
    Part.InTag (form.scheme.tagOption? (form.key place)) (form.parts place) := by
  rw [h.tagOption?_eq htag hplace]
  exact Part.inTag_of_fields hfields (h.names_nodup hfields hplace)

/-- A level holds its values escaped or as they are. -/
theorem text_eq (h : form.Written) (side : LevelForm Place) (hside : side ∈ form.sides)
    (hplace : place ∈ form.places) (values : List Text) :
    (side.template place).text (values.map (Grammar.rendered side.type.name)) =
      side.text place values := by
  have hescaped : Grammar.isEscapedAt side.type.name = side.type.isUri := by
    rw [Grammar.isEscapedAt, LevelType.ofName?_name]
  rw [LevelForm.text]
  split
  · next huri =>
    have hrendered : Grammar.rendered side.type.name = UriEscape.escape := by
      funext value
      rw [Grammar.rendered, hescaped, if_pos huri]
    rw [hrendered]
    exact Template.text_map_escape (h.plain side hside huri place hplace) values
  · next huri =>
    have hrendered : Grammar.rendered side.type.name = id := by
      funext value
      rw [Grammar.rendered, hescaped, if_neg huri, id]
    rw [hrendered, List.map_id]

end Written

namespace Lawful

theorem types_nodup (h : form.Lawful) : (form.sides.map LevelForm.type).Nodup := by
  rcases h.types with h | h <;> rw [h] <;> decide

theorem type_eq (h : form.Lawful) :
    form.binary.type = .binary ∧ form.tag.type = .tagEncoding ∧
      form.identity.type = .pureIdentity := by
  rcases h.types with h | h
  · simp only [sides, List.cons_append, List.nil_append, List.map_cons, List.cons.injEq] at h
    exact ⟨h.1, h.2.1, h.2.2.1⟩
  · simp only [sides, List.cons_append, List.nil_append, List.map_cons, List.cons.injEq] at h
    exact ⟨h.1, h.2.1, h.2.2.1⟩

theorem places_nodup (h : form.Lawful) : form.places.Nodup := h.keys.of_map _

theorem written (h : form.Lawful) : form.Written where
  types := h.types_nodup
  keys := h.keys
  follows := h.follows
  plain := h.plain

theorem tagOption?_eq (h : form.Lawful) (hplace : place ∈ form.places) :
    form.scheme.tagOption? (form.key place) = some (form.tag.option form.key place) :=
  h.written.tagOption?_eq h.type_eq.2.1 hplace

theorem names_nodup (h : form.Lawful) (hplace : place ∈ form.places) :
    ((form.parts place).map Part.name).Nodup :=
  h.written.names_nodup (h.fields place hplace).2.1 hplace

/-- The tag option has a field for every part. -/
theorem inTag (h : form.Lawful) (hplace : place ∈ form.places) :
    Part.InTag (form.scheme.tagOption? (form.key place)) (form.parts place) :=
  h.written.inTag h.type_eq.2.1 (h.fields place hplace).2.1 hplace

theorem binary_names (h : form.Lawful) (hplace : place ∈ form.places) :
    (form.binary.template place).names = (form.parts place).map Part.name := by
  rw [← (h.follows form.binary (by simp [sides]) place hplace).names_eq]
  exact (congrArg (List.map Field.name) (h.fields place hplace).1).trans
    (Part.names_binaryFields 1 _)

theorem tag_names (h : form.Lawful) (hplace : place ∈ form.places) :
    (form.tag.template place).names = (form.parts place).map Part.name := by
  rw [← (h.follows form.tag (by simp [sides]) place hplace).names_eq]
  exact (congrArg (List.map Field.name) (h.fields place hplace).2.1).trans
    (Part.names_textFields 1 _)

theorem identity_names (h : form.Lawful) (hplace : place ∈ form.places) :
    (form.identity.template place).names = (form.identityParts place).map Part.name := by
  rw [← (h.follows form.identity (by simp [sides]) place hplace).names_eq]
  exact (congrArg (List.map Field.name) (h.fields place hplace).2.2).trans
    (Part.names_textFields 1 _)

/-- Bits need no escapes. -/
theorem binary_text (h : form.Lawful) (place : Place) (bits : List Text) :
    form.binary.text place bits = (form.binary.template place).text bits := by
  rw [LevelForm.text, h.type_eq.1]
  rfl

end Lawful

/-! ## Resolution -/

variable {engine : Engine} {hint : Scalar} {params : Params}

theorem mem_allEntries {schemes : List Scheme} (hscheme : form.scheme ∈ schemes)
    (hside : side ∈ form.sides) {start : Text} (hstart : side.start = .text start) :
    (start, ⟨form.scheme, form.level side⟩) ∈ LevelIndex.allEntries schemes :=
  LevelIndex.mem_allEntries_iff.mpr ⟨hscheme, List.mem_map_of_mem hside, hstart⟩

/-- A level is known by its type. -/
theorem level_eq_of_type (htypes : (form.sides.map LevelForm.type).Nodup)
    (hside : side ∈ form.sides) {level : Level} (hlevel : level ∈ form.scheme.levels)
    (htype : level.type = side.type) : level = form.level side := by
  obtain ⟨other, hother, rfl⟩ := List.mem_map.mp hlevel
  exact congrArg form.level (List.inj_on_of_nodup_map htypes hother hside htype)

/-- A value of a level is resolved to it if its tag length is asked for. -/
theorem Lawful.resolve_tagLength (h : form.Lawful)
    (hdistinct : LevelIndex.Distinct engine.schemes) (hscheme : form.scheme ∈ engine.schemes)
    (hside : side ∈ form.sides) (htype : side.type ≠ .onsHostname) (hplace : place ∈ form.places)
    (values : List Text) (hhint : hint.integer? = some (form.tagLength : Int)) :
    (engine.index.resolve (Engine.plainValue (side.text place values)) hint none).outcome =
      .ok ⟨form.scheme, form.level side⟩ := by
  obtain ⟨start, hstart, hprefix, hplain⟩ :=
    LevelForm.opens_cases (h.opens side hside htype place hplace) values
  rw [hplain, engine.index_eq]
  exact LevelIndex.resolve_of_tagLength hdistinct
    (mem_allEntries hscheme hside hstart) hprefix hhint

/-- A value of a level is resolved to it if no other level has the same prefix. -/
theorem resolve_start (hdistinct : LevelIndex.Distinct engine.schemes)
    (hscheme : form.scheme ∈ engine.schemes) (hside : side ∈ form.sides)
    (hopens : side.opens place = true) (values : List Text) (hhint : LevelIndex.IsHint hint)
    (hcount : ∀ start, side.start = .text start →
      ((LevelIndex.allEntries engine.schemes).map Prod.fst).count start = 1) :
    (engine.index.resolve (Engine.plainValue (side.text place values)) hint none).outcome =
      .ok ⟨form.scheme, form.level side⟩ := by
  obtain ⟨start, hstart, hprefix, hplain⟩ := LevelForm.opens_cases hopens values
  rw [hplain, engine.index_eq]
  exact LevelIndex.resolve_of_start hdistinct hhint (mem_allEntries hscheme hside hstart)
    (hcount start hstart) hprefix

/-! ## Reading -/

/-- The context of the values of a place. -/
def context (form : TagForm Place) (params : Params) (place : Place) (names values : List Text) :
    Context :=
  Engine.fieldContext params form.scheme (form.key place) names values

/-- The context of the texts of some parts holds them. -/
theorem Lawful.holds_context (h : form.Lawful) (hplace : place ∈ form.places) {parts : List Part}
    (hsub : parts.Sublist (form.parts place)) {texts : List Text}
    (hdecode : Part.Decode parts texts) (params : Params) :
    (form.context params place (parts.map Part.name) texts).Holds (parts.map Part.name) texts :=
  Engine.holds_fieldContext _ _ _ ((hsub.map _).nodup (h.names_nodup hplace))
    (by rw [List.length_map, hdecode.length_eq])

/-- Tags, tag URIs and pure identity URIs speak for themselves. -/
theorem Lawful.selfDescribing (h : form.Lawful)
    (hside : side ∈ [form.binary, form.tag, form.identity]) :
    side.type.selfDescribing = true := by
  simp only [List.mem_cons, List.not_mem_nil, or_false] at hside
  obtain ⟨hbinary, htag, hidentity⟩ := h.type_eq
  rcases hside with rfl | rfl | rfl
  · rw [hbinary]; rfl
  · rw [htag]; rfl
  · rw [hidentity]; rfl

/-- No tag, tag URI or pure identity URI has two options. -/
theorem Lawful.separates (h : form.Lawful) (hside : side ∈ [form.binary, form.tag, form.identity]) :
    form.Separates side where
  selfDescribing := h.selfDescribing hside
  extract := (h.clashes side hside).1
  nodup := h.places_nodup
  follows := h.follows side (List.mem_append_left _ hside)
  clashes place hplace other hother hne := (h.clashes side hside).2.2 place hplace other hother
    fun hkey => hne (List.inj_on_of_nodup_map h.keys hother hplace hkey)

namespace Separates

/-- The option of the place whose template reads a value is selected in every context. -/
theorem select_of_read? (h : form.Separates side) (hplace : place ∈ form.places) {value : Text}
    {captures : List Text} (hread : (side.template place).read? value = some captures)
    (context : Context) :
    Engine.select form.scheme (form.level side) value context =
      .ok (side.option form.key place, ⟨Template.captured 1 captures []⟩) :=
  Engine.select_of_read? h.selfDescribing rfl h.follows h.nodup (h.clashes place hplace) hplace
    hread

theorem select_of_unread (h : form.Separates side) {value : Text}
    (hunread : ∀ place ∈ form.places, (side.template place).read? value = none)
    (context : Context) :
    Engine.select form.scheme (form.level side) value context =
      .error (.noMatch (.noOption form.name side.type value)) :=
  Engine.select_of_unread h.selfDescribing rfl h.follows hunread

/-- The option of a value is the same in all contexts. -/
theorem select_congr (h : form.Separates side) (value : Text) (a b : Context) :
    Engine.select form.scheme (form.level side) value a =
      Engine.select form.scheme (form.level side) value b := by
  by_cases hread : ∃ place ∈ form.places, ∃ captures,
      (side.template place).read? value = some captures
  · obtain ⟨place, hplace, captures, hread⟩ := hread
    rw [h.select_of_read? hplace hread, h.select_of_read? hplace hread]
  · have hunread : ∀ place ∈ form.places, (side.template place).read? value = none := by
      intro place hplace
      cases hcaptures : (side.template place).read? value with
      | none => rfl
      | some captures => exact absurd ⟨place, hplace, captures, hcaptures⟩ hread
    rw [h.select_of_unread hunread, h.select_of_unread hunread]

/-- A value that no template of its level reads matches no option. -/
theorem read_of_unread (h : form.Separates side) {value : Text}
    (hunread : ∀ other ∈ form.places,
      (side.template other).read? (Engine.plainValue value) = none)
    (hresolve : (engine.index.resolve (Engine.plainValue value) hint none).outcome =
      .ok ⟨form.scheme, form.level side⟩) :
    engine.read value none hint params =
      .error (.noMatch (.noOption form.name side.type (Engine.plainValue value))) := by
  simp only [Engine.read, hresolve, ok_bind, error_bind, h.select_of_unread hunread]

/-- A value is read by the only option that matches. -/
theorem read_eq_ok_iff_of_read? (h : form.Separates side) (hplace : place ∈ form.places)
    {value : Text} {captures : List Text}
    (hread : (side.template place).read? (Engine.plainValue value) = some captures)
    (hresolve : (engine.index.resolve (Engine.plainValue value) hint none).outcome =
      .ok ⟨form.scheme, form.level side⟩) {reading : Engine.Reading} :
    engine.read value none hint params = .ok reading ↔
      ∃ values, LevelOption.Codes (LevelOption.reading engine.validator (side.type = .binary)
          (form.scheme.tagOption? (form.key place))) (side.fields place) captures values ∧
        reading = ⟨form.scheme, form.key place,
          form.context params place (side.template place).names values⟩ := by
  have hfollows := h.follows place hplace
  obtain ⟨hfits, -⟩ := (Template.read?_eq_some_iff hfollows.separated).mp hread
  have hselect := h.select_of_read? hplace hread (Engine.startContext params form.scheme)
  rw [Engine.read_eq_ok_iff hresolve hselect hfollows (hfollows.length_fields hfits)]
  have hderive (context : Context) :
      (Rules.derive engine.lookup context (form.level side).extractRules).outcome =
        .ok context := by
    change (Rules.derive engine.lookup context (Rules.numbered .extract 1 side.extract)).outcome = _
    rw [h.extract]
    rfl
  constructor
  · rintro ⟨values, context, hvalues, hcontext, rfl⟩
    rw [hderive] at hcontext
    cases hcontext
    exact ⟨values, hvalues, rfl⟩
  · rintro ⟨values, hvalues, rfl⟩
    exact ⟨values, _, hvalues, hderive _, rfl⟩

/-- The text of a template is read by the option of its place. -/
theorem read_eq_ok_iff (h : form.Separates side) (hplace : place ∈ form.places) {value : Text} {captures : List Text}
    (hvalue : Engine.plainValue value = (side.template place).text captures)
    (hfits : List.Forall₂ Slot.Fits (side.template place).slots captures)
    (hresolve : (engine.index.resolve (Engine.plainValue value) hint none).outcome =
      .ok ⟨form.scheme, form.level side⟩) {reading : Engine.Reading} :
    engine.read value none hint params = .ok reading ↔
      ∃ values, LevelOption.Codes (LevelOption.reading engine.validator (side.type = .binary)
          (form.scheme.tagOption? (form.key place))) (side.fields place) captures values ∧
        reading = ⟨form.scheme, form.key place,
          form.context params place (side.template place).names values⟩ :=
  h.read_eq_ok_iff_of_read? hplace
    (hvalue ▸ Template.read?_text (h.follows place hplace).separated hfits) hresolve

end Separates

/-- The bits of admitted texts are read as these. -/
theorem Lawful.read_binary (h : form.Lawful) (hplace : place ∈ form.places) {texts : List Text}
    (hadmits : Part.Admit (form.parts place) texts)
    (hresolve : (engine.index.resolve (Engine.plainValue
      (form.binary.text place (Part.bits (form.parts place) texts))) hint none).outcome =
        .ok ⟨form.scheme, form.level form.binary⟩) :
    engine.read (form.binary.text place (Part.bits (form.parts place) texts)) none hint params =
      .ok ⟨form.scheme, form.key place,
        form.context params place ((form.parts place).map Part.name) texts⟩ := by
  obtain ⟨start, -, -, hplain⟩ := LevelForm.opens_cases
    (h.opens form.binary (by simp [sides]) (by rw [h.type_eq.1]; decide) place hplace)
    (Part.bits (form.parts place) texts)
  have hfits : List.Forall₂ Slot.Fits (form.binary.template place).slots
      (Part.bits (form.parts place) texts) := by
    rw [(h.slots place hplace).1]
    exact Part.fits_bits (h.widths place hplace) hadmits
  refine ((h.separates (by simp)).read_eq_ok_iff hplace hplain hfits hresolve).mpr
    ⟨texts, ?_, ?_⟩
  · rw [(h.fields place hplace).1, h.type_eq.1]
    exact Part.codes_reading 1 (h.inTag hplace) (h.widths place hplace) hadmits
  · rw [h.binary_names hplace]

/-- Admitted texts in a tag URI are read as themselves, if the URI has room for them. -/
theorem Lawful.read_tag (h : form.Lawful) (hplace : place ∈ form.places) {texts : List Text}
    (hadmits : Part.Admit (form.parts place) texts)
    (hfits : List.Forall₂ Slot.Fits ((form.parts place).map Part.slot) texts)
    (hresolve : (engine.index.resolve (Engine.plainValue (form.tag.text place texts)) hint
      none).outcome = .ok ⟨form.scheme, form.level form.tag⟩) :
    engine.read (form.tag.text place texts) none hint params =
      .ok ⟨form.scheme, form.key place,
        form.context params place ((form.parts place).map Part.name) texts⟩ := by
  obtain ⟨start, -, -, hplain⟩ := LevelForm.opens_cases
    (h.opens form.tag (by simp [sides]) (by rw [h.type_eq.2.1]; decide) place hplace) texts
  rw [← (h.slots place hplace).2.1] at hfits
  refine ((h.separates (by simp)).read_eq_ok_iff hplace hplain hfits hresolve).mpr
    ⟨texts, ?_, ?_⟩
  · rw [h.type_eq.2.1]
    refine Part.codes_reading_text (h.inTag hplace) hadmits ?_
    rw [(h.fields place hplace).2.1, Part.names_textFields]
  · rw [h.tag_names hplace]

/-- Admitted texts in a pure identity URI are read as themselves, if the URI has room for
    them. -/
theorem Lawful.read_identity (h : form.Lawful) (hplace : place ∈ form.places)
    {texts : List Text} (hadmits : Part.Admit (form.identityParts place) texts)
    (hfits : List.Forall₂ Slot.Fits ((form.identityParts place).map Part.slot) texts)
    (hresolve : (engine.index.resolve (Engine.plainValue (form.identity.text place texts)) hint
      none).outcome = .ok ⟨form.scheme, form.level form.identity⟩) :
    engine.read (form.identity.text place texts) none hint params =
      .ok ⟨form.scheme, form.key place,
        form.context params place ((form.identityParts place).map Part.name) texts⟩ := by
  obtain ⟨start, -, -, hplain⟩ := LevelForm.opens_cases
    (h.opens form.identity (by simp [sides]) (by rw [h.type_eq.2.2]; decide) place hplace) texts
  rw [← (h.slots place hplace).2.2] at hfits
  have htag : Part.InTag (form.scheme.tagOption? (form.key place)) (form.identityParts place) :=
    fun part hpart => h.inTag hplace part (List.mem_of_mem_drop hpart)
  refine ((h.separates (by simp)).read_eq_ok_iff hplace hplain hfits hresolve).mpr
    ⟨texts, ?_, ?_⟩
  · rw [h.type_eq.2.2]
    refine Part.codes_reading_text htag hadmits ?_
    rw [(h.fields place hplace).2.2, Part.names_textFields]
  · rw [h.identity_names hplace]

/-- What is read at a level is read by the template of a place. -/
theorem exists_read?_of_read {side : LevelForm Place}
    (hfollows : ∀ place ∈ form.places, (side.option form.key place).Follows (side.template place))
    {value : Text} (hresolve : (engine.index.resolve (Engine.plainValue value) hint none).outcome =
      .ok ⟨form.scheme, form.level side⟩)
    {reading : Engine.Reading} (hread : engine.read value none hint params = .ok reading) :
    ∃ place ∈ form.places, ∃ captures,
      (side.template place).read? (Engine.plainValue value) = some captures := by
  have hoptions : (form.level side).options = form.places.map (side.option form.key) := rfl
  obtain ⟨option, found, hselect⟩ := Engine.exists_select_of_read hresolve hread
  obtain ⟨place, hplace, captures, -, -, hcaptures⟩ :=
    Engine.exists_place_of_select hoptions hfollows hselect
  exact ⟨place, hplace, captures, hcaptures⟩

/-- The context of the values that fields are coded to holds them. -/
theorem Written.holds_of_codes (h : form.Written) (hside : side ∈ form.sides)
    (hplace : place ∈ form.places) {code : Field → Text → Except Error Text}
    {captures values : List Text}
    (hcodes : LevelOption.Codes code (side.fields place) captures values) (params : Params) :
    (form.context params place (side.template place).names values).Holds
      ((side.fields place).map Field.name) values := by
  have hfollows := h.follows side hside place hplace
  have hnames : (side.fields place).map Field.name = (side.template place).names :=
    hfollows.names_eq
  have hlen : (side.template place).names.length = values.length := by
    rw [← hnames, List.length_map]
    exact hcodes.length_eq.2
  rw [hnames]
  exact Engine.holds_fieldContext params form.scheme (form.key place) hfollows.nodup hlen

/-- What is read at a level is that of a place: its fields are read one by one, and then the
    extract rules run. -/
theorem Written.exists_of_read (h : form.Written) (hside : side ∈ form.sides) {value : Text}
    {inputLevel : Option Text}
    (hresolve : (engine.index.resolve (Engine.plainValue value) hint inputLevel).outcome =
      .ok ⟨form.scheme, form.level side⟩)
    {reading : Engine.Reading} (hread : engine.read value inputLevel hint params = .ok reading) :
    ∃ place ∈ form.places, ∃ captures values context,
      List.Forall₂ Slot.Fits (side.template place).slots captures ∧
      LevelOption.Codes (LevelOption.reading engine.validator (side.type = .binary)
        (form.scheme.tagOption? (form.key place))) (side.fields place) captures values ∧
      Rules.assign engine.lookup (form.context params place (side.template place).names values)
        side.extract = .ok context ∧
      reading = ⟨form.scheme, form.key place, context⟩ := by
  have hoptions : (form.level side).options = form.places.map (side.option form.key) := rfl
  obtain ⟨option, found, hselect⟩ := Engine.exists_select_of_read hresolve hread
  obtain ⟨place, hplace, captures, rfl, rfl, hcaptures⟩ :=
    Engine.exists_place_of_select hoptions (h.follows side hside) hselect
  have hfollows := h.follows side hside place hplace
  obtain ⟨hfits, -⟩ := (Template.read?_eq_some_iff hfollows.separated).mp hcaptures
  obtain ⟨values, context, hcodes, hderive, rfl⟩ :=
    (Engine.read_eq_ok_iff hresolve hselect hfollows (hfollows.length_fields hfits)).mp hread
  exact ⟨place, hplace, captures, values, context, hfits, hcodes,
    (Rules.derive_numbered _ side.extract).symm.trans hderive, rfl⟩

/-- Bits that are read at a level are those of a place. -/
theorem exists_captures_of_read {side : LevelForm Place}
    (hfollows : ∀ place ∈ form.places, (side.option form.key place).Follows (side.template place))
    {value : Text} (hbits : Numeral.Digits 2 value)
    (hresolve : (engine.index.resolve (Engine.plainValue value) hint none).outcome =
      .ok ⟨form.scheme, form.level side⟩)
    {reading : Engine.Reading} (hread : engine.read value none hint params = .ok reading) :
    ∃ place ∈ form.places, ∃ captures,
      List.Forall₂ Slot.Fits (side.template place).slots captures ∧
        value = (side.template place).text captures := by
  obtain ⟨place, hplace, captures, hcaptures⟩ := exists_read?_of_read hfollows hresolve hread
  rw [Engine.plainValue_of_digits hbits] at hcaptures
  exact ⟨place, hplace, captures,
    Template.text_of_read?_digits (hfollows place hplace).separated hbits hcaptures⟩

/-- Bits that are read are those of a place, and its fields are decoded one by one. -/
theorem Lawful.exists_of_read_binary (h : form.Lawful) {value : Text}
    (hbits : Numeral.Digits 2 value)
    (hresolve : (engine.index.resolve (Engine.plainValue value) hint none).outcome =
      .ok ⟨form.scheme, form.level form.binary⟩)
    {reading : Engine.Reading} (hread : engine.read value none hint params = .ok reading) :
    ∃ place ∈ form.places, ∃ captures texts,
      List.Forall₂ Slot.Fits ((form.parts place).map fun part => part.coding.bitSlot) captures ∧
      value = form.binary.text place captures ∧
      LevelOption.Codes (LevelOption.reading engine.validator true
        (form.scheme.tagOption? (form.key place))) (Part.binaryFields 1 (form.parts place))
          captures texts ∧
      reading = ⟨form.scheme, form.key place,
        form.context params place ((form.parts place).map Part.name) texts⟩ := by
  obtain ⟨place, hplace, captures, hfits, hvalue⟩ :=
    exists_captures_of_read (h.follows form.binary (by simp [sides])) hbits hresolve hread
  obtain ⟨texts, hcodes, hreading⟩ := ((h.separates (by simp)).read_eq_ok_iff hplace
    ((Engine.plainValue_of_digits hbits).trans hvalue) hfits hresolve).mp hread
  rw [(h.fields place hplace).1, h.type_eq.1] at hcodes
  rw [(h.slots place hplace).1] at hfits
  rw [h.binary_names hplace] at hreading
  exact ⟨place, hplace, captures, texts, hfits, hvalue.trans (h.binary_text place captures).symm,
    hcodes, hreading⟩

/-- Bits that a strict engine reads are those of a place, and its fields are decoded to
    texts that have these bits if all of them are admitted. -/
theorem Lawful.of_read_binary (h : form.Lawful) (hstrict : engine.validator.strict = true)
    {value : Text} (hbits : Numeral.Digits 2 value)
    (hresolve : (engine.index.resolve (Engine.plainValue value) hint none).outcome =
      .ok ⟨form.scheme, form.level form.binary⟩)
    {reading : Engine.Reading} (hread : engine.read value none hint params = .ok reading) :
    ∃ place ∈ form.places, ∃ texts, Part.Decode (form.parts place) texts ∧
      (Part.Admit (form.parts place) texts →
        value = form.binary.text place (Part.bits (form.parts place) texts)) ∧
      reading = ⟨form.scheme, form.key place,
        form.context params place ((form.parts place).map Part.name) texts⟩ := by
  obtain ⟨place, hplace, captures, texts, hfits, hvalue, hcodes, hreading⟩ :=
    h.exists_of_read_binary hbits hresolve hread
  obtain ⟨hdecode, hback⟩ := Part.of_codes_reading hstrict (h.inTag hplace)
    (h.widths place hplace) hfits hcodes
  refine ⟨place, hplace, texts, hdecode, fun hadmits => ?_, hreading⟩
  rw [hback hadmits, hvalue]

/-! ## Writing -/

/-- A text is written for the values that the format rules derive, if these pass the
    checks. -/
theorem Written.write_text_iff (h : form.Written) (side : LevelForm Place)
    (hside : side ∈ form.sides) (htype : side.type ≠ .binary) (hplace : place ∈ form.places)
    {context result : Context}
    (hassign : Rules.assign engine.lookup context side.format = .ok result)
    {values : List Text} (hholds : result.Holds (side.template place).names values)
    {text : Text} :
    engine.write ⟨form.scheme, form.key place, context⟩ side.type.name = .ok text ↔
      List.Forall₂ (fun field value =>
        ∃ passed, (engine.validator.checkField field (.text value)).outcome = .ok passed)
        (side.fields place) values ∧ text = side.text place values := by
  have hderive : (Rules.derive engine.lookup context (form.level side).formatRules).outcome =
      .ok result := (Rules.derive_numbered context side.format).trans hassign
  have hname : side.type.name ≠ LevelType.binary.name :=
    fun heq => htype (LevelType.name_injective heq)
  rw [Engine.write_outcome (h.outputOption_eq side hside hplace) hderive,
    Engine.renderOutput_text_iff (h.follows side hside place hplace) hname _ hholds,
    h.text_eq side hside hplace]
  rfl

/-- A text is written only if there are values for all of its fields. -/
theorem Written.exists_of_write (h : form.Written) (side : LevelForm Place)
    (hside : side ∈ form.sides) (htype : side.type ≠ .binary) (hplace : place ∈ form.places)
    {context result : Context}
    (hassign : Rules.assign engine.lookup context side.format = .ok result) {text : Text}
    (hwrite : engine.write ⟨form.scheme, form.key place, context⟩ side.type.name = .ok text) :
    ∀ name ∈ (side.template place).names, ∃ value, result.field? name = some value := by
  have hderive : (Rules.derive engine.lookup context (form.level side).formatRules).outcome =
      .ok result := (Rules.derive_numbered context side.format).trans hassign
  have hname : side.type.name ≠ LevelType.binary.name :=
    fun heq => htype (LevelType.name_injective heq)
  rw [Engine.write_outcome (h.outputOption_eq side hside hplace) hderive] at hwrite
  exact Engine.exists_of_renderOutput_text (h.follows side hside place hplace) hname hwrite

theorem Written.write_text (h : form.Written) (side : LevelForm Place) (hside : side ∈ form.sides)
    (htype : side.type ≠ .binary) (hplace : place ∈ form.places) {context result : Context}
    (hassign : Rules.assign engine.lookup context side.format = .ok result)
    {values : List Text} (hholds : result.Holds (side.template place).names values)
    (hvalues : List.Forall₂ (fun field value =>
      ∃ passed, (engine.validator.checkField field (.text value)).outcome = .ok passed)
      (side.fields place) values) :
    engine.write ⟨form.scheme, form.key place, context⟩ side.type.name =
      .ok (side.text place values) :=
  (h.write_text_iff side hside htype hplace hassign hholds).mpr ⟨hvalues, rfl⟩

/-- The bits that the fields are encoded into are written. -/
theorem Lawful.write_binary_of_codes (h : form.Lawful) (hplace : place ∈ form.places)
    {context : Context} {texts bits : List Text}
    (hholds : context.Holds ((form.parts place).map Part.name) texts)
    (hcodes : LevelOption.Codes (LevelOption.encoding engine.validator
      (form.scheme.tagOption? (form.key place))) (Part.binaryFields 1 (form.parts place)) texts
        bits) :
    engine.write ⟨form.scheme, form.key place, context⟩ LevelType.binary.name =
      .ok (form.binary.text place bits) := by
  have hside : form.binary ∈ form.sides := by simp [sides]
  obtain ⟨-, hformat, -⟩ := h.clashes form.binary (by simp)
  have hderive : (Rules.derive engine.lookup context
      (form.level form.binary).formatRules).outcome = .ok context := by
    change (Rules.derive engine.lookup context
      (Rules.numbered .format 1 form.binary.format)).outcome = _
    rw [hformat]
    rfl
  have houtput := h.written.outputOption_eq form.binary hside hplace
  rw [h.type_eq.1] at houtput
  rw [← (h.fields place hplace).1] at hcodes
  rw [← h.binary_names hplace] at hholds
  rw [Engine.write_outcome houtput hderive,
    Engine.renderOutput_binary (h.follows form.binary hside place hplace) hholds hcodes,
    h.binary_text]

/-- Bits are written for admitted texts. -/
theorem Lawful.write_binary (h : form.Lawful) (hplace : place ∈ form.places)
    {context : Context} {texts : List Text}
    (hholds : context.Holds ((form.parts place).map Part.name) texts)
    (hadmits : Part.Admit (form.parts place) texts) :
    engine.write ⟨form.scheme, form.key place, context⟩ LevelType.binary.name =
      .ok (form.binary.text place (Part.bits (form.parts place) texts)) :=
  h.write_binary_of_codes hplace hholds
    (Part.codes_encoding 1 (h.inTag hplace) (h.widths place hplace) hadmits)

/-- The text of a level without format rules is written for texts that bits of its
    parts decode to. -/
theorem Written.write_parts (h : form.Written) (side : LevelForm Place) (hside : side ∈ form.sides)
    (htype : side.type ≠ .binary) (hformat : side.format = []) (hplace : place ∈ form.places)
    {parts : List Part} (hfields : side.fields place = Part.textFields 1 parts)
    {context : Context} {texts : List Text} (hholds : context.Holds (parts.map Part.name) texts)
    (hdecode : Part.Decode parts texts) :
    engine.write ⟨form.scheme, form.key place, context⟩ side.type.name =
      .ok (side.text place texts) := by
  have hassign : Rules.assign engine.lookup context side.format = .ok context := by
    rw [hformat]
    rfl
  have hnames : (side.template place).names = parts.map Part.name := by
    rw [← (h.follows side hside place hplace).names_eq, ← Part.names_textFields 1, ← hfields]
    rfl
  rw [← hnames] at hholds
  refine h.write_text side hside htype hplace hassign hholds ?_
  rw [hfields]
  exact Part.checkField_texts 1 hdecode

/-- The tag URI is written for texts that bits decode to. -/
theorem Lawful.write_tag (h : form.Lawful) (hplace : place ∈ form.places)
    {context : Context} {texts : List Text}
    (hholds : context.Holds ((form.parts place).map Part.name) texts)
    (hdecode : Part.Decode (form.parts place) texts) :
    engine.write ⟨form.scheme, form.key place, context⟩ LevelType.tagEncoding.name =
      .ok (form.tag.text place texts) := by
  have htype := h.type_eq.2.1
  rw [← htype]
  exact h.written.write_parts form.tag (by simp [sides]) (by rw [htype]; decide)
    (h.clashes form.tag (by simp)).2.1 hplace (h.fields place hplace).2.1 hholds hdecode

/-- The pure identity URI is written for texts that bits decode to. -/
theorem Lawful.write_identity (h : form.Lawful) (hplace : place ∈ form.places)
    {context : Context} {texts : List Text}
    (hholds : context.Holds ((form.identityParts place).map Part.name) texts)
    (hdecode : Part.Decode (form.identityParts place) texts) :
    engine.write ⟨form.scheme, form.key place, context⟩ LevelType.pureIdentity.name =
      .ok (form.identity.text place texts) := by
  have htype := h.type_eq.2.2
  rw [← htype]
  exact h.written.write_parts form.identity (by simp [sides]) (by rw [htype]; decide)
    (h.clashes form.identity (by simp)).2.1 hplace (h.fields place hplace).2.2 hholds hdecode

end TagForm

end EpcTag
