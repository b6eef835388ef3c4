-- SUMMARY: Values whose fields are read as they stand in a text, and tag URIs that are converted to tag URIs.
import EpcTag.Proofs.Dotted
import EpcTag.Proofs.IndexedTags

/-!
# What stands in a text

Nothing is decoded in a tag URI or a pure identity URI: a field has what stands in
the URI for it, if that passes the checks. So what is written at the level at which
a URI was read is the URI again. There is one exception: the pattern of an option
also ends before a line end at the end of a value, and such a line end is lost.
-/

namespace EpcTag

open LevelIndex (allEntries)

/-! ## Characters -/

/-- The line end behind a text without line ends. -/
theorem Text.lineEnd_eq {text ending : Text} (hending : ending = [] ∨ ending = ['\n'])
    (hfree : '\n' ∉ text) :
    ending = if (text ++ ending).getLast? = some '\n' then ['\n'] else [] := by
  rcases hending with rfl | rfl
  · refine (if_neg fun hlast => hfree ?_).symm
    rw [List.append_nil] at hlast
    exact List.mem_of_getLast? hlast
  · exact (if_pos List.getLast?_concat).symm

namespace Slot

/-- Can a text of the slot have a character? -/
def has : Slot → Char → Bool
  | .one class_ | .exactly class_ _ | .between class_ _ _ => class_.has
  | .number => Text.isAsciiDigit

theorem not_mem_of_fits {slot : Slot} {c : Char} (h : slot.has c = false) {text : Text}
    (hfits : slot.Fits text) : c ∉ text := by
  have hall : text.all slot.has = true := by
    cases slot with
    | one class_ => exact hfits.2
    | «exactly» class_ count => exact hfits.2
    | between class_ least most => exact hfits.2
    | number => exact hfits.2
  intro hmem
  rw [List.all_eq_true.mp hall c hmem] at h
  cases h

end Slot

/-- A text of a template has no other characters than its literals and its fields. -/
theorem Template.not_mem_text {template : Template} {c : Char} (hliterals : c ∉ template.literals)
    (hslots : ∀ slot ∈ template.slots, slot.has c = false) {values : List Text}
    (hfits : List.Forall₂ Slot.Fits template.slots values) : c ∉ template.text values := by
  induction template generalizing values with
  | nil => simp
  | cons piece rest ih =>
    cases piece with
    | literal start =>
      rw [literals, List.mem_append, not_or] at hliterals
      rw [text_literal, List.mem_append, not_or]
      exact ⟨hliterals.1, ih hliterals.2 hslots hfits⟩
    | field name slot =>
      obtain ⟨value, values, hvalue, hrest, rfl⟩ := List.forall₂_cons_left_iff.mp hfits
      rw [text_field, List.mem_append, not_or]
      refine ⟨Slot.not_mem_of_fits (hslots slot (by simp [slots])) hvalue, ?_⟩
      exact ih hliterals (fun other hother => hslots other (by simp [slots, hother])) hrest

/-! ## Reading -/

/-- The texts of a part are read as they stand, and none has a line end. -/
def Part.plain (part : Part) : Bool := part.coding.retains part.slot && !part.slot.has '\n'

namespace TagForm

variable {Place : Type} {form : TagForm Place} {side : LevelForm Place}
  {parts : Place → List Part} {engine : Engine} {hint : Scalar} {params : Params}

/-- What the data of a form must satisfy for the values of a level to be read and written
    as the parts that stand in them. -/
structure Verbatim (form : TagForm Place) (side : LevelForm Place) (parts : Place → List Part) :
    Prop where
  written : form.Written
  mem : side ∈ form.sides
  type : side.type ≠ .binary
  format : side.format = []
  separates : form.Separates side
  fields : ∀ place ∈ form.places, side.fields place = Part.textFields 1 (parts place)
  slots : ∀ place ∈ form.places, (side.template place).slots = (parts place).map Part.slot
  inTag : ∀ place ∈ form.places,
    Part.InTag (form.scheme.tagOption? (form.key place)) (parts place)
  plain : ∀ place ∈ form.places, ∀ part ∈ parts place, part.plain = true
  literals : ∀ place ∈ form.places, '\n' ∉ (side.template place).literals

/-- The tag URIs and pure identity URIs of a lawful form are read as they stand. -/
theorem Lawful.verbatim (h : form.Lawful)
    (hside : side = form.tag ∧ parts = form.parts ∨
      side = form.identity ∧ parts = form.identityParts)
    (hplain : ∀ place ∈ form.places, ∀ part ∈ form.parts place, part.plain = true)
    (hliterals : ∀ place ∈ form.places, '\n' ∉ (side.template place).literals) :
    form.Verbatim side parts := by
  obtain ⟨hmem, htype, hplace⟩ : side ∈ [form.binary, form.tag, form.identity] ∧
      side.type ≠ .binary ∧ ∀ place ∈ form.places,
        side.fields place = Part.textFields 1 (parts place) ∧
        (side.template place).slots = (parts place).map Part.slot ∧
        parts place ⊆ form.parts place := by
    rcases hside with ⟨rfl, rfl⟩ | ⟨rfl, rfl⟩
    · exact ⟨by simp, by rw [h.type_eq.2.1]; decide, fun place hplace =>
        ⟨(h.fields place hplace).2.1, (h.slots place hplace).2.1, fun _ hpart => hpart⟩⟩
    · exact ⟨by simp, by rw [h.type_eq.2.2]; decide, fun place hplace =>
        ⟨(h.fields place hplace).2.2, (h.slots place hplace).2.2, List.drop_subset _ _⟩⟩
  exact {
    written := h.written
    mem := List.mem_append_left _ hmem
    type := htype
    format := (h.clashes side hmem).2.1
    separates := h.separates hmem
    fields := fun place hp => (hplace place hp).1
    slots := fun place hp => (hplace place hp).2.1
    inTag := fun place hp part hpart => h.inTag hp part ((hplace place hp).2.2 hpart)
    plain := fun place hp part hpart => hplain place hp part ((hplace place hp).2.2 hpart)
    literals := hliterals }

namespace Verbatim

variable {value : Text} {reading : Engine.Reading}

theorem names_eq (h : form.Verbatim side parts) {place : Place} (hplace : place ∈ form.places) :
    (side.template place).names = (parts place).map Part.name := by
  rw [← (h.separates.follows place hplace).names_eq, ← Part.names_textFields 1,
    ← h.fields place hplace]
  rfl

/-- What is read is what stands in the fields of a value, which may have a line end behind
    them. -/
theorem exists_of_read (h : form.Verbatim side parts)
    (hresolve : (engine.index.resolve (Engine.plainValue value) hint none).outcome =
      .ok ⟨form.scheme, form.level side⟩)
    (hread : engine.read value none hint params = .ok reading) :
    ∃ place ∈ form.places, ∃ texts ending, (ending = [] ∨ ending = ['\n']) ∧
      Engine.plainValue value = (side.template place).text texts ++ ending ∧
      List.Forall₂ Slot.Fits ((parts place).map Part.slot) texts ∧
      Part.Pass engine.validator (parts place) texts ∧
      reading = ⟨form.scheme, form.key place,
        form.context params place ((parts place).map Part.name) texts⟩ := by
  obtain ⟨place, hplace, captures, hcaptures⟩ :=
    exists_read?_of_read h.separates.follows hresolve hread
  obtain ⟨hfits, ending, hending, hvalue⟩ :=
    (Template.read?_eq_some_iff (h.separates.follows place hplace).separated).mp hcaptures
  obtain ⟨texts, hcodes, rfl⟩ :=
    (h.separates.read_eq_ok_iff_of_read? hplace hcaptures hresolve).mp hread
  rw [h.slots place hplace] at hfits
  rw [h.fields place hplace, decide_eq_false h.type] at hcodes
  obtain ⟨rfl, hpass⟩ := (Part.codes_reading_text_iff (h.inTag place hplace)
    (fun part hpart => (Bool.and_eq_true_iff.mp (h.plain place hplace part hpart)).1)
    (Part.names_textFields 1 _) hfits).mp hcodes
  refine ⟨place, hplace, texts, ending, hending, hvalue, hfits, hpass, ?_⟩
  rw [h.names_eq hplace]

/-- What is written at the level at which a URI was read is the URI, but for a line end
    behind it. -/
theorem exists_of_write (h : form.Verbatim side parts) (huri : side.type.isUri = true)
    (hresolve : (engine.index.resolve (Engine.plainValue value) hint none).outcome =
      .ok ⟨form.scheme, form.level side⟩)
    (hread : engine.read value none hint params = .ok reading) {text : Text}
    (hwrite : engine.write reading side.type.name = .ok text) :
    ∃ ending, (ending = [] ∨ ending = ['\n']) ∧ '\n' ∉ UriEscape.unescape text ∧
      Engine.plainValue value = UriEscape.unescape text ++ ending := by
  obtain ⟨place, hplace, texts, ending, hending, hvalue, hfits, -, rfl⟩ :=
    h.exists_of_read hresolve hread
  rw [← h.slots place hplace] at hfits
  have hholds : (form.context params place (side.template place).names texts).Holds
      (side.template place).names texts :=
    Engine.holds_fieldContext _ _ _ (h.separates.follows place hplace).nodup
      (by rw [← Template.length_slots, hfits.length_eq])
  have hassign (context : Context) : Rules.assign engine.lookup context side.format =
      .ok context := by
    rw [h.format]
    rfl
  rw [← h.names_eq hplace] at hwrite
  obtain ⟨-, rfl⟩ :=
    (h.written.write_text_iff side h.mem h.type hplace (hassign _) hholds).mp hwrite
  rw [LevelForm.text, if_pos huri, UriEscape.unescape_escape]
  refine ⟨ending, hending, Template.not_mem_text (h.literals place hplace) ?_ hfits, hvalue⟩
  rw [h.slots place hplace, List.forall_mem_map]
  intro part hpart
  simpa using (Bool.and_eq_true_iff.mp (h.plain place hplace part hpart)).2

end Verbatim

end TagForm

/-! ## Tag URIs -/

namespace Builtin

/-- The start of all tag URIs. -/
def tagUriStart : Text := "urn:epc:tag:"

/-- Only tag URIs start like tag URIs. -/
theorem type_of_tagUri : ∀ entry ∈ allEntries schemes,
    (entry.1.isPrefixOf tagUriStart || tagUriStart.isPrefixOf entry.1) = true →
      entry.2.level.type = .tagEncoding := by decide +kernel

/-- The parts of all GS1 schemes are read as they stand, those of SGTIN-64 too. -/
theorem plain_gs1 : ∀ form ∈ Gs1Form.sgtin64 :: Gs1Form.sgtin198 :: Gs1Form.numeric,
    ∀ place ∈ form.tagForm.places, (∀ part ∈ form.parts place, part.plain = true) ∧
      ∀ side ∈ [form.tagSide, form.identitySide], '\n' ∉ (side.template place).literals := by
  decide +kernel

theorem plain_single : ∀ form ∈ [SingleForm.gid96, .usdod64, .usdod96],
    (∀ part ∈ form.parts, part.plain = true) ∧ '\n' ∉ (form.tagSide.template ()).literals := by
  decide +kernel

/-- The tag URIs and pure identity URIs of GS1 schemes are read as they stand. -/
theorem verbatim_gs1 {form : Gs1Form} (hform : form ∈ Gs1Form.sgtin198 :: Gs1Form.numeric) :
    form.tagForm.Verbatim form.tagSide form.parts ∧
      form.tagForm.Verbatim form.identitySide form.tagForm.identityParts := by
  have hlawful := (lawful_gs1 form hform).tagForm
  have hplain := plain_gs1 form (List.mem_cons_of_mem _ hform)
  exact ⟨hlawful.verbatim (.inl ⟨rfl, rfl⟩) (fun place hplace => (hplain place hplace).1)
      fun place hplace => (hplain place hplace).2 _ (by simp),
    hlawful.verbatim (.inr ⟨rfl, rfl⟩) (fun place hplace => (hplain place hplace).1)
      fun place hplace => (hplain place hplace).2 _ (by simp)⟩

theorem verbatim_single {form : SingleForm}
    (hform : form ∈ [SingleForm.gid96, .usdod64, .usdod96]) :
    form.tagForm.Verbatim form.tagSide fun _ => form.parts :=
  have hplain := plain_single form hform
  (lawful_single form hform).verbatim (.inl ⟨rfl, rfl⟩) (fun _ _ => hplain.1) fun _ _ => hplain.2

theorem verbatim_short :
    Gs1Form.shortForm.Verbatim Gs1Form.sgtin64.tagSide Gs1Form.sgtin64.parts where
  written := Gs1Form.written_short
  mem := by simp [TagForm.sides, Gs1Form.shortForm, Gs1Form.tagForm]
  type := by decide
  format := rfl
  separates := Gs1Form.separates_short
  fields _ _ := rfl
  slots _ _ := Template.slots_dotted _
  inTag _ hplace := (Gs1Form.inTag_short hplace).2.2
  plain place hplace := (plain_gs1 _ (List.mem_cons_self ..) place hplace).1
  literals place hplace := (plain_gs1 _ (List.mem_cons_self ..) place hplace).2 _ (by simp)

end Builtin

/-- A text that starts like a tag URI does so without its escapes. -/
theorem Engine.plainValue_tagUri {value : Text}
    (hstart : Text.startsWith value Builtin.tagUriStart = true) :
    plainValue value = UriEscape.unescape value ∧
      Builtin.tagUriStart.isPrefixOf (UriEscape.unescape value) = true := by
  obtain ⟨rest, rfl⟩ := List.isPrefixOf_iff_prefix.mp hstart
  constructor
  · refine if_pos ?_
    rw [Text.startsWith, List.isPrefixOf_iff_prefix]
    exact (by decide : uriStart <+: Builtin.tagUriStart).trans (List.prefix_append _ _)
  · have hunescape := UriEscape.unescape_escape_append Builtin.tagUriStart rest
    rw [UriEscape.escape_of_plain (by decide)] at hunescape
    rw [hunescape, List.isPrefixOf_iff_prefix]
    exact List.prefix_append _ _

/-- What is converted from a tag URI to a tag URI is the same text but for its escapes, up
    to a line end behind it, which is lost. -/
theorem unescape_convert_tagUri {settings : Engine.Settings} {engine : Engine}
    (hengine : (Engine.builtin settings).outcome = .ok engine) {value tag : Text}
    {params : Params} (hstart : Text.startsWith value Builtin.tagUriStart = true)
    (htag : (engine.convert value params LevelType.tagEncoding.name).outcome = .ok tag) :
    UriEscape.unescape value =
      UriEscape.unescape tag ++ if value.getLast? = some '\n' then ['\n'] else [] := by
  obtain ⟨hplain, hopens⟩ := Engine.plainValue_tagUri hstart
  obtain ⟨reading, hread, hwrite⟩ := Engine.convert_eq_ok_iff.mp htag
  obtain ⟨⟨scheme, level⟩, hresolve, -⟩ := bind_eq_ok_iff.mp hread
  -- only the tag URIs of a built-in scheme start like the value
  obtain ⟨start, hmem, hprefix⟩ := Engine.exists_entry_of_resolve hengine hresolve
  obtain ⟨hscheme, (hlevel : level ∈ scheme.levels), -⟩ := LevelIndex.mem_allEntries_iff.mp hmem
  have htype : level.type = .tagEncoding := by
    refine Builtin.type_of_tagUri _ hmem (Bool.or_eq_true_iff.mpr ?_)
    rw [hplain, List.isPrefixOf_iff_prefix] at hprefix
    rw [List.isPrefixOf_iff_prefix] at hopens
    exact (List.prefix_or_prefix_of_prefix hprefix hopens).imp List.isPrefixOf_iff_prefix.mpr
      List.isPrefixOf_iff_prefix.mpr
  have hverbatim {Place : Type} {form : TagForm Place} {side : LevelForm Place}
      {parts : Place → List Part} (h : form.Verbatim side parts)
      (hside : side.type = .tagEncoding) (hform : scheme = form.scheme) :
      ∃ ending, (ending = [] ∨ ending = ['\n']) ∧ '\n' ∉ UriEscape.unescape tag ∧
        UriEscape.unescape value = UriEscape.unescape tag ++ ending := by
    subst hform
    rw [TagForm.level_eq_of_type h.written.types h.mem hlevel (htype.trans hside.symm)] at hresolve
    rw [← hplain]
    rw [← hside] at hwrite
    exact h.exists_of_write (by rw [hside]; rfl) hresolve hread hwrite
  obtain ⟨ending, hending, hfree, hvalue⟩ : ∃ ending, (ending = [] ∨ ending = ['\n']) ∧
      '\n' ∉ UriEscape.unescape tag ∧
        UriEscape.unescape value = UriEscape.unescape tag ++ ending := by
    rcases Builtin.scheme_cases hscheme with ⟨form, hform, rfl⟩ | ⟨form, hform, rfl⟩ | rfl
    · exact hverbatim (Builtin.verbatim_gs1 hform).1 rfl rfl
    · exact hverbatim (Builtin.verbatim_single hform) rfl rfl
    · exact hverbatim Builtin.verbatim_short rfl rfl
  have hsame := Text.lineEnd_eq hending hfree
  rw [← hvalue] at hsame
  simp only [UriEscape.getLast?_unescape_iff] at hsame
  rw [hvalue, hsame]

/-- A tag URI with a line end. -/
def tagLine : Text := Text.join ["urn:epc:tag:sgtin-96:3.0037000.030241.1041970", ['\n']]

theorem unescape_convert_tagUri_line :
    ∃ engine, (Engine.builtin { strict := true }).outcome = .ok engine ∧
      Text.startsWith tagLine Builtin.tagUriStart = true ∧
      (engine.convert tagLine [] LevelType.tagEncoding.name).outcome =
        .ok "urn:epc:tag:sgtin-96:3.0037000.030241.1041970".toList ∧
      UriEscape.unescape tagLine =
        UriEscape.unescape "urn:epc:tag:sgtin-96:3.0037000.030241.1041970" ++
          if tagLine.getLast? = some '\n' then ['\n'] else [] := by
  have hengine := Engine.builtin_outcome { strict := true }
  refine ⟨_, hengine, by decide, ?converted,
    unescape_convert_tagUri hengine (by decide) ?converted⟩
  case converted =>
    refine eq_ok_of_toOption ?_
    decide +kernel

/-- The line end is accepted, although no field and no literal stands for it. -/
theorem not_unescape_convert_tagUri :
    ¬ ∀ (settings : Engine.Settings) (engine : Engine) (value tag : Text),
      (Engine.builtin settings).outcome = .ok engine →
        Text.startsWith value Builtin.tagUriStart = true →
          (engine.convert value [] LevelType.tagEncoding.name).outcome = .ok tag →
            UriEscape.unescape tag = UriEscape.unescape value := by
  intro h
  have hsame := h { strict := true } _ tagLine "urn:epc:tag:sgtin-96:3.0037000.030241.1041970"
    (Engine.builtin_outcome _) (by decide) ?converted
  · revert hsame
    decide
  case converted =>
    refine eq_ok_of_toOption ?_
    decide +kernel

end EpcTag
