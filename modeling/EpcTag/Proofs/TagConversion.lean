-- SUMMARY: Conversions of tags by the engine of the built-in schemes: by way of the tag URI they come to the same.
import EpcTag.Proofs.BuiltinSchemes

/-!
# Conversions of tags

A strict engine converts the bits of a tag to a tag URI only if every field is
decoded without a violation. What is read from the tag URI is then what was read
from the bits, if the URI has room for the texts of all fields, so any further
conversion gives the same for both.
-/

namespace EpcTag

namespace TagForm

variable {Place : Type} {form : TagForm Place} {place : Place} {settings : Engine.Settings}
  {engine : Engine} {params : Params} {bits tag : Text} {texts : List Text}

/-- What is read from a tag or a tag URI whose fields have the given texts. -/
def reading (form : TagForm Place) (params : Params) (place : Place) (texts : List Text) :
    Engine.Reading :=
  ⟨form.scheme, form.key place, form.context params place ((form.parts place).map Part.name) texts⟩

/-- Bits and tag URIs are resolved to their levels. -/
theorem resolve_side (hengine : (Engine.builtin settings).outcome = .ok engine)
    (hscheme : form.scheme ∈ Builtin.schemes) {side : LevelForm Place} (hside : side ∈ form.sides)
    (htype : side.type = .binary ∨ side.type = .tagEncoding) (hopens : side.opens place = true)
    (texts : List Text) {hint : Scalar} (hhint : LevelIndex.IsHint hint) :
    (engine.index.resolve (Engine.plainValue (side.text place texts)) hint none).outcome =
      .ok ⟨form.scheme, form.level side⟩ := by
  have hschemes := Engine.schemes_of_builtin hengine
  refine resolve_start (hschemes ▸ Builtin.distinct_schemes) (hschemes ▸ hscheme) hside hopens
    texts hhint fun start hstart => ?_
  rw [hschemes]
  exact Builtin.count_tagStart _ (mem_allEntries hscheme hside hstart) htype

namespace Lawful

/-- The fields of a tag are held by what is read from it. -/
theorem holds_reading (h : form.Lawful) (hplace : place ∈ form.places)
    (hdecode : Part.Decode (form.parts place) texts) (params : Params) :
    (form.reading params place texts).context.Holds ((form.parts place).map Part.name) texts :=
  h.holds_context hplace (List.Sublist.refl _) hdecode params

/-- A tag URI is resolved to its level. -/
theorem resolve_tag (h : form.Lawful) (hengine : (Engine.builtin settings).outcome = .ok engine)
    (hscheme : form.scheme ∈ Builtin.schemes) (hplace : place ∈ form.places)
    (texts : List Text) {hint : Scalar} (hhint : LevelIndex.IsHint hint) :
    (engine.index.resolve (Engine.plainValue (form.tag.text place texts)) hint none).outcome =
      .ok ⟨form.scheme, form.level form.tag⟩ :=
  resolve_side hengine hscheme (by simp [sides]) (.inr h.type_eq.2.1)
    (h.opens form.tag (by simp [sides]) (by rw [h.type_eq.2.1]; decide) place hplace) texts hhint

/-- Bits are resolved to their level. -/
theorem resolve_bits (h : form.Lawful) (hengine : (Engine.builtin settings).outcome = .ok engine)
    (hscheme : form.scheme ∈ Builtin.schemes) (hplace : place ∈ form.places)
    (bits : List Text) {hint : Scalar} (hhint : LevelIndex.IsHint hint) :
    (engine.index.resolve (Engine.plainValue (form.binary.text place bits)) hint none).outcome =
      .ok ⟨form.scheme, form.level form.binary⟩ :=
  resolve_side hengine hscheme (by simp [sides]) (.inl h.type_eq.1)
    (h.opens form.binary (by simp [sides]) (by rw [h.type_eq.1]; decide) place hplace) bits hhint

/-- Bits that are resolved to a scheme are resolved to its binary level. -/
theorem level_of_resolve (h : form.Lawful)
    (hengine : (Engine.builtin settings).outcome = .ok engine) (hbits : Numeral.Digits 2 bits)
    {hint : Scalar} {level : Level} (hresolve : (engine.index.resolve bits hint none).outcome =
      .ok ⟨form.scheme, level⟩) : level = form.level form.binary := by
  obtain ⟨start, hmem, hprefix⟩ := Engine.exists_entry_of_resolve hengine hresolve
  have hstart : start.all Numeral.isBit = true := by
    rw [Numeral.all_isBit_iff]
    exact hbits.of_mem fun c hc => (List.isPrefixOf_iff_prefix.mp hprefix).subset hc
  have htype : level.type = .binary := Builtin.type_of_bits _ hmem hstart
  obtain ⟨-, hlevel, -⟩ := LevelIndex.mem_allEntries_iff.mp hmem
  exact level_eq_of_type h.types_nodup (by simp [sides]) hlevel (htype.trans h.type_eq.1.symm)

/-- A tag that is converted to a tag URI by a strict engine is that of a place, and the
    URI has the texts that its bits are decoded to. -/
theorem exists_of_convert (h : form.Lawful)
    (hengine : (Engine.builtin settings).outcome = .ok engine) (hstrict : settings.strict = true)
    (hbits : Numeral.Digits 2 bits) {level : Level}
    (hresolve : (engine.index.resolve bits .null none).outcome = .ok ⟨form.scheme, level⟩)
    (htag : (engine.convert bits [] LevelType.tagEncoding.name).outcome = .ok tag) :
    ∃ place ∈ form.places, ∃ texts, Part.Decode (form.parts place) texts ∧
      (Part.Admit (form.parts place) texts →
        bits = form.binary.text place (Part.bits (form.parts place) texts)) ∧
      engine.read bits none .null [] = .ok (form.reading [] place texts) ∧
      tag = form.tag.text place texts := by
  rw [h.level_of_resolve hengine hbits hresolve] at hresolve
  rw [← Engine.plainValue_of_digits hbits] at hresolve
  obtain ⟨reading, hread, hwrite⟩ := Engine.convert_eq_ok_iff.mp htag
  obtain ⟨place, hplace, texts, hdecode, hback, rfl⟩ := h.of_read_binary
    ((Engine.strict_of_builtin hengine).trans hstrict) hbits hresolve hread
  refine ⟨place, hplace, texts, hdecode, hback, hread, ?_⟩
  exact Except.ok.inj (hwrite.symm.trans
    (h.write_tag hplace (h.holds_reading hplace hdecode []) hdecode))

/-- What a tag URI is converted to is what its bits are converted to, if the URI has
    room for admitted texts of all fields. -/
theorem convert_tag_eq (h : form.Lawful)
    (hengine : (Engine.builtin settings).outcome = .ok engine)
    (hscheme : form.scheme ∈ Builtin.schemes) (hplace : place ∈ form.places)
    (hread : engine.read bits none .null [] = .ok (form.reading [] place texts))
    (hadmits : Part.Admit (form.parts place) texts)
    (hfits : List.Forall₂ Slot.Fits ((form.parts place).map Part.slot) texts) (output : Text) :
    (engine.convert (form.tag.text place texts) [] output).outcome =
      (engine.convert bits [] output).outcome := by
  have htag : engine.read (form.tag.text place texts) none .null [] =
      .ok (form.reading [] place texts) :=
    h.read_tag hplace hadmits hfits (h.resolve_tag hengine hscheme hplace texts (.inl rfl))
  exact (Engine.convert_of_read htag output).trans (Engine.convert_of_read hread output).symm

/-- A tag with admitted texts is converted to itself. -/
theorem convert_bits_binary (h : form.Lawful) (hplace : place ∈ form.places)
    (hread : engine.read bits none .null [] = .ok (form.reading [] place texts))
    (hadmits : Part.Admit (form.parts place) texts)
    (hback : bits = form.binary.text place (Part.bits (form.parts place) texts)) :
    (engine.convert bits [] LevelType.binary.name).outcome = .ok bits := by
  refine (Engine.convert_of_read hread _).trans ?_
  refine (h.write_binary hplace (h.holds_reading hplace hadmits.decode []) hadmits).trans ?_
  rw [← hback]

/-- A tag URI with admitted texts is converted to their bits, if it has room for them. -/
theorem convert_tag_to_bits (h : form.Lawful)
    (hengine : (Engine.builtin settings).outcome = .ok engine)
    (hscheme : form.scheme ∈ Builtin.schemes) (hplace : place ∈ form.places)
    (hadmits : Part.Admit (form.parts place) texts)
    (hfits : List.Forall₂ Slot.Fits ((form.parts place).map Part.slot) texts)
    (hhint : LevelIndex.IsHint (params.get Engine.tagLengthName)) :
    (engine.convert (form.tag.text place texts) params LevelType.binary.name).outcome =
      .ok (form.binary.text place (Part.bits (form.parts place) texts)) := by
  have hread : engine.read (form.tag.text place texts) none (params.get Engine.tagLengthName)
      params = .ok (form.reading params place texts) :=
    h.read_tag hplace hadmits hfits (h.resolve_tag hengine hscheme hplace texts hhint)
  exact (Engine.convert_of_read hread _).trans
    (h.write_binary hplace (h.holds_reading hplace hadmits.decode params) hadmits)

/-- The bits of admitted texts are converted to a tag URI with these texts. -/
theorem convert_bits_to_tag (h : form.Lawful)
    (hengine : (Engine.builtin settings).outcome = .ok engine)
    (hscheme : form.scheme ∈ Builtin.schemes) (hplace : place ∈ form.places)
    (hadmits : Part.Admit (form.parts place) texts)
    (hhint : LevelIndex.IsHint (params.get Engine.tagLengthName)) :
    (engine.convert (form.binary.text place (Part.bits (form.parts place) texts)) params
      LevelType.tagEncoding.name).outcome = .ok (form.tag.text place texts) := by
  have hread : engine.read (form.binary.text place (Part.bits (form.parts place) texts)) none
      (params.get Engine.tagLengthName) params = .ok (form.reading params place texts) :=
    h.read_binary hplace hadmits (h.resolve_bits hengine hscheme hplace _ hhint)
  exact (Engine.convert_of_read hread _).trans
    (h.write_tag hplace (h.holds_reading hplace hadmits.decode params) hadmits.decode)

/-- By way of the tag URI, a tag of numbers is converted to what it is converted to
    directly, at every level that can be written. -/
theorem convert_tag_of_numbers (h : form.Lawful)
    (hengine : (Engine.builtin settings).outcome = .ok engine) (hstrict : settings.strict = true)
    (hscheme : form.scheme ∈ Builtin.schemes)
    (hnumbers : ∀ place ∈ form.places, ∀ part ∈ form.parts place,
      part.coding.isPacked = false ∧ part.coding.suits part.slot = true)
    (hwrite : ∀ place ∈ form.places, ∀ texts context, Part.Decode (form.parts place) texts →
      Context.Holds context ((form.parts place).map Part.name) texts →
        ∀ side ∈ form.sides, side.type ≠ .binary →
          ∃ result, engine.write ⟨form.scheme, form.key place, context⟩ side.type.name =
            .ok result)
    (hbits : Numeral.Digits 2 bits) {level : Level}
    (hresolve : (engine.index.resolve bits .null none).outcome = .ok ⟨form.scheme, level⟩)
    (htag : (engine.convert bits [] LevelType.tagEncoding.name).outcome = .ok tag) :
    ∀ output ∈ form.scheme.levels, ∃ result,
      (engine.convert tag [] output.type.name).outcome = .ok result ∧
        (engine.convert bits [] output.type.name).outcome = .ok result ∧
          (output.type = .binary → result = bits) := by
  obtain ⟨place, hplace, texts, hdecode, hback, hread, rfl⟩ :=
    h.exists_of_convert hengine hstrict hbits hresolve htag
  have hadmits := hdecode.admits fun part hpart => (hnumbers place hplace part hpart).1
  have hfits := Part.fits_texts (fun part hpart => (hnumbers place hplace part hpart).2) hadmits
  have hsame := h.convert_tag_eq hengine hscheme hplace hread hadmits hfits
  intro output houtput
  obtain ⟨side, hside, rfl⟩ := List.mem_map.mp houtput
  change ∃ result, (engine.convert _ [] side.type.name).outcome = _ ∧
    (engine.convert _ [] side.type.name).outcome = _ ∧ (side.type = .binary → _)
  rw [hsame]
  by_cases htype : side.type = .binary
  · have hself := h.convert_bits_binary hplace hread hadmits (hback hadmits)
    rw [htype]
    exact ⟨bits, hself, hself, fun _ => rfl⟩
  · obtain ⟨result, hresult⟩ := hwrite place hplace texts _ hdecode
      (h.holds_reading hplace hdecode []) side hside htype
    rw [Engine.convert_of_read hread]
    exact ⟨result, hresult, hresult, fun hbinary => absurd hbinary htype⟩

end Lawful

end TagForm

/-! ## All levels -/

/-- The fields of a tag can be written at all levels of a GS1 scheme. -/
theorem Gs1Form.Lawful.exists_write {form : Gs1Form} (h : form.Lawful) {place : Gs1Form.Place}
    (hplace : place ∈ form.tagForm.places) {engine : Engine} {context : Context}
    {texts : List Text} (hdecode : Part.Decode (form.parts place) texts)
    (hholds : context.Holds ((form.parts place).map Part.name) texts)
    {side : LevelForm Gs1Form.Place} (hside : side ∈ form.tagForm.sides)
    (htype : side.type ≠ .binary) :
    ∃ result, engine.write ⟨form.tagForm.scheme, place.1.key, context⟩ side.type.name =
      .ok result := by
  obtain ⟨filter, _, -, hkey, rfl⟩ := List.forall₂_cons_left_iff.mp hdecode
  obtain ⟨company, _, hcompany, hrest, rfl⟩ := List.forall₂_cons_left_iff.mp hkey
  obtain ⟨reference, serials, hreference, hserials, rfl⟩ := List.forall₂_cons_left_iff.mp hrest
  obtain ⟨-, hidentity⟩ := List.forall₂_cons.mp hholds
  obtain ⟨hcompanyHolds, hotherHolds⟩ := List.forall₂_cons.mp hidentity
  obtain ⟨hreferenceHolds, -⟩ := List.forall₂_cons.mp hotherHolds
  have hmem : side ∈ [form.binarySide, form.tagSide, form.identitySide, form.legacySide] ++
      if form.hosted then [form.hostSide] else [] := hside
  rw [List.mem_append] at hmem
  rcases hmem with hmem | hmem
  · simp only [List.mem_cons, List.not_mem_nil, or_false] at hmem
    rcases hmem with rfl | rfl | rfl | rfl
    · exact absurd rfl htype
    · exact ⟨_, h.tagForm.write_tag hplace hholds hdecode⟩
    · exact ⟨_, h.tagForm.write_identity hplace hidentity
        (.cons hcompany (.cons hreference hserials))⟩
    · have hcompanyDigits := Coding.digits_of_decodable hcompany
      have hreferenceDigits := Coding.digits_of_decodable hreference
      obtain ⟨digit, hdigit, -⟩ := CheckDigit.exists_compute
        (form.rule.digits_join hcompanyDigits hreferenceDigits)
      exact ⟨_, h.write_legacy hplace hidentity hcompanyDigits hreferenceDigits hserials hdigit⟩
  · split at hmem
    · obtain rfl := List.mem_singleton.mp hmem
      exact ⟨_, h.tagForm.written.write_parts form.hostSide hside htype rfl hplace rfl
        (.cons hreferenceHolds (.cons hcompanyHolds .nil))
        (.cons hreference (.cons hcompany .nil))⟩
    · cases hmem

/-- The fields of a tag can be written at all levels of a scheme with a single option. -/
theorem SingleForm.exists_write {form : SingleForm} (h : form.tagForm.Lawful) {engine : Engine}
    {context : Context} {texts : List Text} (hdecode : Part.Decode form.parts texts)
    (hholds : context.Holds (form.parts.map Part.name) texts) {side : LevelForm Unit}
    (hside : side ∈ form.tagForm.sides) (htype : side.type ≠ .binary) :
    ∃ result, engine.write ⟨form.tagForm.scheme, Builtin.singleKey, context⟩ side.type.name =
      .ok result := by
  have hplace : () ∈ form.tagForm.places := by simp [tagForm]
  have hidentity : context.Holds (form.identityParts.map Part.name)
      (texts.drop form.tagOnly) := by
    rw [identityParts, List.map_drop]
    exact List.forall₂_drop _ hholds
  have hdecoded : Part.Decode form.identityParts (texts.drop form.tagOnly) :=
    List.forall₂_drop _ hdecode
  have hmem : side ∈ [form.binarySide, form.tagSide, form.identitySide, form.legacySide] := hside
  simp only [List.mem_cons, List.not_mem_nil, or_false] at hmem
  rcases hmem with rfl | rfl | rfl | rfl
  · exact absurd rfl htype
  · exact ⟨_, h.write_tag hplace hholds hdecode⟩
  · exact ⟨_, h.write_identity hplace hidentity hdecoded⟩
  · exact ⟨_, h.written.write_parts form.legacySide hside htype rfl hplace rfl hidentity hdecoded⟩

/-! ## Schemes of numbers -/

/-- The schemes whose tags hold nothing but numbers. -/
def numericNames : List Text := ["SGTIN-96", "SSCC-96", "SGLN-96", "GRAI-96", "GID-96"]

theorem Gs1Form.isPacked_numeric : ∀ form ∈ Gs1Form.numeric, ∀ place ∈ form.tagForm.places,
    ∀ part ∈ form.parts place, part.coding.isPacked = false := by decide

theorem SingleForm.numbers_gid96 : ∀ part ∈ SingleForm.gid96.parts,
    part.coding.isPacked = false ∧ part.coding.suits part.slot = true := by decide

/-- A scheme of numbers is one of the forms. -/
theorem Builtin.numeric_cases {scheme : Scheme} (hscheme : scheme ∈ Builtin.schemes)
    (hname : scheme.name ∈ numericNames) :
    (∃ form ∈ Gs1Form.numeric, scheme = form.tagForm.scheme) ∨
      scheme = SingleForm.gid96.tagForm.scheme := by
  simp only [numericNames, List.mem_cons, List.not_mem_nil, or_false] at hname
  rcases hname with hname | hname | hname | hname | hname
  · exact .inl ⟨.sgtin96, by simp [Gs1Form.numeric],
      eq_of_name hscheme (by simp [schemes]) hname⟩
  · exact .inl ⟨.sscc96, by simp [Gs1Form.numeric], eq_of_name hscheme (by simp [schemes]) hname⟩
  · exact .inl ⟨.sgln96, by simp [Gs1Form.numeric], eq_of_name hscheme (by simp [schemes]) hname⟩
  · exact .inl ⟨.grai96, by simp [Gs1Form.numeric], eq_of_name hscheme (by simp [schemes]) hname⟩
  · exact .inr (eq_of_name hscheme (by simp [schemes]) hname)

/-- A strict engine converts the bits of a tag that holds nothing but numbers by way of
    the tag URI to what it converts them to directly: at every level of the scheme, and
    at the binary level to the bits themselves. -/
theorem convert_by_tag_uri {settings : Engine.Settings} {engine : Engine}
    (hengine : (Engine.builtin settings).outcome = .ok engine) (hstrict : settings.strict = true)
    {bits tag : Text} (hbits : Numeral.Digits 2 bits) {scheme : Scheme} {level : Level}
    (hresolve : (engine.index.resolve bits .null none).outcome = .ok ⟨scheme, level⟩)
    (hname : scheme.name ∈ numericNames)
    (htag : (engine.convert bits [] LevelType.tagEncoding.name).outcome = .ok tag) :
    ∀ output ∈ scheme.levels, ∃ result,
      (engine.convert tag [] output.type.name).outcome = .ok result ∧
        (engine.convert bits [] output.type.name).outcome = .ok result ∧
          (output.type = .binary → result = bits) := by
  have hscheme := Engine.scheme_mem_of_resolve hengine hresolve
  rcases Builtin.numeric_cases hscheme hname with ⟨form, hform, rfl⟩ | rfl
  · have hlawful := Builtin.lawful_gs1 form (List.mem_cons_of_mem _ hform)
    exact hlawful.tagForm.convert_tag_of_numbers hengine hstrict hscheme
      (fun place hplace part hpart =>
        ⟨Gs1Form.isPacked_numeric form hform place hplace part hpart,
          hlawful.suits place hplace part hpart⟩)
      (fun place hplace texts context hdecode hholds side =>
        hlawful.exists_write hplace hdecode hholds)
      hbits hresolve htag
  · have hlawful := Builtin.lawful_single .gid96 (by simp)
    exact hlawful.convert_tag_of_numbers hengine hstrict hscheme
      (fun _ _ => SingleForm.numbers_gid96)
      (fun _ _ texts context hdecode hholds side =>
        SingleForm.exists_write hlawful hdecode hholds)
      hbits hresolve htag

/-- The bits of a tag for a location whose company prefix takes all digits of its key. -/
def locationBits : Text := Text.join
  ["00110010", "000", "000", "0000111001001100100100001111110001011001", "0",
   "00000000000000000000000000001011000101110"]

theorem convert_by_tag_uri_location :
    ∃ engine scheme level, (Engine.builtin { strict := true }).outcome = .ok engine ∧
      (engine.index.resolve locationBits .null none).outcome = .ok ⟨scheme, level⟩ ∧
      (engine.convert locationBits [] LevelType.tagEncoding.name).outcome =
        .ok "urn:epc:tag:sgln-96:0.061414112345..5678".toList ∧
      ∀ output ∈ scheme.levels, ∃ result,
        (engine.convert "urn:epc:tag:sgln-96:0.061414112345..5678" [] output.type.name).outcome =
            .ok result ∧
          (engine.convert locationBits [] output.type.name).outcome = .ok result ∧
            (output.type = .binary → result = locationBits) := by
  have hengine := Engine.builtin_outcome { strict := true }
  refine ⟨_, Gs1Form.sgln96.tagForm.scheme, Gs1Form.sgln96.tagForm.level Gs1Form.sgln96.binarySide,
    hengine, ?resolved, ?converted,
    convert_by_tag_uri hengine rfl (by decide) ?resolved (by decide) ?converted⟩
  case resolved =>
    refine eq_ok_of_toOption ?_
    decide +kernel
  case converted =>
    refine eq_ok_of_toOption ?_
    decide +kernel

end EpcTag
