-- SUMMARY: Conversions only fail with library errors: reading and writing the levels of a sound form, and the built-in schemes.
import EpcTag.Proofs.IndexedTags
import EpcTag.Proofs.SafeRules

/-!
# Library errors

A form of tags is sound if its fields declare what can be read, its tags are bits, and
its rules only compute check digits of fields that are known to consist of digits. All of
this can be told from the data of the form. The conversions of a sound form end with a
text or with a library error, whatever is converted, and the built-in schemes are those of
sound forms. Integers have no bound, so no numeral is too long to be read.
-/

namespace EpcTag

/-! ## Rendering -/

/-- Texts are rendered, or the error is a library error. -/
theorem Grammar.ends_render {context : Context} (h : context.Texts) (grammar output : Text) :
    Ends (fun _ => True) (render grammar context output).outcome := by
  have hpiece (piece : GrammarPiece) : Ends (fun value => ∃ text, value = .text text ∧ True)
      (renderPiece grammar (isEscapedAt output) context piece) := by
    cases piece with
    | literal text => exact ⟨text, rfl, trivial⟩
    | field name =>
      rw [renderPiece]
      split
      · next value hvalue =>
        obtain ⟨text, rfl⟩ := h name value hvalue
        split
        · exact ⟨_, rfl, trivial⟩
        · exact ⟨text, rfl, trivial⟩
      · rfl
  have hpieces : Ends (fun _ => True)
      (renderPieces grammar (isEscapedAt output) context (pieces grammar)) :=
    (Ends.mapM fun piece _ => hpiece piece).bind fun values hvalues =>
      (Scalar.ends_mapM_operand hvalues).bind fun _ _ => trivial
  exact hpieces.traced_bind fun _ _ => trivial

namespace Engine

variable {engine : Engine}

/-- A sound option renders texts, or the error is a library error. -/
theorem ends_renderOutput {option : LevelOption} {template : Template}
    (hfollows : option.Follows template) (hsound : option.Sound) {tagOption : Option LevelOption}
    (htag : ∀ other ∈ tagOption, other.Sound) {context : Context} (hcontext : context.Texts)
    (output : Text) :
    Ends (fun _ => True) (engine.renderOutput output option tagOption context).outcome := by
  obtain ⟨grammar, hgrammar, -⟩ := Option.map_eq_some_iff.mp hfollows.pieces_eq
  have hoperand : option.grammar.operand = .ok grammar := by rw [Scalar.operand, hgrammar]
  have hrender {rendered : Context} (h : rendered.Texts) : Ends (fun _ => True)
      (do Grammar.render (← option.grammar.operand) rendered output : Traced Text).outcome := by
    refine (Ends.of_ok hoperand).traced_bind ?_
    rintro _ rfl
    exact Grammar.ends_render h grammar output
  rw [renderOutput]
  split
  · exact (LevelOption.ends_encodeFields hcontext htag hsound _ _).traced_bind fun encoded _ =>
      hrender (hcontext.insertAll encoded)
  · exact (LevelOption.ends_validateFields hcontext hsound).traced_bind fun _ _ =>
      hrender hcontext

/-! ## Finding the option -/

theorem texts_startContext (params : Params) (scheme : Scheme) :
    (startContext params scheme).Texts := (Context.texts_toContext params).insert _ _

theorem ends_select (scheme : Scheme) (level : Level) (value : Text) (context : Context) :
    Ends (fun _ => True) (select scheme level value context) := by
  simp only [select]
  split
  · rfl
  · trivial
  · split
    · trivial
    · rfl

end Engine

/-- A value is resolved if all levels are searched, or the error is a library error. -/
theorem LevelIndex.ends_resolve (index : LevelIndex) (value : Text) (hint : Scalar) :
    Ends (fun _ => True) (index.resolve value hint none).outcome := by
  have hhint : Ends (fun _ => True) (Traced.ofExcept (readHint hint)).outcome := by
    rw [Traced.ofExcept_outcome, readHint]
    split
    · trivial
    · rfl
  have hprefer (found : List Candidate) :
      Ends (fun _ => True) (preferLength value hint found).outcome := by
    rw [preferLength]
    split
    · trivial
    · refine hhint.traced_bind fun length _ => ?_
      dsimp only
      split
      · trivial
      · cases found with
        | nil => trivial
        | cons first rest => cases rest <;> trivial
  have hsettle (found : List Candidate) : Ends (fun _ => True) (settle value found).outcome := by
    rw [settle.eq_def]
    split
    · rfl
    · trivial
    · refine (Ends.of_ok (Traced.record_outcome _)).traced_bind fun _ _ => ?_
      split
      · rfl
      · trivial
      · rfl
  -- the length narrows the candidates, and then they are settled: neither fails in another way
  rw [resolve]
  refine (Ends.of_ok (rfl : (Traced.ofExcept (searched none)).outcome = .ok LevelType.all)
    ).traced_bind fun types _ => ?_
  dsimp only
  split
  · rfl
  · exact (hprefer _).traced_bind fun preferred _ => (hsettle preferred).traced_bind fun _ _ =>
      trivial

/-! ## Sound forms -/

namespace TagForm

variable {Place : Type} {form : TagForm Place} {side : LevelForm Place} {place : Place}

/-- The fields of a level that are known to consist of digits when a value has been read. -/
def digitFields (form : TagForm Place) (side : LevelForm Place) (place : Place) : List Text :=
  (((side.fields place).zip (side.template place).slots).filter fun pair =>
    LevelOption.readsDigits (side.type = .binary) (form.scheme.tagOption? (form.key place))
      pair.1 pair.2).map fun pair => pair.1.name

/-- What the data of a form must satisfy for its conversions to fail only with library
    errors. -/
@[mk_iff]
structure Sound (form : TagForm Place) : Prop where
  fields : ∀ side ∈ form.sides, ∀ place ∈ form.places, (side.option form.key place).Sound
  bits : ∀ side ∈ form.sides, side.type = .binary → ∀ place ∈ form.places,
    ∀ slot ∈ (side.template place).slots, slot.isBits = true
  /-- A check digit is only computed of digits, whatever level is read and written. -/
  rules : ∀ side ∈ form.sides, ∀ output ∈ form.sides, ∀ place ∈ form.places,
    ((Rules.digitNames? (form.digitFields side place) side.extract).bind fun names =>
      Rules.digitNames? names output.format).isSome = true

instance (form : TagForm Place) : Decidable form.Sound := decidable_of_iff' _ (sound_iff form)

section
variable {engine : Engine} {params : Params} {hint : Scalar} {value : Text}

namespace Sound

theorem tagOption (h : form.Sound) (key : Text) :
    ∀ other ∈ form.scheme.tagOption? key, other.Sound := by
  intro other hother
  obtain ⟨level, hlevel, hfound⟩ := Option.bind_eq_some_iff.mp hother
  obtain ⟨side, hside, rfl⟩ := List.mem_map.mp (List.mem_of_find?_eq_some hlevel)
  obtain ⟨place, hplace, rfl⟩ := List.mem_map.mp (List.mem_of_find?_eq_some hfound)
  exact h.fields side hside place hplace

/-- What is known of the fields after the extract rules is enough for all format rules. -/
theorem exists_digitNames (h : form.Sound) (hside : side ∈ form.sides)
    (hplace : place ∈ form.places) :
    ∃ names, Rules.digitNames? (form.digitFields side place) side.extract = some names ∧
      ∀ output ∈ form.sides, (Rules.digitNames? names output.format).isSome = true := by
  have hrules (output : LevelForm Place) (houtput : output ∈ form.sides) :=
    h.rules side hside output houtput place hplace
  cases hnames : Rules.digitNames? (form.digitFields side place) side.extract with
  | none => exact absurd (hrules side hside) (by simp [hnames])
  | some names =>
    refine ⟨names, rfl, fun output houtput => ?_⟩
    have houtput := hrules output houtput
    rwa [hnames] at houtput

/-- The values that fields are decoded to make a context of texts, in which the fields that
    are known to consist of digits do. -/
theorem digital_fieldContext (h : form.Sound) (hwritten : form.Written) (hside : side ∈ form.sides)
    (hplace : place ∈ form.places) {captures values : List Text}
    (hfits : List.Forall₂ Slot.Fits (side.template place).slots captures)
    (hcodes : LevelOption.Codes (LevelOption.reading engine.validator (side.type = .binary)
      (form.scheme.tagOption? (form.key place))) (side.fields place) captures values) :
    (Engine.fieldContext params form.scheme (form.key place) (side.template place).names
      values).Digital (form.digitFields side place) := by
  have hholds := hwritten.holds_of_codes hside hplace hcodes params
  refine ⟨((Engine.texts_startContext params form.scheme).insert _ _).insertAll _,
    fun name hname => ?_⟩
  obtain ⟨pair, hpair, rfl⟩ := List.mem_map.mp hname
  obtain ⟨hpair, hdigital⟩ := List.mem_filter.mp hpair
  have hdigits : ∀ field ∈ side.fields place, ∀ slot ∈ (side.template place).slots,
      ∀ captured value, slot.Fits captured →
      LevelOption.reading engine.validator (side.type = .binary)
        (form.scheme.tagOption? (form.key place)) field captured = .ok value →
      LevelOption.readsDigits (side.type = .binary) (form.scheme.tagOption? (form.key place))
        field slot = true → Numeral.Digits 10 value := by
    intro field hfield slot hslot captured value hcaptured hvalue
    have hends := @LevelOption.ends_reading engine.validator _ _ (h.tagOption (form.key place))
      field (h.fields side hside place hplace field hfield) slot (fun hbinary =>
        h.bits side hside (of_decide_eq_true hbinary) place hplace slot hslot) captured hcaptured
    rw [hvalue] at hends
    exact hends
  obtain ⟨text, htext, hall⟩ := LevelOption.exists_of_codes hfits hcodes hholds hdigits pair hpair
  exact ⟨text, htext, hall hdigital⟩

/-- A value of a level is read into a context of texts, with all the digits that the rules
    of an output need. -/
theorem ends_read (h : form.Sound) (hwritten : form.Written) (hside : side ∈ form.sides)
    (htable : ∀ entry ∈ engine.companyPrefixes.prefixes, Numeral.Digits 10 entry.2)
    (hresolve : (engine.index.resolve (Engine.plainValue value) hint none).outcome =
      .ok ⟨form.scheme, form.level side⟩) :
    Ends (fun reading => ∃ place ∈ form.places, ∃ context names,
        reading = ⟨form.scheme, form.key place, context⟩ ∧ context.Digital names ∧
        ∀ output ∈ form.sides, (Rules.digitNames? names output.format).isSome = true)
      (engine.read value none hint params) := by
  rw [Engine.read]
  refine (Ends.of_ok hresolve).bind ?_
  rintro _ rfl
  refine (Engine.ends_select _ _ _ _).and_eq.bind ?_
  rintro ⟨option, found⟩ ⟨-, hselect⟩
  obtain ⟨place, hplace, captures, rfl, rfl, hcaptures⟩ :=
    @Engine.exists_place_of_select Place form.places (side.option form.key) side.template _ _ _ _
      rfl (hwritten.follows side hside) _ _ hselect
  have hfollows := hwritten.follows side hside place hplace
  obtain ⟨hfits, -⟩ := (Template.read?_eq_some_iff hfollows.separated).mp hcaptures
  obtain ⟨names, hextract, hformat⟩ := h.exists_digitNames hside hplace
  refine (hfollows.ends_decode (h.fields side hside place hplace) (h.tagOption _)
    (fun hbinary => h.bits side hside (of_decide_eq_true hbinary) place hplace) hfits).bind ?_
  rintro _ ⟨values, hcodes, rfl⟩
  have hdigital := @h.digital_fieldContext _ _ _ place engine params hwritten hside hplace _ _ hfits
    hcodes
  have hassign := Rules.ends_assign (Engine.ends_lookup htable) hdigital hextract
  rw [← @Rules.derive_numbered _ .extract] at hassign
  exact hassign.bind fun context hcontext =>
    ⟨place, hplace, context, names, rfl, hcontext, hformat⟩

/-- A context that has the digits which the rules need is written out. -/
theorem ends_write (h : form.Sound) (hwritten : form.Written) (hplace : place ∈ form.places)
    (htable : ∀ entry ∈ engine.companyPrefixes.prefixes, Numeral.Digits 10 entry.2)
    {context : Context} {names : List Text} (hcontext : context.Digital names)
    (hnames : ∀ output ∈ form.sides, (Rules.digitNames? names output.format).isSome = true)
    (output : Text) :
    Ends (fun _ => True) (engine.write ⟨form.scheme, form.key place, context⟩ output) := by
  rw [Engine.write]
  have houtput : Ends (fun chosen => ∃ side ∈ form.sides,
      chosen = (form.level side, side.option form.key place))
      (Engine.outputOption form.scheme output (form.key place)) := by
    rw [Engine.outputOption]
    split
    · rfl
    · next level hlevel =>
      obtain ⟨type, -, hlevel⟩ := Option.bind_eq_some_iff.mp hlevel
      obtain ⟨side, hside, rfl⟩ := List.mem_map.mp (List.mem_of_find?_eq_some hlevel)
      rw [hwritten.option?_eq side hplace]
      exact ⟨side, hside, rfl⟩
  refine houtput.bind ?_
  rintro _ ⟨side, hside, rfl⟩
  obtain ⟨result, hresult⟩ := Option.isSome_iff_exists.mp (hnames side hside)
  have hassign := Rules.ends_assign (Engine.ends_lookup htable) hcontext hresult
  rw [← @Rules.derive_numbered _ .format] at hassign
  exact hassign.bind fun context hcontext => Engine.ends_renderOutput
    (hwritten.follows side hside place hplace) (h.fields side hside place hplace) (h.tagOption _)
      hcontext.texts output

/-- The conversions of a value that is found at a level of a sound form are safe. -/
theorem ends_convert (h : form.Sound) (hwritten : form.Written) {level : Level}
    (hlevel : level ∈ form.scheme.levels)
    (htable : ∀ entry ∈ engine.companyPrefixes.prefixes, Numeral.Digits 10 entry.2)
    (hresolve : (engine.index.resolve (Engine.plainValue value)
      (params.get Engine.tagLengthName) none).outcome = .ok ⟨form.scheme, level⟩)
    (output : Text) :
    Ends (fun _ => True) (engine.convert value params output).outcome := by
  obtain ⟨side, hside, rfl⟩ := List.mem_map.mp hlevel
  rw [Engine.convert_outcome]
  refine (h.ends_read hwritten hside htable hresolve).bind ?_
  rintro _ ⟨place, hplace, context, names, rfl, hcontext, hnames⟩
  exact h.ends_write hwritten hplace htable hcontext hnames output

end Sound

end

end TagForm

namespace Builtin

theorem sound_gs1 : ∀ form ∈ Gs1Form.sgtin198 :: Gs1Form.numeric, form.tagForm.Sound := by
  decide +kernel

theorem sound_single : ∀ form ∈ [SingleForm.gid96, .usdod64, .usdod96], form.tagForm.Sound := by
  decide +kernel

theorem sound_short : Gs1Form.shortForm.Sound := by decide +kernel

end Builtin

/-- A lenient engine with a single company prefix. -/
def listedSettings : Engine.Settings where
  companyPrefixes := ({} : CompanyPrefixTable).addEntry "158" "0073796"

/-- The bits of an item whose company prefix has the index 159. -/
def unlistedBits : Text :=
  Text.join ["10", "011", "00000010011111", "00111101010001111010", "0000000000000000000000001"]

end EpcTag
