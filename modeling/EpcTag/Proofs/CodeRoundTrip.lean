-- SUMMARY: Element strings with supplier codes, which come back from the bits of a tag.
import EpcTag.Proofs.BinaryOutput
import EpcTag.Proofs.KeyRoundTrip

/-!
# Supplier codes by way of bits

The element string of a supplier code does not tell which of two tags is meant.
They pack the code differently: the short one takes five characters of six bits,
the long one six characters of eight bits, where a code of five characters has a
space in front of it. The tag length that is asked for decides, and the element
string comes back from the bits of either tag as it was.
-/

namespace EpcTag

/-! ## Element strings of schemes with a single option -/

namespace SingleForm

variable {form : SingleForm} {engine : Engine} {params back : Params} {texts : List Text}

theorem legacySide_mem (form : SingleForm) : form.legacySide ∈ form.tagForm.sides := by
  simp [TagForm.sides, tagForm]

theorem legacySide_names (h : form.tagForm.Lawful) :
    (form.legacySide.template ()).names = form.identityParts.map Part.name := by
  rw [← (h.follows form.legacySide form.legacySide_mem () (by simp [tagForm])).names_eq]
  exact Part.names_textFields 1 _

/-- An element string that matches has the only option, if no other one is asked for. -/
theorem select_legacy (h : form.tagForm.Lawful) (hkey : params.lookup Builtin.singleKey = none)
    {value : Text} {captures : List Text}
    (hread : (form.legacySide.template ()).read? value = some captures) :
    Engine.select form.tagForm.scheme (form.tagForm.level form.legacySide) value
        (Engine.startContext params form.tagForm.scheme) =
      .ok (form.legacySide.option form.tagForm.key (), ⟨Template.captured 1 captures []⟩) := by
  have hrequested : Engine.requestedKey form.tagForm.scheme
      (Engine.startContext params form.tagForm.scheme) = none := by
    have hoption : form.tagForm.scheme.optionKey = .text Builtin.singleKey := rfl
    rw [Engine.requestedKey_startContext params hoption (by decide), Params.field?_toContext, hkey]
    rfl
  have hmatch := (h.follows form.legacySide form.legacySide_mem () (by simp [tagForm])).match?_eq
    value
  rw [hread] at hmatch
  have hmatching : Engine.matching (form.tagForm.level form.legacySide).options value =
      [(form.legacySide.option form.tagForm.key (), ⟨Template.captured 1 captures []⟩)] :=
    Engine.matching_map_of_unique (List.mem_singleton.mpr rfl) h.places_nodup hmatch
      fun _ _ hne => absurd rfl hne
  refine Engine.select_of_matching ?_
  rwa [hrequested]

/-- Admitted texts in an element string are read as themselves. -/
theorem read_legacy (h : form.tagForm.Lawful) (hdistinct : LevelIndex.Distinct engine.schemes)
    (hscheme : form.tagForm.scheme ∈ engine.schemes) {hint : Scalar}
    (hhint : hint.integer? = some (form.tagLength : Int))
    (hkey : params.lookup Builtin.singleKey = none) (hadmits : Part.Admit form.identityParts texts)
    (hfits : List.Forall₂ Slot.Fits (form.legacySide.template ()).slots texts) :
    engine.read (form.legacySide.text () texts) none hint params =
      .ok ⟨form.tagForm.scheme, Builtin.singleKey,
        form.tagForm.context params () (form.identityParts.map Part.name) texts⟩ := by
  have hside := form.legacySide_mem
  have hplace : () ∈ form.tagForm.places := List.mem_singleton.mpr rfl
  have hfollows := h.follows form.legacySide hside () hplace
  have htype : LevelType.legacy ≠ .onsHostname := by decide
  obtain ⟨start, -, -, hplain⟩ :=
    LevelForm.opens_cases (h.opens form.legacySide hside htype () hplace) texts
  have hresolve := h.resolve_tagLength hdistinct hscheme hside htype hplace texts hhint
  have hselect := select_legacy h hkey
    ((congrArg _ hplain).trans (Template.read?_text hfollows.separated hfits))
  have htag : Part.InTag (form.tagForm.scheme.tagOption? Builtin.singleKey) form.identityParts :=
    fun part hpart => h.inTag hplace part (List.mem_of_mem_drop hpart)
  rw [Engine.read_eq_ok_iff hresolve hselect hfollows (hfollows.length_fields hfits)]
  refine ⟨texts, _, ?_, rfl, ?_⟩
  · exact Part.codes_reading_text htag hadmits (Part.names_textFields 1 _)
  · rw [legacySide_names h]
    rfl

/-- The parameters and an element string give the fields of a tag. -/
theorem holds_legacy (h : form.tagForm.Lawful)
    (hnames : ∀ part ∈ form.parts.take form.tagOnly,
      part.name ≠ Builtin.singleKey ∧ part.name ≠ Engine.tagLengthName) {heads : List Text}
    (hheads : params.toContext.Holds ((form.parts.take form.tagOnly).map Part.name) heads)
    (hadmits : Part.Admit form.identityParts texts) :
    (form.tagForm.context params () (form.identityParts.map Part.name) texts).Holds
      (form.parts.map Part.name) (heads ++ texts) := by
  have hplace : () ∈ form.tagForm.places := List.mem_singleton.mpr rfl
  have hsplit : form.parts.map Part.name =
      (form.parts.take form.tagOnly).map Part.name ++ form.identityParts.map Part.name := by
    rw [identityParts, ← List.map_append, List.take_append_drop]
  have hnodup : (form.parts.map Part.name).Nodup := h.names_nodup hplace
  rw [hsplit] at hnodup ⊢
  refine (Context.holds_append_iff hheads.length_eq).mpr ⟨?_, ?_⟩
  · refine hheads.of_eq fun name hname => ?_
    obtain ⟨part, hpart, rfl⟩ := List.mem_map.mp hname
    obtain ⟨hkey, hlength⟩ := hnames part hpart
    have hother : part.name ∉ form.identityParts.map Part.name :=
      fun hmem => (List.nodup_append.mp hnodup).2.2 _ hname _ hmem rfl
    have hoption : form.tagForm.scheme.optionKey = .text Builtin.singleKey := rfl
    rw [TagForm.context, Engine.field?_fieldContext params hoption _ hother, if_neg hkey,
      if_neg hlength]
  · exact h.holds_context hplace (List.drop_sublist _ _) hadmits.decode params

/-- An element string is converted to the bits of a tag, and these are converted back to
    it, if the parameters give the fields that only concern the tag. -/
theorem convert_legacy_back (h : form.tagForm.Lawful) {settings : Engine.Settings}
    (hengine : (Engine.builtin settings).outcome = .ok engine)
    (hscheme : form.tagForm.scheme ∈ Builtin.schemes)
    (hnames : ∀ part ∈ form.parts.take form.tagOnly,
      part.name ≠ Builtin.singleKey ∧ part.name ≠ Engine.tagLengthName)
    (hlength : params.Says Engine.tagLengthName form.tagLength)
    (hlengthBack : back.Says Engine.tagLengthName form.tagLength)
    (hkey : params.lookup Builtin.singleKey = none) {heads : List Text}
    (hlen : heads.length = form.tagOnly)
    (hheads : params.toContext.Holds ((form.parts.take form.tagOnly).map Part.name) heads)
    (hadmits : Part.Admit form.parts (heads ++ texts))
    (hfits : List.Forall₂ Slot.Fits (form.parts.map Part.slot) (heads ++ texts))
    (hfitsLegacy : List.Forall₂ Slot.Fits (form.legacySide.template ()).slots texts) :
    ∃ bits, (engine.convert (form.legacySide.text () texts) params
        LevelType.binary.name).outcome = .ok bits ∧
      Numeral.Digits 2 bits ∧ bits.length = form.tagLength ∧
      (engine.convert bits back LevelType.legacy.name).outcome =
        .ok (form.legacySide.text () texts) := by
  have hschemes := Engine.schemes_of_builtin hengine
  have hdistinct : LevelIndex.Distinct engine.schemes := hschemes ▸ Builtin.distinct_schemes
  have hmem : form.tagForm.scheme ∈ engine.schemes := hschemes ▸ hscheme
  have hplace : () ∈ form.tagForm.places := List.mem_singleton.mpr rfl
  have hdrop : (heads ++ texts).drop form.tagOnly = texts := by rw [← hlen, List.drop_left]
  have hidentity : Part.Admit form.identityParts texts := by
    have hrest : Part.Admit form.identityParts _ := List.forall₂_drop form.tagOnly hadmits
    rwa [hdrop] at hrest
  have hread := read_legacy h hdistinct hmem hlength.integer?_get hkey hidentity hfitsLegacy
  obtain ⟨bits, result, hwrite, hback, hheld⟩ := h.exists_write_read hdistinct hmem
    hlengthBack.integer?_get hplace hadmits hfits (holds_legacy h hnames hheads hidentity)
    (List.mem_cons_self : form.binarySide ∈ _)
  replace hheld : result.Holds (form.identityParts.map Part.name) texts := hdrop ▸ hheld
  have htag := Builtin.isTag_of_write hscheme hwrite
  refine ⟨bits, (Engine.convert_of_read hread _).trans hwrite, htag.digits,
    Int.ofNat.inj htag.length, ?_⟩
  rw [Engine.convert_of_read hback]
  exact h.written.write_parts form.legacySide form.legacySide_mem
    (by decide : LevelType.legacy ≠ .binary) rfl hplace rfl hheld hidentity.decode

end SingleForm

/-! ## Supplier codes -/

/-- The element string of a supplier code and a serial number. -/
def codeString (code serial : Text) : Text :=
  Text.join ["cageordodaac=", code, ";serial=", serial]

/-- The tags that hold a supplier code. -/
inductive CodeTag where
  | short
  | long
  deriving DecidableEq, Repr

namespace CodeTag

def tagLength : CodeTag → Nat
  | .short => 64
  | .long => 96

def filterBits : CodeTag → Nat
  | .short => 2
  | .long => 4

def serialBits : CodeTag → Nat
  | .short => 24
  | .long => 36

/-- The codes of a tag: five characters of those that are allowed, or six if there is
    room for them. -/
def IsCode (tag : CodeTag) (code : Text) : Prop :=
  code.all PackedForm.longCode.class_.has = true ∧
    (code.length = 5 ∨ tag = .long ∧ code.length = 6)

/-- The serial numbers of a tag: decimal numbers without leading zeros that fit into its
    bits. -/
def IsSerial (tag : CodeTag) (serial : Text) : Prop :=
  serial ≠ [] ∧ Numeral.Digits 10 serial ∧ Numeral.NoLeadingZero serial ∧
    Numeral.value 10 serial < 2 ^ tag.serialBits

/-- The scheme of a tag. -/
def form : CodeTag → SingleForm
  | .short => .usdod64
  | .long => .usdod96

/-- How a tag packs a code. -/
def packed : CodeTag → PackedForm
  | .short => .shortCode
  | .long => .longCode

/-- The texts that a URI of a tag can have for a code. -/
def slot : CodeTag → Slot
  | .short => .exactly PackedForm.shortCode.class_ 5
  | .long => SingleForm.codeSlot

theorem parts_form (tag : CodeTag) :
    tag.form.parts = SingleForm.dodParts tag.filterBits tag.packed tag.slot tag.serialBits := by
  cases tag <;> rfl

theorem tagOnly_form (tag : CodeTag) : tag.form.tagOnly = 1 := by cases tag <;> rfl

theorem tagLength_form (tag : CodeTag) : tag.form.tagLength = tag.tagLength := by cases tag <;> rfl

theorem legacyText_form (tag : CodeTag) (code serial : Text) :
    tag.form.legacySide.text () [code, serial] = codeString code serial := by
  cases tag <;> rfl

theorem slots_legacy (tag : CodeTag) :
    (tag.form.legacySide.template ()).slots = [SingleForm.codeSlot, .number] := by
  cases tag <;> rfl

theorem lawful_form (tag : CodeTag) : tag.form.tagForm.Lawful :=
  Builtin.lawful_single _ (by cases tag <;> simp [form])

theorem scheme_mem (tag : CodeTag) : tag.form.tagForm.scheme ∈ Builtin.schemes := by
  cases tag <;> simp [form, Builtin.schemes]

variable {tag : CodeTag} {filter : Nat} {code serial : Text}

/-- A code fits into the tag URI. -/
theorem IsCode.fits_slot (h : tag.IsCode code) : tag.slot.Fits code := by
  obtain ⟨hall, hlen⟩ := h
  cases tag with
  | short => exact ⟨by simpa using hlen, hall⟩
  | long =>
    have hlen : code.length = 5 ∨ code.length = 6 := by simpa using hlen
    exact ⟨⟨by omega, by simpa using (by omega : code.length ≤ 6)⟩, hall⟩

/-- A code fits into the element string. -/
theorem IsCode.fits_codeSlot (h : tag.IsCode code) : SingleForm.codeSlot.Fits code :=
  @IsCode.fits_slot .long code ⟨h.1, h.2.imp_right fun h => ⟨rfl, h.2⟩⟩

/-- A code is restored from the bits of its tag. -/
theorem IsCode.admits (h : tag.IsCode code) : tag.packed.Admits code := by
  have hne : code ≠ [] := by
    rintro rfl
    simp [IsCode] at h
  obtain ⟨hall, hlen⟩ := h
  cases tag with
  | short =>
    have hlen : code.length = 5 := by simpa using hlen
    exact ⟨hne, hall, hlen.le, fun _ => hlen⟩
  | long =>
    have hlen : code.length = 5 ∨ code.length = 6 := by simpa using hlen
    exact ⟨hne, hall, (by omega : code.length ≤ 6), fun heq => by cases heq⟩

theorem IsSerial.admits (h : tag.IsSerial serial) :
    (Coding.number .plain tag.serialBits).Admits serial :=
  Coding.admits_plain h.1 h.2.1 h.2.2.1 h.2.2.2

end CodeTag

/-- An element string with a supplier code is converted to the bits of the tag whose length
    is asked for, and these are converted back to the same element string, whether the
    engine is strict or not. -/
theorem convert_code_back {settings : Engine.Settings} {engine : Engine}
    (hengine : (Engine.builtin settings).outcome = .ok engine) (tag : CodeTag) {filter : Nat}
    (hfilter : filter < 2 ^ tag.filterBits) {params back : Params}
    (hlength : params.Says Engine.tagLengthName tag.tagLength)
    (hfilterSaid : params.Says filterName filter)
    (hkey : params.lookup Builtin.singleKey = none)
    (hlengthBack : back.Says Engine.tagLengthName tag.tagLength) {code serial : Text}
    (hcode : tag.IsCode code) (hserial : tag.IsSerial serial) :
    ∃ bits, (engine.convert (codeString code serial) params LevelType.binary.name).outcome =
        .ok bits ∧
      Numeral.Digits 2 bits ∧ bits.length = tag.tagLength ∧
      (engine.convert bits back LevelType.legacy.name).outcome = .ok (codeString code serial) := by
  have hfilterAdmits : (Coding.number .plain tag.filterBits).Admits (Text.ofNat filter) :=
    ⟨filter, Nat.le_sub_one_of_lt hfilter, rfl⟩
  have hserialFits : Slot.number.Fits serial := Coding.fits_of_suits rfl hserial.admits
  have hadmits : Part.Admit tag.form.parts [Text.ofNat filter, code, serial] := by
    rw [tag.parts_form]
    exact .cons hfilterAdmits (.cons hcode.admits (.cons hserial.admits .nil))
  have hfits : List.Forall₂ Slot.Fits (tag.form.parts.map Part.slot)
      [Text.ofNat filter, code, serial] := by
    rw [tag.parts_form]
    exact .cons (Coding.fits_of_suits (by simp [Coding.suits]) hfilterAdmits)
      (.cons hcode.fits_slot (.cons hserialFits .nil))
  have hlegacy : List.Forall₂ Slot.Fits (tag.form.legacySide.template ()).slots [code, serial] := by
    rw [tag.slots_legacy]
    exact .cons hcode.fits_codeSlot (.cons hserialFits .nil)
  have hlen : [Text.ofNat filter].length = tag.form.tagOnly := tag.tagOnly_form.symm
  have hheads : params.toContext.Holds ((tag.form.parts.take tag.form.tagOnly).map Part.name)
      [Text.ofNat filter] := by
    rw [tag.parts_form, tag.tagOnly_form]
    exact .cons hfilterSaid.field?_toContext .nil
  have hnames : ∀ part ∈ tag.form.parts.take tag.form.tagOnly,
      part.name ≠ Builtin.singleKey ∧ part.name ≠ Engine.tagLengthName := by
    cases tag <;> decide
  rw [← tag.tagLength_form] at hlength hlengthBack ⊢
  rw [← tag.legacyText_form]
  exact SingleForm.convert_legacy_back tag.lawful_form hengine tag.scheme_mem hnames hlength
    hlengthBack hkey hlen hheads hadmits hfits hlegacy

/-- A code of five characters on a tag with room for six. -/
theorem convert_code_back_padded :
    ∃ engine, (Engine.builtin { strict := true }).outcome = .ok engine ∧
      ∃ bits, (engine.convert (codeString "2S194" "12345678901")
          [("taglength", .integer 96), ("filter", .text "3")] LevelType.binary.name).outcome =
            .ok bits ∧
        Numeral.Digits 2 bits ∧ bits.length = 96 ∧
        (engine.convert bits [("taglength", .text "96")] LevelType.legacy.name).outcome =
          .ok (codeString "2S194" "12345678901") :=
  ⟨_, Engine.builtin_outcome _, convert_code_back (Engine.builtin_outcome _) .long
    (by decide : 3 < 2 ^ 4) (.inl rfl) (.inr rfl) rfl (.inr rfl) ⟨by decide, .inl rfl⟩
    ⟨by decide, by decide, .inr (by decide), by decide⟩⟩

end EpcTag
