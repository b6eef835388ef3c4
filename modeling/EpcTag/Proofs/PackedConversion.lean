-- SUMMARY: Tags that hold packed characters: when the tag URI of a tag can be read back.
import EpcTag.Proofs.Dotted
import EpcTag.Proofs.TagConversion

/-!
# Conversions of tags with packed characters

A serial number or a supplier code is packed into the bits of a tag. Bits without
a one hold no character, and a code of six places may start with spaces, so a
strict engine decodes texts that are shorter than a tag URI admits. Such a tag is
still converted to a tag URI, but the URI matches no option when it is read.
-/

namespace EpcTag

namespace TagForm

variable {Place : Type} {form : TagForm Place} {settings : Engine.Settings} {engine : Engine}
  {bits tag : Text}

/-- A tag URI with the given texts is read exactly if the text of a field has at least
    `least` characters. -/
structure ReadIff (form : TagForm Place) (field : Text) (least : Nat) (place : Place)
    (texts : List Text) (text : Text) : Prop where
  holds : ∀ context : Context, context.Holds ((form.parts place).map Part.name) texts →
    context.field? field = some (.text text)
  read : least ≤ text.length → Part.Admit (form.parts place) texts ∧
    List.Forall₂ Slot.Fits ((form.parts place).map Part.slot) texts
  unread : text.length < least → ∀ other ∈ form.places,
    (form.tag.template other).read? ((form.tag.template place).text texts) = none

/-- A tag with a packed field is converted back from its tag URI if the field has at
    least as many characters as the URI needs, and its URI is not read otherwise. -/
theorem Lawful.convert_tag_of_packed (h : form.Lawful)
    (hengine : (Engine.builtin settings).outcome = .ok engine) (hstrict : settings.strict = true)
    (hscheme : form.scheme ∈ Builtin.schemes) {field : Text} {least : Nat}
    (hpacked : ∀ place ∈ form.places, ∀ texts, Part.Decode (form.parts place) texts →
      ∃ text, form.ReadIff field least place texts text)
    (hbits : Numeral.Digits 2 bits) {level : Level}
    (hresolve : (engine.index.resolve bits .null none).outcome = .ok ⟨form.scheme, level⟩)
    (htag : (engine.convert bits [] LevelType.tagEncoding.name).outcome = .ok tag) :
    ∃ reading text, engine.read bits none .null [] = .ok reading ∧
      reading.context.field? field = some (.text text) ∧
      (engine.convert tag [] LevelType.binary.name).outcome =
        if least ≤ text.length then .ok bits
        else .error (.noMatch (.noOption form.name .tagEncoding (Engine.plainValue tag))) := by
  obtain ⟨place, hplace, texts, hdecode, hback, hread, rfl⟩ :=
    h.exists_of_convert hengine hstrict hbits hresolve htag
  obtain ⟨text, hpacked⟩ := hpacked place hplace texts hdecode
  refine ⟨_, text, hread, hpacked.holds _ (h.holds_reading hplace hdecode []), ?_⟩
  split
  · next hle =>
    obtain ⟨hadmits, hfits⟩ := hpacked.read hle
    rw [h.convert_tag_eq hengine hscheme hplace hread hadmits hfits]
    exact h.convert_bits_binary hplace hread hadmits (hback hadmits)
  · next hle =>
    -- the packed field is too short for its slot at every place, so no option matches
    have hside : form.tag ∈ form.sides := by simp [sides]
    have htype : form.tag.type ≠ .onsHostname := by
      rw [h.type_eq.2.1]
      decide
    obtain ⟨-, -, -, hplain⟩ :=
      LevelForm.opens_cases (h.opens form.tag hside htype place hplace) texts
    have hunread : engine.read _ none _ [] = _ := (h.separates (by simp)).read_of_unread
      (by rw [hplain]; exact hpacked.unread (by omega)) (h.resolve_tag hengine
        hscheme hplace texts (.inl rfl))
    rw [h.type_eq.2.1] at hunread
    exact Engine.convert_of_unread hunread _

/-- Whatever reads a tag URI finds the texts of its fields, but for a line end behind the
    last one. -/
theorem Lawful.exists_of_read?_tag (h : form.Lawful) {start : Text}
    (hdotted : ∀ place ∈ form.places,
      form.tag.template place = .literal start :: Template.dotted (form.parts place))
    (hdotless : ∀ place ∈ form.places, ∀ part ∈ (form.parts place).dropLast,
      part.slot.dotless = true ∧ part.coding.dotless = true)
    {place other : Place} (hplace : place ∈ form.places) (hother : other ∈ form.places)
    {texts values : List Text} (hdecode : Part.Decode (form.parts place) texts) (hne : texts ≠ [])
    (hsame : (form.parts other).length = texts.length)
    (hread : (form.tag.template other).read? ((form.tag.template place).text texts) =
      some values) :
    List.Forall₂ Slot.Fits ((form.parts other).map Part.slot) values ∧
      ∃ front last ending, texts = front ++ [last ++ ending] ∧ values = front ++ [last] := by
  have hsep := (h.follows form.tag (by simp [sides]) other hother).separated
  rw [hdotted other hother] at hsep
  rw [hdotted place hplace, hdotted other hother] at hread
  obtain ⟨hfits, front, last, ending, -, htexts, hvalues⟩ :=
    Template.exists_of_read?_dotted hne hdecode.length_eq hsame hsep
      (Part.not_mem_of_decode (fun part hpart => (hdotless place hplace part hpart).2) hdecode)
      (fun part hpart => (hdotless other hother part hpart).1) hread
  exact ⟨hfits, front, last, ending, htexts, hvalues⟩

end TagForm

/-! ## Serial numbers -/

/-- A number that bits decode to is admitted. -/
theorem Coding.admits_of_number {form : NumberForm} {width : Nat} {text : Text}
    (h : (Coding.number form width).Decodable text) : (Coding.number form width).Admits text :=
  (Coding.decodable_iff_of_not_packed rfl).mp h

namespace Gs1Form

theorem dotless_sgtin198 : ∀ place ∈ sgtin198.tagForm.places,
    ∀ part ∈ (sgtin198.tagForm.parts place).dropLast,
      part.slot.dotless = true ∧ part.coding.dotless = true := by decide +kernel

/-- The tag URI of an SGTIN-198 is read exactly if there is a serial number. -/
theorem packed_sgtin198 {place : Place} (hplace : place ∈ sgtin198.tagForm.places)
    {texts : List Text} (hdecode : Part.Decode (sgtin198.tagForm.parts place) texts) :
    ∃ text, sgtin198.tagForm.ReadIff serialName 1 place texts text := by
  have hlawful := Builtin.lawful_gs1 .sgtin198 (by simp)
  obtain ⟨filter, _, hfilter, hkey, rfl⟩ := List.forall₂_cons_left_iff.mp hdecode
  obtain ⟨company, _, hcompany, hrest, rfl⟩ := List.forall₂_cons_left_iff.mp hkey
  obtain ⟨reference, _, hreference, hserials, rfl⟩ := List.forall₂_cons_left_iff.mp hrest
  obtain ⟨serial, _, hserial, hnil, rfl⟩ := List.forall₂_cons_left_iff.mp hserials
  cases hnil
  refine ⟨serial, fun context hholds => ?_, fun hle => ?_, fun hlt other hother => ?_⟩
  · obtain ⟨-, hholds⟩ := List.forall₂_cons.mp hholds
    obtain ⟨-, hholds⟩ := List.forall₂_cons.mp hholds
    obtain ⟨-, hholds⟩ := List.forall₂_cons.mp hholds
    exact (List.forall₂_cons.mp hholds).1
  · have hadmits : (Coding.packed .serial).Admits serial := by
      rcases hserial with hadmits | ⟨-, rfl⟩
      · exact hadmits
      · simp at hle
    have hadmits : Part.Admit (sgtin198.tagForm.parts place)
        [filter, company, reference, serial] :=
      .cons (Coding.admits_of_number hfilter) (.cons (Coding.admits_of_number hcompany)
        (.cons (Coding.admits_of_number hreference) (.cons hadmits .nil)))
    exact ⟨hadmits, Part.fits_texts (hlawful.suits place hplace) hadmits⟩
  · -- an empty serial number leaves nothing for the last field
    obtain rfl : serial = [] := List.length_eq_zero_iff.mp (by omega)
    refine Option.eq_none_iff_forall_ne_some.mpr fun values hread => ?_
    obtain ⟨hfits, front, last, ending, htexts, hvalues⟩ :=
      hlawful.tagForm.exists_of_read?_tag (fun _ _ => rfl) dotless_sgtin198 hplace hother hdecode
        (by simp) rfl hread
    obtain ⟨rfl, -⟩ : last = [] ∧ ending = [] := by
      simpa using congrArg List.getLast? htexts
    obtain ⟨_, _, -, hfits₁, rfl⟩ := List.forall₂_cons_left_iff.mp hfits
    obtain ⟨_, _, -, hfits₂, rfl⟩ := List.forall₂_cons_left_iff.mp hfits₁
    obtain ⟨_, _, -, hfits₃, rfl⟩ := List.forall₂_cons_left_iff.mp hfits₂
    obtain ⟨value, _, hvalue, hnil, rfl⟩ := List.forall₂_cons_left_iff.mp hfits₃
    cases hnil
    obtain rfl : value = [] := by simpa using congrArg List.getLast? hvalues
    exact absurd hvalue.1.1 (by simp)

end Gs1Form

/-! ## Supplier codes -/

namespace SingleForm

/-- A code with its slot: both kinds of slot take codes of five characters and more. -/
def CodeSlot (code : PackedForm) (slot : Slot) : Prop :=
  (code = .shortCode ∧ slot = .exactly PackedForm.shortCode.class_ 5) ∨
    (code = .longCode ∧ slot = codeSlot)

variable {code : PackedForm} {slot : Slot} {text : Text}

/-- A decoded code of five characters or more has room in a URI. -/
theorem CodeSlot.fits (h : CodeSlot code slot) (hdecodable : (Coding.packed code).Decodable text)
    (hle : 5 ≤ text.length) : (Coding.packed code).Admits text ∧ slot.Fits text := by
  have hadmits : code.Admits text := by
    rcases hdecodable with hadmits | ⟨-, rfl⟩
    · exact hadmits
    · simp at hle
  refine ⟨hadmits, ?_⟩
  rcases h with ⟨rfl, rfl⟩ | ⟨rfl, rfl⟩
  · exact ⟨hadmits.2.2.2 rfl, hadmits.2.1⟩
  · exact ⟨⟨hle, by simpa [PackedForm.count] using hadmits.2.2.1⟩, hadmits.2.1⟩

theorem CodeSlot.length_of_fits (h : CodeSlot code slot) (hfits : slot.Fits text) :
    5 ≤ text.length := by
  rcases h with ⟨-, rfl⟩ | ⟨-, rfl⟩
  · exact hfits.1.ge
  · exact hfits.1.1

/-- The tag URI of a Department of Defense identifier is read exactly if the code has five
    characters or more. -/
theorem packed_dod {form : SingleForm} (hlawful : form.tagForm.Lawful)
    {filterBits serialBits : Nat} (hparts : form.parts = dodParts filterBits code slot serialBits)
    (hslot : CodeSlot code slot)
    (hdotless : ∀ part ∈ form.parts.dropLast,
      part.slot.dotless = true ∧ part.coding.dotless = true)
    {texts : List Text} (hdecode : Part.Decode form.parts texts) :
    ∃ text, form.tagForm.ReadIff codeName 5 () texts text := by
  have hform : ∀ place, form.tagForm.parts place = dodParts filterBits code slot serialBits :=
    fun _ => hparts
  have hdecoded := hdecode
  rw [hparts] at hdecoded
  obtain ⟨filter, _, hfilter, hrest, rfl⟩ := List.forall₂_cons_left_iff.mp hdecoded
  obtain ⟨text, _, htext, hserials, rfl⟩ := List.forall₂_cons_left_iff.mp hrest
  obtain ⟨serial, _, hserial, hnil, rfl⟩ := List.forall₂_cons_left_iff.mp hserials
  cases hnil
  refine ⟨text, fun context hholds => ?_, fun hle => ?_, fun hlt other hother => ?_⟩
  · rw [hform] at hholds
    obtain ⟨-, hholds⟩ := List.forall₂_cons.mp hholds
    exact (List.forall₂_cons.mp hholds).1
  · rw [hform]
    obtain ⟨hadmits, hfits⟩ := hslot.fits htext hle
    have hfilter := Coding.admits_of_number hfilter
    have hserial := Coding.admits_of_number hserial
    exact ⟨.cons hfilter (.cons hadmits (.cons hserial .nil)),
      .cons (Coding.fits_of_suits rfl hfilter) (.cons hfits
        (.cons (Coding.fits_of_suits rfl hserial) .nil))⟩
  · -- a reader would find the same code, which is too short for it
    refine Option.eq_none_iff_forall_ne_some.mpr fun values hvalues => ?_
    have hlen : (form.tagForm.parts other).length = 3 := by rw [hform]; rfl
    obtain ⟨hfits, front, last, ending, htexts, hvalues⟩ :=
      hlawful.exists_of_read?_tag (fun _ _ => rfl) (fun _ _ => hdotless) (by simp [tagForm]) hother
        hdecode (by simp) hlen hvalues
    rw [hform] at hfits
    obtain ⟨_, _, -, hfits₁, rfl⟩ := List.forall₂_cons_left_iff.mp hfits
    obtain ⟨value, _, hvalue, hfits₂, rfl⟩ := List.forall₂_cons_left_iff.mp hfits₁
    obtain ⟨_, _, -, hnil, rfl⟩ := List.forall₂_cons_left_iff.mp hfits₂
    cases hnil
    have hfront : value = text := by
      have htext := congrArg List.dropLast htexts
      have hvalue := congrArg List.dropLast hvalues
      simp only [List.dropLast_concat] at htext hvalue
      rw [← htext] at hvalue
      simp at hvalue
      exact hvalue.2
    rw [hfront] at hvalue
    have := hslot.length_of_fits hvalue
    omega

end SingleForm

/-! ## Schemes of characters -/

/-- The schemes whose tags hold packed characters: the field that holds them, and the
    number of characters that a tag URI needs at least. -/
def packedFields : List (Text × Text × Nat) :=
  [("SGTIN-198", serialName, 1), ("USDOD-64", SingleForm.codeName, 5),
   ("USDOD-96", SingleForm.codeName, 5)]

/-- A scheme of characters is one of the forms. -/
theorem Builtin.packed_cases {scheme : Scheme} (hscheme : scheme ∈ Builtin.schemes) {field : Text}
    {least : Nat} (hname : (scheme.name, field, least) ∈ packedFields) :
    (scheme = Gs1Form.sgtin198.tagForm.scheme ∧ field = serialName ∧ least = 1) ∨
      (scheme = SingleForm.usdod64.tagForm.scheme ∧ field = SingleForm.codeName ∧ least = 5) ∨
        (scheme = SingleForm.usdod96.tagForm.scheme ∧ field = SingleForm.codeName ∧
          least = 5) := by
  simp only [packedFields, List.mem_cons, Prod.mk.injEq, List.not_mem_nil, or_false] at hname
  rcases hname with ⟨hname, hfield, hleast⟩ | ⟨hname, hfield, hleast⟩ | ⟨hname, hfield, hleast⟩
  · exact .inl ⟨eq_of_name hscheme (by simp [schemes]) hname, hfield, hleast⟩
  · exact .inr (.inl ⟨eq_of_name hscheme (by simp [schemes]) hname, hfield, hleast⟩)
  · exact .inr (.inr ⟨eq_of_name hscheme (by simp [schemes]) hname, hfield, hleast⟩)

/-- A strict engine converts the bits of a tag that holds packed characters to a tag URI
    that is converted back to the bits, if the characters are as many as the URI needs.
    Otherwise the URI matches no option. -/
theorem convert_tag_back {settings : Engine.Settings} {engine : Engine}
    (hengine : (Engine.builtin settings).outcome = .ok engine) (hstrict : settings.strict = true)
    {bits tag : Text} (hbits : Numeral.Digits 2 bits) {scheme : Scheme} {level : Level}
    (hresolve : (engine.index.resolve bits .null none).outcome = .ok ⟨scheme, level⟩)
    {field : Text} {least : Nat} (hname : (scheme.name, field, least) ∈ packedFields)
    (htag : (engine.convert bits [] LevelType.tagEncoding.name).outcome = .ok tag) :
    ∃ reading text, engine.read bits none .null [] = .ok reading ∧
      reading.context.field? field = some (.text text) ∧
      (engine.convert tag [] LevelType.binary.name).outcome =
        if least ≤ text.length then .ok bits
        else .error (.noMatch (.noOption scheme.name .tagEncoding (Engine.plainValue tag))) := by
  have hscheme := Engine.scheme_mem_of_resolve hengine hresolve
  rcases Builtin.packed_cases hscheme hname with ⟨rfl, rfl, rfl⟩ | ⟨rfl, rfl, rfl⟩ | ⟨rfl, rfl, rfl⟩
  · have hlawful := Builtin.lawful_gs1 .sgtin198 (by simp)
    exact hlawful.tagForm.convert_tag_of_packed hengine hstrict hscheme
      (fun place hplace texts => Gs1Form.packed_sgtin198 hplace) hbits hresolve htag
  · have hlawful := Builtin.lawful_single .usdod64 (by simp)
    exact hlawful.convert_tag_of_packed hengine hstrict hscheme
      (fun _ _ texts => SingleForm.packed_dod hlawful rfl (.inl ⟨rfl, rfl⟩) (by decide)) hbits
      hresolve htag
  · have hlawful := Builtin.lawful_single .usdod96 (by simp)
    exact hlawful.convert_tag_of_packed hengine hstrict hscheme
      (fun _ _ texts => SingleForm.packed_dod hlawful rfl (.inr ⟨rfl, rfl⟩) (by decide)) hbits
      hresolve htag

/-- The bits of a tag with a supplier code of five characters, which has a space in
    front. -/
def codeBits : Text := Text.join
  ["00101111", "0011", "001000000011001001010011001100010011100100110100",
   "001011011111110111000001110000110101"]

theorem convert_tag_back_code :
    ∃ engine scheme level, (Engine.builtin { strict := true }).outcome = .ok engine ∧
      (engine.index.resolve codeBits .null none).outcome = .ok ⟨scheme, level⟩ ∧
      (engine.convert codeBits [] LevelType.tagEncoding.name).outcome =
        .ok "urn:epc:tag:usdod-96:3.2S194.12345678901".toList ∧
      ∃ reading text, engine.read codeBits none .null [] = .ok reading ∧
        reading.context.field? SingleForm.codeName = some (.text text) ∧
        (engine.convert "urn:epc:tag:usdod-96:3.2S194.12345678901" []
            LevelType.binary.name).outcome =
          if 5 ≤ text.length then .ok codeBits
          else .error (.noMatch (.noOption scheme.name .tagEncoding
            (Engine.plainValue "urn:epc:tag:usdod-96:3.2S194.12345678901"))) := by
  have hengine := Engine.builtin_outcome { strict := true }
  refine ⟨_, SingleForm.usdod96.tagForm.scheme,
    SingleForm.usdod96.tagForm.level SingleForm.usdod96.binarySide, hengine, ?resolved, ?converted,
    convert_tag_back hengine rfl (by decide) ?resolved (by decide) ?converted⟩
  case resolved =>
    refine eq_ok_of_toOption ?_
    decide +kernel
  case converted =>
    refine eq_ok_of_toOption ?_
    decide +kernel

/-- The bits of an SGTIN-198 with a void serial number. -/
def voidSerialBits : Text :=
  Text.join ["00110110", "011", "101", "000010010101111011111101", "10101101111010011001"] ++
    List.replicate 140 '0'

/-- A strict engine converts a void serial number to a tag URI that it does not convert
    back. -/
theorem not_convert_tag_back_void :
    ¬ ∀ (settings : Engine.Settings) (engine : Engine) (bits tag : Text) (scheme : Scheme)
      (level : Level), (Engine.builtin settings).outcome = .ok engine → settings.strict = true →
        Numeral.Digits 2 bits →
        (engine.index.resolve bits .null none).outcome = .ok ⟨scheme, level⟩ →
        scheme.name ∈ packedFields.map Prod.fst →
        (engine.convert bits [] LevelType.tagEncoding.name).outcome = .ok tag →
          (engine.convert tag [] LevelType.binary.name).outcome = .ok bits := by
  intro h
  have hback := h { strict := true } _ voidSerialBits "urn:epc:tag:sgtin-198:3.0614141.712345."
    Gs1Form.sgtin198.tagForm.scheme (Gs1Form.sgtin198.tagForm.level Gs1Form.sgtin198.binarySide)
    (Engine.builtin_outcome _) rfl (by decide +kernel) ?resolved (by decide) ?converted
  · have hnone := congrArg Except.toOption hback
    revert hnone
    decide +kernel
  case resolved =>
    refine eq_ok_of_toOption ?_
    decide +kernel
  case converted =>
    refine eq_ok_of_toOption ?_
    decide +kernel

end EpcTag
