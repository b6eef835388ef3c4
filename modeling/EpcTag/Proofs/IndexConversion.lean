-- SUMMARY: Conversions of tags with an index: they come back with the company prefix of the table.
import EpcTag.Proofs.IndexedTags
import EpcTag.Proofs.SerialRoundTrip

/-!
# Conversions by way of an index

A tag of 64 bits comes back as the same tag URI as long as the digits that are asked
for are those of the company prefix that the table has for its index.
-/

namespace EpcTag

open Builtin (companyPrefixLengthKey)

/-- The tag URI of a trade item whose tag holds the index of its company prefix. -/
def indexedUri (filter : Nat) (company reference : Text) (serial : Nat) : Text :=
  Text.join ["urn:epc:tag:sgtin-64:", Text.ofNat filter, ".", company, ".", reference, ".",
    Text.ofNat serial]

namespace Gs1Form

variable {settings : Engine.Settings} {engine : Engine} {place : Place} {filter index serial : Nat}
  {company reference : Text}

theorem scheme_short : shortForm.scheme ∈ Builtin.schemes := by simp [Builtin.schemes]

theorem tagText_short (hcompany : Numeral.Digits 10 company)
    (hreference : Numeral.Digits 10 reference) :
    sgtin64.tagSide.text place (itemTexts filter company reference serial) =
      indexedUri filter company reference serial := by
  have hserial : UriEscape.escape (Text.ofNat serial) = Text.ofNat serial :=
    UriEscape.escape_of_digits (Numeral.digits_toDigits (by decide) le_rfl serial)
  have htext := @tagSide_text company reference sgtin64 place rfl (by decide) filter hcompany
    hreference (Text.ofNat serial)
  rw [hserial] at htext
  exact htext

/-- What the tag URI of an item is converted to, if the table leads its company prefix to
    an index and back. -/
theorem convert_indexed (hengine : (Engine.builtin settings).outcome = .ok engine)
    (hplace : place ∈ shortForm.places) (hfilter : filter ≤ 7) (hindex : index < 2 ^ 14)
    (hcompany : Numeral.Digits 10 company) (hcompanyLen : company.length = place.1.companyDigits)
    (hreference : Numeral.Digits 10 reference)
    (hreferenceLen : reference.length = 13 - place.1.companyDigits)
    (hvalue : Numeral.value 10 reference < 2 ^ 20) (hserial : serial < 2 ^ 25)
    (hlinks : engine.companyPrefixes.Links (Text.ofNat index) company) {params back : Params}
    (hparams : LevelIndex.IsHint (params.get Engine.tagLengthName))
    (hback : LevelIndex.IsHint (back.get Engine.tagLengthName))
    (hdigits : back.Says companyPrefixLengthKey place.1.companyDigits) :
    ∃ bits, (engine.convert (indexedUri filter company reference serial) params
        LevelType.binary.name).outcome = .ok bits ∧
      Numeral.Digits 2 bits ∧ bits.length = 64 ∧
      (engine.convert bits back LevelType.tagEncoding.name).outcome =
        .ok (indexedUri filter company reference serial) := by
  obtain ⟨hitem, hindexed, htexts⟩ := admit_short hplace hfilter hindex hcompany hcompanyLen
    hreference hreferenceLen hvalue hserial
  have hbinary : shortForm.binary ∈ shortForm.sides := by simp [TagForm.sides]
  have htag : shortForm.tag ∈ shortForm.sides := by simp [TagForm.sides]
  obtain ⟨context, hread, hholds⟩ := exists_read_uri params hplace htexts
    (TagForm.resolve_side hengine scheme_short htag (.inr rfl)
      ((indexedPlace place hplace).opens shortForm.tag (by simp)) _ hparams)
  obtain ⟨result, hreadBits, hholdsBits⟩ := exists_read_bits hplace hfilter hitem hindexed
    hlinks.1 hdigits.shown_lookup (TagForm.resolve_side hengine scheme_short hbinary (.inl rfl)
      ((indexedPlace place hplace).opens shortForm.binary (by simp)) _ hback)
  have hto := (Engine.convert_of_read hread _).trans
    (write_bits hplace hfilter hindex hitem hlinks.lookup_prefix hholds)
  have hfrom := (Engine.convert_of_read hreadBits _).trans (write_uri hplace htexts hholdsBits)
  rw [tagText_short hcompany hreference] at hto hfrom
  have hbits := Builtin.fills.2.2.isTag hplace
    (Part.fits_bits (indexedPlace place hplace).widths hindexed)
  exact ⟨_, hto, hbits.digits, Int.ofNat.inj hbits.length, hfrom⟩

end Gs1Form

/-- Whatever entries the company prefix table is made of, as long as they are different,
    the tag URI of an item is converted to a tag of 64 bits, and the tag is converted back
    to the same URI if the digits of the company prefix are asked for. -/
theorem convert_indexed_back {entries : List (Scalar × Text)}
    (hentries : CompanyPrefixTable.Indexed 14 entries) :
    ∃ table, CompanyPrefixTable.ofEntries entries = .ok table ∧
      ∀ (settings : Engine.Settings) (engine : Engine), settings.companyPrefixes = table →
        (Engine.builtin settings).outcome = .ok engine →
      ∀ params back : Params, LevelIndex.IsHint (params.get Engine.tagLengthName) →
        LevelIndex.IsHint (back.get Engine.tagLengthName) →
      ∀ entry ∈ entries, back.Says Builtin.companyPrefixLengthKey entry.2.length →
      ∀ (filter : Nat) (reference : Text) (serial : Nat), filter ≤ 7 →
        Numeral.Digits 10 reference → reference.length = 13 - entry.2.length →
        Numeral.value 10 reference < 2 ^ 20 → serial < 2 ^ 25 →
      ∃ bits, (engine.convert (indexedUri filter entry.2 reference serial) params
          LevelType.binary.name).outcome = .ok bits ∧
        Numeral.Digits 2 bits ∧ bits.length = 64 ∧
        (engine.convert bits back LevelType.tagEncoding.name).outcome =
          .ok (indexedUri filter entry.2 reference serial) := by
  obtain ⟨table, htable, hlinks⟩ := hentries.exists_ofEntries
  refine ⟨table, htable, ?_⟩
  intro settings engine hsettings hengine params back hparams hback entry hentry hdigits filter
    reference serial hfilter hreference hreferenceLen hvalue hserial
  obtain ⟨index, hindex, -, hlink⟩ := hlinks entry hentry
  obtain ⟨hleast, hmost⟩ := hentries.length entry hentry
  obtain ⟨place, hplace, hplaceDigits⟩ := Gs1Form.exists_place_short hleast hmost
  have hprefixes : engine.companyPrefixes = table :=
    (Engine.companyPrefixes_of_builtin hengine).trans hsettings
  rw [← hplaceDigits] at hdigits hreferenceLen
  exact Gs1Form.convert_indexed hengine hplace hfilter hindex (hentries.digits entry hentry)
    hplaceDigits.symm hreference hreferenceLen hvalue hserial (hprefixes ▸ hlink) hparams hback
    hdigits

/-- Company prefixes of different lengths. -/
def mixedPrefixes : List (Scalar × Text) :=
  [(.integer 158, "0073796".toList), (.text "+0_7", "614141".toList)]

theorem convert_indexed_back_mixed :
    CompanyPrefixTable.Indexed 14 mixedPrefixes ∧
      ∃ table, CompanyPrefixTable.ofEntries mixedPrefixes = .ok table ∧
        ∃ engine, (Engine.builtin { companyPrefixes := table, strict := true }).outcome =
            .ok engine ∧
          ∃ bits, (engine.convert (indexedUri 3 "614141" "0712345" 33554431) []
              LevelType.binary.name).outcome = .ok bits ∧
            Numeral.Digits 2 bits ∧ bits.length = 64 ∧
            (engine.convert bits [("companyprefixlength", .integer 6)]
                LevelType.tagEncoding.name).outcome =
              .ok (indexedUri 3 "614141" "0712345" 33554431) := by
  have hentries : CompanyPrefixTable.Indexed 14 mixedPrefixes :=
    { index := by
        intro entry hentry
        simp only [mixedPrefixes, List.mem_cons, List.not_mem_nil, or_false] at hentry
        rcases hentry with rfl | rfl
        · exact ⟨158, by decide, rfl⟩
        · exact ⟨7, by decide, by decide⟩
      digits := by decide
      length := by decide
      indexes := by decide
      prefixes := by decide }
  obtain ⟨table, htable, hconvert⟩ := convert_indexed_back hentries
  exact ⟨hentries, table, htable, _, Engine.builtin_outcome _,
    hconvert _ _ rfl (Engine.builtin_outcome _) [] [("companyprefixlength", .integer 6)]
      (.inl rfl) (.inl rfl) (.text "+0_7", "614141".toList) (by simp [mixedPrefixes]) (.inl rfl) 3
      "0712345" 33554431 (by decide) (by decide) rfl (by decide) (by decide)⟩

/-! ## Element strings -/

/-- Only the bits of an SGTIN-64 start with its header. -/
theorem Builtin.indexed_of_start : ∀ entry ∈ LevelIndex.allEntries Builtin.schemes,
    (entry.1.isPrefixOf "10" || "10".toList.isPrefixOf entry.1) = true →
      entry.2.scheme.name = Gs1Form.shortForm.scheme.name ∧ entry.2.level.type = .binary := by
  decide +kernel

namespace Gs1Form

variable {settings : Engine.Settings} {engine : Engine} {place : Place} {gtin serial : Text}

/-- Bits with the header of an SGTIN-64 are resolved to its binary level. -/
theorem eq_of_resolve_header (hengine : (Engine.builtin settings).outcome = .ok engine)
    {value : Text} (hheader : "10".toList <+: value) {hint : Scalar} {candidate : Candidate}
    (hresolve : (engine.index.resolve value hint none).outcome = .ok candidate) :
    candidate = ⟨shortForm.scheme, shortForm.level shortBinarySide⟩ := by
  obtain ⟨start, hmem, hprefix⟩ := Engine.exists_entry_of_resolve hengine hresolve
  have hstart := List.prefix_or_prefix_of_prefix (List.isPrefixOf_iff_prefix.mp hprefix) hheader
  obtain ⟨hname, htype⟩ := Builtin.indexed_of_start _ hmem (by
    rw [Bool.or_eq_true, List.isPrefixOf_iff_prefix, List.isPrefixOf_iff_prefix]
    exact hstart)
  obtain ⟨hscheme, hlevel, -⟩ := LevelIndex.mem_allEntries_iff.mp hmem
  obtain ⟨scheme, level⟩ := candidate
  obtain rfl : scheme = shortForm.scheme := Builtin.eq_of_name hscheme scheme_short hname
  obtain rfl : level = shortForm.level shortForm.binary :=
    TagForm.level_eq_of_type written_short.types (by simp [TagForm.sides]) hlevel htype
  rfl

/-- An element string is matched as one if its key has fourteen digits. -/
theorem match?_itemString_isSome_iff (hplace : place ∈ shortForm.places)
    (hgtin : Numeral.Digits 10 gtin) (hserial : Slot.number.Fits serial) :
    ((sgtin64.legacySide.option shortForm.key place).match? (itemString gtin serial)).isSome =
      true ↔ gtin.length = 14 := by
  have hside : sgtin64.legacySide ∈ shortForm.sides :=
    List.mem_append_right _ (List.mem_cons_self ..)
  have hfollows := written_short.follows sgtin64.legacySide hside place hplace
  rw [hfollows.match?_eq, Option.isSome_map]
  constructor
  · intro hmatched
    obtain ⟨captures, hread⟩ := Option.isSome_iff_exists.mp hmatched
    obtain ⟨hfits, ending, -, htext⟩ :=
      (Template.read?_eq_some_iff hfollows.separated).mp hread
    obtain ⟨key, _, hkey, hrest, rfl⟩ := List.forall₂_cons_left_iff.mp hfits
    obtain ⟨number, _, -, hnil, rfl⟩ := List.forall₂_cons_left_iff.mp hrest
    cases hnil
    -- both keys end at the first semicolon
    have hsplit : "gtin=".toList ++ (gtin ++ ';' :: ("serial=".toList ++ serial)) =
        "gtin=".toList ++ (key ++ ';' :: ("serial=".toList ++ (number ++ ending))) := by
      simpa [itemString, Text.join] using htext.trans (congrArg (· ++ ending)
        (legacyTemplate_text key number))
    have hgtinMark : ';' ∉ gtin := fun h => absurd (hgtin ';' h) (by decide)
    have hkeyMark : ';' ∉ key := fun h => absurd (List.all_eq_true.mp hkey.2 ';' h) (by decide)
    obtain ⟨rfl, -⟩ := Text.eq_of_append_mark hgtinMark hkeyMark (List.append_cancel_left hsplit)
    exact hkey.1
  · intro hlen
    have hfits : List.Forall₂ Slot.Fits sgtin64.legacyTemplate.slots [gtin, serial] :=
      .cons ⟨hlen, (Pattern.all_has_digitClass_iff gtin).mpr hgtin⟩ (.cons hserial .nil)
    rw [← legacyTemplate_text]
    exact Option.isSome_iff_exists.mpr ⟨_, Template.read?_text hfollows.separated hfits⟩

end Gs1Form

/-- What a strict engine converts the bits of an SGTIN-64 to has as many digits more than
    a GTIN as the company prefix of the table has more than are asked for. It is matched
    as an element string only if these are the same. -/
theorem convert_indexed_itemString {settings : Engine.Settings} {engine : Engine}
    (hengine : (Engine.builtin settings).outcome = .ok engine) (hstrict : settings.strict = true)
    (htable : ∀ entry ∈ settings.companyPrefixes.prefixes, Numeral.Digits 10 entry.2)
    {bits result : Text} (hbits : Numeral.Digits 2 bits) (hheader : "10".toList <+: bits)
    {params : Params}
    (hconvert : (engine.convert bits params LevelType.legacy.name).outcome = .ok result) :
    ∃ digits, (params.lookup companyPrefixLengthKey).map Scalar.shown = some (Text.ofNat digits) ∧
      ∃ company gtin serial,
        settings.companyPrefixes.prefixes.get?
          (Text.ofNat (Numeral.value 2 ((bits.drop 5).take 14))) = some company ∧
        result = Gs1Form.itemString gtin serial ∧ Numeral.Digits 10 gtin ∧
        gtin.length + digits = 14 + company.length ∧
        ∃ level option, Engine.outputOption Gs1Form.shortForm.scheme LevelType.legacy.name
            (Text.ofNat digits) = .ok (level, option) ∧
          ((option.match? result).isSome = true ↔ company.length = digits) := by
  obtain ⟨reading, hread, hwrite⟩ := Engine.convert_eq_ok_iff.mp hconvert
  obtain ⟨candidate, hresolve, -⟩ := bind_eq_ok_iff.mp hread
  rw [Engine.plainValue_of_digits hbits] at hresolve
  obtain rfl := Gs1Form.eq_of_resolve_header hengine hheader hresolve
  rw [← Engine.plainValue_of_digits hbits] at hresolve
  obtain ⟨place, hplace, hkey, filter, company, reference, serial, context, hcompany, hitem,
    hholds, rfl⟩ := Gs1Form.exists_of_read_bits ((Engine.strict_of_builtin hengine).trans hstrict)
      hbits hresolve hread
  rw [Engine.companyPrefixes_of_builtin hengine] at hcompany
  have hdigits := htable _ (Pairs.mem_of_get? hcompany)
  obtain ⟨gtin, hwritten, hgtin, hlen⟩ := @Gs1Form.exists_write_itemString place company
    reference engine hplace context serial (List.forall₂_cons.mp hholds).2 hdigits hitem
  obtain rfl := Except.ok.inj (hwrite.symm.trans hwritten)
  obtain ⟨-, hserial⟩ := Gs1Form.fits_item hplace hitem
  have hside : Gs1Form.sgtin64.legacySide ∈ Gs1Form.shortForm.sides :=
    List.mem_append_right _ (List.mem_cons_self ..)
  refine ⟨place.1.companyDigits, hkey, company, gtin, serial, hcompany, rfl, hgtin, hlen, _, _,
    Gs1Form.written_short.outputOption_eq Gs1Form.sgtin64.legacySide hside hplace, ?_⟩
  rw [Gs1Form.match?_itemString_isSome_iff hplace hgtin hserial]
  omega

/-- A strict engine with a company prefix of seven digits. -/
def itemSettings : Engine.Settings where
  companyPrefixes := ({} : CompanyPrefixTable).addEntry "158" "0073796"
  strict := true

/-- The bits of an item with this company prefix. -/
def indexedBits : Text :=
  Text.join ["10", "011", "00000010011110", "00111101010001111010", "0000000000000000000000001"]

theorem convert_indexed_itemString_seven :
    ∃ engine, (Engine.builtin itemSettings).outcome = .ok engine ∧
      (engine.convert indexedBits [("companyprefixlength", .integer 7)]
        LevelType.legacy.name).outcome = .ok (Gs1Form.itemString "20073796510026" "1") ∧
      ∃ digits, (List.lookup companyPrefixLengthKey
          [("companyprefixlength".toList, Scalar.integer 7)]).map Scalar.shown =
            some (Text.ofNat digits) ∧
        ∃ company gtin serial,
          itemSettings.companyPrefixes.prefixes.get?
            (Text.ofNat (Numeral.value 2 ((indexedBits.drop 5).take 14))) = some company ∧
          Gs1Form.itemString "20073796510026" "1" = Gs1Form.itemString gtin serial ∧
          Numeral.Digits 10 gtin ∧ gtin.length + digits = 14 + company.length ∧
          ∃ level option, Engine.outputOption Gs1Form.shortForm.scheme LevelType.legacy.name
              (Text.ofNat digits) = .ok (level, option) ∧
            ((option.match? (Gs1Form.itemString "20073796510026" "1")).isSome = true ↔
              company.length = digits) := by
  have hengine := Engine.builtin_outcome itemSettings
  refine ⟨_, hengine, ?converted, convert_indexed_itemString hengine rfl (by decide) (by decide)
    (by decide) ?converted⟩
  refine eq_ok_of_toOption ?_
  decide +kernel

/-- A strict engine that is asked for six digits of this company prefix makes up an element
    string with a key of fifteen digits, which is not matched as one. -/
theorem convert_indexed_itemString_fifteen :
    CompanyPrefixTable.ofEntries [(.text "158", "0073796".toList)] =
        .ok itemSettings.companyPrefixes ∧
      ∃ engine level option, (Engine.builtin itemSettings).outcome = .ok engine ∧
        (engine.convert indexedBits [("companyprefixlength", .text "6")]
          LevelType.legacy.name).outcome = .ok (Gs1Form.itemString "000737962510024" "1") ∧
        "000737962510024".toList.length = 15 ∧
        Engine.outputOption Gs1Form.shortForm.scheme LevelType.legacy.name "6" =
          .ok (level, option) ∧
        option.match? (Gs1Form.itemString "000737962510024" "1") = none := by
  obtain ⟨place, hplace, hdigits⟩ := Gs1Form.exists_place_short (by decide : 6 ≤ 6) (by decide)
  have hside : Gs1Form.sgtin64.legacySide ∈ Gs1Form.shortForm.sides :=
    List.mem_append_right _ (List.mem_cons_self ..)
  have houtput := Gs1Form.written_short.outputOption_eq Gs1Form.sgtin64.legacySide hside hplace
  rw [show Gs1Form.shortForm.key place = "6" from congrArg Text.ofNat hdigits] at houtput
  refine ⟨rfl, _, _, _, Engine.builtin_outcome _, ?converted, rfl, houtput, ?_⟩
  case converted =>
    refine eq_ok_of_toOption ?_
    decide +kernel
  rw [← Option.not_isSome_iff_eq_none,
    Gs1Form.match?_itemString_isSome_iff hplace (by decide) ⟨by decide, by decide⟩]
  decide

end EpcTag
