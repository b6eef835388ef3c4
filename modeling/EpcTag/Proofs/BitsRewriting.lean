-- SUMMARY: Tags that are converted to bits again: which bits stay, and the two kinds of field that lose theirs.
import EpcTag.Proofs.TagConversion

/-!
# Bits to bits

A conversion of bits to bits decodes every field and encodes it again. That gives the
bits that were there, even where a value is out of range and an engine that is not
strict passes it on. Two kinds of field are exceptions, because their texts hold
less than their bits. A reference for which the company prefix leaves no digits has
no text at all, and is written as zero. A supplier code without characters is filled
up with spaces before it is written.
-/

namespace EpcTag

/-! ## Fields -/

namespace Coding

/-- The bits of a field after they were decoded and encoded again. -/
def recoded : Coding → Text → Text
  | .number (.padded 0) width, _ => List.replicate width '0'
  | .packed .longCode, bits => if '1' ∈ bits then bits else PackedForm.longCode.bits []
  | _, bits => bits

/-- Does a field always keep its bits? -/
def keeps : Coding → Bool
  | .number (.padded 0) _ | .packed .longCode => false
  | _ => true

variable {coding : Coding} {validator : Validator} {name : Text} {group tagGroup : Nat}
  {text bits : Text}

theorem recoded_of_keeps (h : coding.keeps = true) (bits : Text) : coding.recoded bits = bits := by
  unfold keeps at h
  split at h
  · cases h
  · cases h
  · next hnumber hpacked =>
    unfold recoded
    split
    · exact absurd rfl (hnumber _)
    · exact absurd rfl hpacked
    · rfl

/-- The text that bits decode to has the bits that are encoded. -/
theorem bits_of_decode (hwidth : 0 < coding.width) (hdigits : Numeral.Digits 2 bits)
    (hlen : bits.length = coding.width)
    (h : ((coding.binaryField name group).decode validator (some (coding.textField name tagGroup))
      bits).outcome = .ok text) : coding.bits text = coding.recoded bits := by
  cases coding with
  | number form width =>
    obtain ⟨-, rfl⟩ := (Field.decode_number_iff hdigits).mp h
    have hsame := Numeral.padded_value (by decide) (by decide) hwidth hdigits hlen
    cases form with
    | digit =>
      rw [Coding.bits, NumberForm.numeral, Numeral.value_toDigits (by decide) le_rfl]
      exact hsame
    | plain =>
      rw [Coding.bits, NumberForm.numeral, Numeral.value_toDigits (by decide) le_rfl]
      exact hsame
    | padded digits =>
      cases digits with
      | zero => exact Numeral.padded_zero (by decide) hwidth
      | succ digits =>
        rw [Coding.bits, NumberForm.numeral, if_neg (Nat.succ_ne_zero digits),
          Numeral.value_padded (by decide) le_rfl]
        exact hsame
  | packed form =>
    rcases Field.bits_of_decode_packed hdigits hlen h with ⟨hone, -, -, -, hbits⟩ | ⟨hone, rfl⟩
    · cases form with
      | serial => exact hbits
      | shortCode => exact hbits
      | longCode => exact hbits.trans (if_pos hone).symm
    · -- only zeros: the text is empty, and a long code is filled with spaces again
      have hzeros := Bits.eq_replicate_of_not_mem hdigits hone
      rw [hlen] at hzeros
      cases form with
      | serial => exact hzeros.symm
      | shortCode => exact hzeros.symm
      | longCode => exact (if_neg hone).symm

/-- What bits decode to can be encoded, whether it passes the checks or is passed on. -/
theorem encode_of_decode (hwidth : 0 < coding.width) (hdigits : Numeral.Digits 2 bits)
    (hlen : bits.length = coding.width)
    (h : ((coding.binaryField name group).decode validator (some (coding.textField name tagGroup))
      bits).outcome = .ok text) :
    ((coding.binaryField name group).encode validator (some (coding.textField name tagGroup))
      (.text text)).outcome = .ok (coding.recoded bits) := by
  rw [← bits_of_decode hwidth hdigits hlen h]
  cases coding with
  | number form width =>
    obtain ⟨hle, rfl⟩ := (Field.decode_number_iff hdigits).mp h
    have hlt := Numeral.value_lt hdigits
    rw [hlen] at hlt
    exact Field.encode_number hwidth hle hlt
  | packed form =>
    obtain ⟨-, -, -, hall⟩ := Field.decode_packed_iff.mp h
    refine Field.encode_packed hall ?_
    rcases Field.bits_of_decode_packed hdigits hlen h with ⟨-, -, hcount, -⟩ | ⟨-, rfl⟩
    · exact hcount
    · exact Nat.zero_le _

/-- A strict validator refuses bits of a reference without digits that are not zero. -/
theorem recoded_of_strict (hstrict : validator.strict = true) (hwidth : 0 < coding.width)
    (hdigits : Numeral.Digits 2 bits) (hlen : bits.length = coding.width)
    (hlong : coding ≠ .packed .longCode)
    (h : ((coding.binaryField name group).decode validator (some (coding.textField name tagGroup))
      bits).outcome = .ok text) : coding.recoded bits = bits := by
  unfold recoded
  split
  · next width =>
    obtain ⟨hle, -⟩ := (Field.decode_number_iff hdigits).mp h
    have hzero : Numeral.value 2 bits = 0 := by
      have := hle hstrict
      simpa [NumberForm.maximum] using this
    have hsame := Numeral.padded_value (by decide) (by decide) hwidth hdigits hlen
    rw [hzero] at hsame
    rw [← hsame]
    exact (Numeral.padded_zero (by decide) hwidth).symm
  · exact absurd rfl hlong
  · rfl

end Coding

namespace Part

variable {parts : List Part} {captured texts : List Text} {group : Nat} {validator : Validator}
  {tagOption : Option LevelOption}

/-- The bits of fields after they were decoded and encoded again. -/
def recoded (parts : List Part) (captured : List Text) : List Text :=
  List.zipWith (fun part bits => part.coding.recoded bits) parts captured

theorem recoded_of_keeps (hkeeps : ∀ part ∈ parts, part.coding.keeps = true)
    (hlen : captured.length = parts.length) : recoded parts captured = captured := by
  induction parts generalizing captured with
  | nil => exact (List.length_eq_zero_iff.mp hlen).symm
  | cons part parts ih =>
    cases captured with
    | nil => simp at hlen
    | cons bits captured =>
      change part.coding.recoded bits :: recoded parts captured = _
      rw [Coding.recoded_of_keeps (hkeeps part (by simp)),
        ih (fun other hother => hkeeps other (by simp [hother])) (by simpa using hlen)]

/-- Fields that are decoded can be encoded, and a strict validator lets all but supplier
    codes keep their bits. -/
theorem codes_recoded (htag : InTag tagOption parts)
    (hwidth : ∀ part ∈ parts, 0 < part.coding.width)
    (hcaptured : List.Forall₂ Slot.Fits (parts.map fun part => part.coding.bitSlot) captured)
    (h : LevelOption.Codes (LevelOption.reading validator true tagOption)
      (binaryFields group parts) captured texts) :
    LevelOption.Codes (LevelOption.encoding validator tagOption) (binaryFields group parts) texts
        (recoded parts captured) ∧
      (validator.strict = true → (∀ part ∈ parts, part.coding ≠ .packed .longCode) →
        recoded parts captured = captured) := by
  induction parts generalizing group captured texts with
  | nil =>
    cases hcaptured
    cases texts with
    | nil => exact ⟨trivial, fun _ _ => rfl⟩
    | cons text texts => exact h.elim
  | cons part parts ih =>
    obtain ⟨bits, captured, hbits, hrests, rfl⟩ := List.forall₂_cons_left_iff.mp hcaptured
    obtain ⟨hdigits, hlen⟩ := Coding.fits_bitSlot_iff.mp hbits
    cases texts with
    | nil => exact h.elim
    | cons text texts =>
      obtain ⟨htext, hrest⟩ := h
      obtain ⟨number, hnumber⟩ := htag part (by simp)
      rw [LevelOption.reading, Coding.binaryField_name, hnumber] at htext
      have hpos := hwidth part (by simp)
      obtain ⟨hcodes, hstays⟩ := ih (fun other hother => htag other (by simp [hother]))
        (fun other hother => hwidth other (by simp [hother])) hrests hrest
      -- what the rest comes to is known; here the first field is encoded again
      refine ⟨⟨?_, hcodes⟩, fun hstrict hlong => ?_⟩
      · rw [LevelOption.encoding, Coding.binaryField_name, hnumber]
        exact Coding.encode_of_decode hpos hdigits hlen htext
      · change part.coding.recoded bits :: recoded parts captured = bits :: captured
        rw [Coding.recoded_of_strict hstrict hpos hdigits hlen (hlong part (by simp)) htext,
          hstays hstrict fun other hother => hlong other (by simp [hother])]

end Part

/-! ## Tags -/

/-- Bits that are converted to bits are those of a place, and they are written again field
    by field. -/
theorem TagForm.Lawful.exists_of_convert_binary {Place : Type} {form : TagForm Place}
    (h : form.Lawful) {settings : Engine.Settings} {engine : Engine}
    (hengine : (Engine.builtin settings).outcome = .ok engine) {params : Params}
    {bits result : Text} (hbits : Numeral.Digits 2 bits) {level : Level}
    (hresolve : (engine.index.resolve bits (params.get Engine.tagLengthName) none).outcome =
      .ok ⟨form.scheme, level⟩)
    (hresult : (engine.convert bits params LevelType.binary.name).outcome = .ok result) :
    ∃ place ∈ form.places, ∃ captured,
      List.Forall₂ Slot.Fits ((form.parts place).map fun part => part.coding.bitSlot) captured ∧
      bits = form.binary.text place captured ∧
      result = form.binary.text place (Part.recoded (form.parts place) captured) ∧
      (settings.strict = true → (∀ part ∈ form.parts place, part.coding ≠ .packed .longCode) →
        result = bits) := by
  rw [h.level_of_resolve hengine hbits hresolve] at hresolve
  rw [← Engine.plainValue_of_digits hbits] at hresolve
  obtain ⟨reading, hread, hwrite⟩ := Engine.convert_eq_ok_iff.mp hresult
  obtain ⟨place, hplace, captured, texts, hfits, hvalue, hcodes, rfl⟩ :=
    h.exists_of_read_binary hbits hresolve hread
  obtain ⟨hagain, hstays⟩ := Part.codes_recoded (h.inTag hplace) (h.widths place hplace) hfits hcodes
  have hlen : ((form.parts place).map Part.name).length = texts.length := by
    have := hcodes.length_eq.2
    rwa [← List.length_map Field.name, Part.names_binaryFields] at this
  have hholds : (form.context params place ((form.parts place).map Part.name) texts).Holds
      ((form.parts place).map Part.name) texts :=
    Engine.holds_fieldContext _ _ _ (h.names_nodup hplace) hlen
  have hresult : result = form.binary.text place (Part.recoded (form.parts place) captured) :=
    Except.ok.inj (hwrite.symm.trans (h.write_binary_of_codes hplace hholds hagain))
  refine ⟨place, hplace, captured, hfits, hvalue, hresult, fun hstrict hlong => ?_⟩
  rw [hresult, hstays ((Engine.strict_of_builtin hengine).trans hstrict) hlong, hvalue]

/-! ## The built-in schemes -/

namespace Text

/-- A text with `patch` in place of what it has from `start` on. -/
def overwrite (text : Text) (start : Nat) (patch : Text) : Text :=
  text.take start ++ patch ++ text.drop (start + patch.length)

variable {before middle after : Text} {start : Nat}

theorem overwrite_append {patch : Text} (hstart : before.length = start)
    (hlen : middle.length = patch.length) :
    overwrite (before ++ (middle ++ after)) start patch = before ++ (patch ++ after) := by
  rw [overwrite, List.take_left' hstart, ← List.append_assoc before middle, List.drop_left',
    List.append_assoc]
  rw [List.length_append, hstart, hlen]

theorem take_drop_append {count : Nat} (hstart : before.length = start)
    (hcount : middle.length = count) :
    ((before ++ (middle ++ after)).drop start).take count = middle := by
  rw [List.drop_left' hstart, List.take_left' hcount]

end Text

/-- The bits of a tag after they were read and written again: behind a company prefix of
    twelve digits (partition zero) the reference is zero, and a supplier code without
    characters is six spaces. -/
def rewrittenBits (name bits : Text) : Text :=
  if name = "SGLN-96" ∧ (bits.drop 11).take 3 = "000" then bits.overwrite 54 "0"
  else if name = "GRAI-96" ∧ (bits.drop 11).take 3 = "000" then bits.overwrite 54 "0000"
  else if name = "USDOD-96" ∧ '1' ∉ (bits.drop 12).take 48 then
    bits.overwrite 12 (Compaction.eight.pack "      ")
  else bits

theorem rewrittenBits_of_not_mem {name : Text}
    (h : name ∉ ["SGLN-96".toList, "GRAI-96".toList, "USDOD-96".toList]) (bits : Text) :
    rewrittenBits name bits = bits := by
  simp only [List.mem_cons, List.not_mem_nil, or_false, not_or] at h
  rw [rewrittenBits, if_neg fun heq => h.1 heq.1, if_neg fun heq => h.2.1 heq.1,
    if_neg fun heq => h.2.2 heq.1]

theorem rewrittenBits_usdod96 (bits : Text) :
    rewrittenBits "USDOD-96" bits =
      if '1' ∉ (bits.drop 12).take 48 then bits.overwrite 12 (Compaction.eight.pack "      ")
      else bits := by
  have hsgln : ("USDOD-96" : Text) ≠ "SGLN-96" := by decide
  have hgrai : ("USDOD-96" : Text) ≠ "GRAI-96" := by decide
  simp only [rewrittenBits, hsgln, hgrai, false_and, if_false, true_and]

namespace Gs1Form

variable {form : Gs1Form} {place : Place}

/-- The header and the number of the partition have the same widths in all GS1 tags, and where a
    company prefix leaves no digits for the reference, the partition has number zero. -/
theorem layout : ∀ form ∈ sgtin198 :: numeric, ∀ place ∈ form.tagForm.places,
    form.header.length = 8 ∧ (Builtin.bitText place.2 3).length = 3 ∧
      (place.1.referenceDigits = 0 →
        Builtin.bitText place.2 3 = "000" ∧ place.1.companyBits.getD 64 = 40 ∧
          place.1.companyDigits ≠ 0 ∧
            ((form.name = "SGLN-96" ∧ place.1.referenceBits = 1) ∨
              (form.name = "GRAI-96" ∧ place.1.referenceBits = 4))) := by decide +kernel

/-- All fields of the other partitions keep their bits. -/
theorem kept : ∀ form ∈ sgtin198 :: numeric, ∀ place ∈ form.tagForm.places,
    place.1.referenceDigits ≠ 0 →
      (∀ part ∈ form.parts place, part.coding.keeps = true) ∧ form.name ≠ "USDOD-96" ∧
        (form.name = "SGLN-96" ∨ form.name = "GRAI-96" →
          Builtin.bitText place.2 3 ≠ "000") := by decide +kernel

/-- A serial number keeps its bits. -/
theorem serial_keeps (form : Gs1Form) : ∀ part ∈ form.serialParts, part.coding.keeps = true := by
  intro part hpart
  obtain ⟨serial, -, rfl⟩ := List.mem_map.mp hpart
  cases serial <;> rfl

/-- No GS1 tag has a supplier code. -/
theorem not_longCode (form : Gs1Form) (place : Place) :
    ∀ part ∈ form.parts place, part.coding ≠ .packed .longCode := by
  intro part hpart
  simp only [parts, List.mem_cons] at hpart
  rcases hpart with rfl | rfl | rfl | hpart
  · exact Coding.noConfusion
  · exact Coding.noConfusion
  · exact Coding.noConfusion
  · intro heq
    have hkeeps := form.serial_keeps part hpart
    rw [heq] at hkeeps
    cases hkeeps

/-- The bits of a tag: header, filter, partition, company prefix, reference and the rest. -/
theorem binaryText_cons (form : Gs1Form) (place : Place) (serials : List Text) :
    ∃ rest, ∀ filter company reference : Text,
      form.binarySide.text place (filter :: company :: reference :: serials) =
        (form.header ++ filter) ++ (Builtin.bitText place.2 3 ++
          (company ++ (reference ++ rest))) := by
  refine ⟨Template.text (bitPieces form.serialParts ++
    if form.reserved = 0 then [] else [.literal (List.replicate form.reserved '0')]) serials, ?_⟩
  intro filter company reference
  rw [List.append_assoc]
  rfl

/-- A reference without digits is written as zero, and the other fields keep their bits. -/
theorem recoded_of_idle (hcompany : place.1.companyDigits ≠ 0)
    (hreference : place.1.referenceDigits = 0) (filter company reference : Text)
    {serials : List Text} (hlen : serials.length = form.serialParts.length) :
    Part.recoded (form.parts place) (filter :: company :: reference :: serials) =
      filter :: company :: List.replicate place.1.referenceBits '0' :: serials := by
  have hcompanyKeeps : (companyPart place).coding.keeps = true := by
    rw [companyPart]
    cases hdigits : place.1.companyDigits with
    | zero => exact absurd hdigits hcompany
    | succ digits => rfl
  have hidle : (form.referencePart place).coding.recoded reference =
      List.replicate place.1.referenceBits '0' := by
    rw [referencePart, hreference]
    rfl
  change filter :: (companyPart place).coding.recoded company ::
    (form.referencePart place).coding.recoded reference ::
      Part.recoded form.serialParts serials = _
  rw [Coding.recoded_of_keeps hcompanyKeeps, hidle, Part.recoded_of_keeps form.serial_keeps hlen]

/-- The bits of a GS1 tag are written again. -/
theorem text_recoded (hform : form ∈ sgtin198 :: numeric) (hplace : place ∈ form.tagForm.places)
    {captured : List Text}
    (hfits : List.Forall₂ Slot.Fits ((form.parts place).map fun part => part.coding.bitSlot)
      captured) :
    form.binarySide.text place (Part.recoded (form.parts place) captured) =
      rewrittenBits form.name (form.binarySide.text place captured) := by
  obtain ⟨filter, _, hfilter, hkey, rfl⟩ := List.forall₂_cons_left_iff.mp hfits
  obtain ⟨company, _, hcompany, hrest, rfl⟩ := List.forall₂_cons_left_iff.mp hkey
  obtain ⟨reference, serials, hreference, hserials, rfl⟩ := List.forall₂_cons_left_iff.mp hrest
  have hfilter : filter.length = 3 := (Coding.fits_bitSlot_iff.mp hfilter).2
  have hcompany : company.length = place.1.companyBits.getD 64 :=
    (Coding.fits_bitSlot_iff.mp hcompany).2
  have hreference : reference.length = place.1.referenceBits :=
    (Coding.fits_bitSlot_iff.mp hreference).2
  have hlen : serials.length = form.serialParts.length := by
    rw [← hserials.length_eq, List.length_map]
  obtain ⟨rest, htext⟩ := form.binaryText_cons place serials
  obtain ⟨hheader, hthree, hidle⟩ := layout form hform place hplace
  have hpartition : ((form.binarySide.text place
      (filter :: company :: reference :: serials)).drop 11).take 3 =
        Builtin.bitText place.2 3 := by
    rw [htext]
    exact Text.take_drop_append (by rw [List.length_append, hheader, hfilter]) hthree
  rw [rewrittenBits, hpartition]
  by_cases hzero : place.1.referenceDigits = 0
  · -- the reference has no digits, so its bits are lost and others take their place
    obtain ⟨hnumber, hcompanyBits, hdigits, hname⟩ := hidle hzero
    have hoverwrite {patch : Text} (hlen : reference.length = patch.length) :
        form.binarySide.text place (filter :: company :: patch :: serials) =
          (form.binarySide.text place (filter :: company :: reference :: serials)).overwrite 54
            patch := by
      have hsplit (reference : Text) :
          form.binarySide.text place (filter :: company :: reference :: serials) =
            (form.header ++ filter ++ Builtin.bitText place.2 3 ++ company) ++
              (reference ++ rest) := by
        rw [htext]
        simp only [List.append_assoc]
      rw [hsplit, hsplit, Text.overwrite_append _ hlen]
      simp only [List.length_append, hheader, hfilter, hcompany, hcompanyBits, hthree]
    rw [recoded_of_idle hdigits hzero _ _ _ hlen]
    rcases hname with ⟨hname, hbits⟩ | ⟨hname, hbits⟩
    · rw [if_pos ⟨hname, hnumber⟩, hbits]
      exact hoverwrite (hreference.trans hbits)
    · rw [hname, if_neg fun heq => absurd heq.1 (by decide), if_pos ⟨rfl, hnumber⟩, hbits]
      exact hoverwrite (hreference.trans hbits)
  · -- every field keeps its bits
    obtain ⟨hkeeps, hcode, hnumber⟩ := kept form hform place hplace hzero
    rw [Part.recoded_of_keeps hkeeps (by simpa [parts] using hlen),
      if_neg fun heq => hnumber (.inl heq.1) heq.2, if_neg fun heq => hnumber (.inr heq.1) heq.2,
      if_neg fun heq => hcode heq.1]

end Gs1Form

namespace SingleForm

theorem keeps_bits : ∀ form ∈ [gid96, usdod64], ∀ part ∈ form.parts,
    part.coding.keeps = true := by decide

/-- The bits of a supplier code without characters are written as spaces. -/
theorem text_recoded_usdod96 {captured : List Text}
    (hfits : List.Forall₂ Slot.Fits (usdod96.parts.map fun part => part.coding.bitSlot) captured) :
    usdod96.binarySide.text () (Part.recoded usdod96.parts captured) =
      rewrittenBits usdod96.name (usdod96.binarySide.text () captured) := by
  obtain ⟨filter, _, hfilter, hkey, rfl⟩ := List.forall₂_cons_left_iff.mp hfits
  obtain ⟨code, _, hcode, hrest, rfl⟩ := List.forall₂_cons_left_iff.mp hkey
  obtain ⟨serial, _, -, hnil, rfl⟩ := List.forall₂_cons_left_iff.mp hrest
  obtain rfl := List.forall₂_nil_left_iff.mp hnil
  have hfilter : filter.length = 4 := (Coding.fits_bitSlot_iff.mp hfilter).2
  have hcode : code.length = 48 := (Coding.fits_bitSlot_iff.mp hcode).2
  have hrecoded : Part.recoded usdod96.parts [filter, code, serial] =
      [filter, if '1' ∈ code then code else Compaction.eight.pack "      ", serial] := rfl
  have htext (code : Text) : usdod96.binarySide.text () [filter, code, serial] =
      (usdod96.header ++ filter) ++ (code ++ serial) := by
    change usdod96.header ++ (filter ++ (code ++ (serial ++ []))) = _
    rw [List.append_nil, List.append_assoc]
  have hstart : (usdod96.header ++ filter).length = 12 := by
    rw [List.length_append, hfilter]
    rfl
  have hslice : ((usdod96.binarySide.text () [filter, code, serial]).drop 12).take 48 = code := by
    rw [htext]
    exact Text.take_drop_append hstart hcode
  have hname : usdod96.name = "USDOD-96" := rfl
  rw [hrecoded, hname, rewrittenBits_usdod96, hslice]
  by_cases hone : '1' ∈ code
  · rw [if_pos hone, if_neg (not_not_intro hone)]
  · rw [if_neg hone, if_pos hone, htext, htext, Text.overwrite_append hstart]
    rw [hcode]
    rfl

end SingleForm

/-! ## Conversions -/

section
variable {settings : Engine.Settings} {engine : Engine} {params : Params} {bits result : Text}
  {level : Level}

theorem Gs1Form.eq_rewritten {form : Gs1Form} (hform : form ∈ sgtin198 :: numeric)
    (hengine : (Engine.builtin settings).outcome = .ok engine) (hbits : Numeral.Digits 2 bits)
    (hresolve : (engine.index.resolve bits (params.get Engine.tagLengthName) none).outcome =
      .ok ⟨form.tagForm.scheme, level⟩)
    (hresult : (engine.convert bits params LevelType.binary.name).outcome = .ok result) :
    result = rewrittenBits form.name bits ∧ (settings.strict = true → result = bits) := by
  obtain ⟨place, hplace, captured, hfits, rfl, rfl, hstays⟩ :=
    (Builtin.lawful_gs1 form hform).tagForm.exists_of_convert_binary hengine hbits hresolve hresult
  exact ⟨text_recoded hform hplace hfits, fun hstrict => hstays hstrict (form.not_longCode place)⟩

theorem SingleForm.eq_rewritten {form : SingleForm} (hform : form ∈ [gid96, usdod64, usdod96])
    (hengine : (Engine.builtin settings).outcome = .ok engine) (hbits : Numeral.Digits 2 bits)
    (hresolve : (engine.index.resolve bits (params.get Engine.tagLengthName) none).outcome =
      .ok ⟨form.tagForm.scheme, level⟩)
    (hresult : (engine.convert bits params LevelType.binary.name).outcome = .ok result) :
    result = rewrittenBits form.name bits ∧
      (settings.strict = true → form.name ≠ "USDOD-96" → result = bits) := by
  obtain ⟨place, -, captured, hfits, rfl, rfl, -⟩ :=
    (Builtin.lawful_single form hform).exists_of_convert_binary hengine hbits hresolve hresult
  have hkept (hkeeps : ∀ part ∈ form.parts, part.coding.keeps = true) :
      Part.recoded (form.tagForm.parts place) captured = captured :=
    Part.recoded_of_keeps hkeeps (by rw [← hfits.length_eq, List.length_map])
  simp only [List.mem_cons, List.not_mem_nil, or_false] at hform
  rcases hform with rfl | rfl | rfl
  · rw [hkept (keeps_bits _ (by simp))]
    exact ⟨(rewrittenBits_of_not_mem (by decide) _).symm, fun _ _ => rfl⟩
  · rw [hkept (keeps_bits _ (by simp))]
    exact ⟨(rewrittenBits_of_not_mem (by decide) _).symm, fun _ _ => rfl⟩
  · exact ⟨text_recoded_usdod96 hfits, fun _ hother => absurd rfl hother⟩

end

/-- Bits that the built-in engine converts to bits are written as they are, but for
    references without digits and supplier codes without characters. Of these a strict
    engine only lets the codes pass. -/
theorem convert_binary_again {settings : Engine.Settings} {engine : Engine}
    (hengine : (Engine.builtin settings).outcome = .ok engine) {params : Params}
    {bits result : Text} (hbits : Numeral.Digits 2 bits) {scheme : Scheme} {level : Level}
    (hresolve : (engine.index.resolve bits (params.get Engine.tagLengthName) none).outcome =
      .ok ⟨scheme, level⟩) (hname : scheme.name ≠ "SGTIN-64")
    (hresult : (engine.convert bits params LevelType.binary.name).outcome = .ok result) :
    result = rewrittenBits scheme.name bits ∧
      (settings.strict = true → scheme.name ≠ "USDOD-96" → result = bits) := by
  rcases Builtin.scheme_cases (Engine.scheme_mem_of_resolve hengine hresolve) with
    ⟨form, hform, rfl⟩ | ⟨form, hform, rfl⟩ | rfl
  · obtain ⟨hrewritten, hstays⟩ := Gs1Form.eq_rewritten hform hengine hbits hresolve hresult
    exact ⟨hrewritten, fun hstrict _ => hstays hstrict⟩
  · exact SingleForm.eq_rewritten hform hengine hbits hresolve hresult
  · exact absurd rfl hname

/-- The bits of a returnable asset whose company prefix leaves no digits for the asset
    type, but whose asset type is not zero. -/
def idleAssetBits : Text := Text.join
  ["00110011", "001", "000", "1000111011111101101010011101101110000000", "1011",
   "00000000000000000000000000000000000101"]

/-- An engine that is not strict writes the asset type as zero. -/
theorem convert_binary_again_asset :
    ∃ engine scheme level result, (Engine.builtin { strict := false }).outcome = .ok engine ∧
      (engine.index.resolve idleAssetBits .null none).outcome = .ok ⟨scheme, level⟩ ∧
      scheme.name ≠ "SGTIN-64" ∧
      (engine.convert idleAssetBits [] LevelType.binary.name).outcome = .ok result ∧
      result ≠ idleAssetBits ∧ result = rewrittenBits scheme.name idleAssetBits := by
  have hengine := Engine.builtin_outcome { strict := false }
  refine ⟨_, Gs1Form.grai96.tagForm.scheme,
    Gs1Form.grai96.tagForm.level Gs1Form.grai96.binarySide, idleAssetBits.overwrite 54 "0000",
    hengine, ?resolved, by decide, ?converted, by decide, (@convert_binary_again _ _ hengine [] _ _
      (by decide) _ _ ?resolved (by decide) ?converted).1⟩
  case resolved =>
    refine eq_ok_of_toOption ?_
    decide +kernel
  case converted =>
    refine eq_ok_of_toOption ?_
    decide +kernel

/-- The bits of a tag with a void supplier code. -/
def voidCodeBits : Text :=
  Text.join ["00101111", "0001", List.replicate 48 '0', "000000000000000000000000000000000101"]

example : rewrittenBits "USDOD-96" voidCodeBits = Text.join
    ["00101111", "0001", "00100000", "00100000", "00100000", "00100000", "00100000", "00100000",
     "000000000000000000000000000000000101"] := by decide +kernel

/-- Not all bits are converted to themselves, not even by a strict engine. -/
theorem not_convert_binary_again :
    ¬ ∀ (settings : Engine.Settings) (engine : Engine) (bits result : Text) (scheme : Scheme)
      (level : Level), (Engine.builtin settings).outcome = .ok engine → Numeral.Digits 2 bits →
        (engine.index.resolve bits .null none).outcome = .ok ⟨scheme, level⟩ →
        scheme.name ≠ "SGTIN-64" →
        (engine.convert bits [] LevelType.binary.name).outcome = .ok result → result = bits := by
  intro h
  have hsame := h { strict := true } _ voidCodeBits
    (voidCodeBits.overwrite 12 (Compaction.eight.pack "      "))
    SingleForm.usdod96.tagForm.scheme
    (SingleForm.usdod96.tagForm.level SingleForm.usdod96.binarySide) (Engine.builtin_outcome _)
    (by decide +kernel) ?resolved (by decide) ?converted
  · revert hsame
    decide +kernel
  case resolved =>
    refine eq_ok_of_toOption ?_
    decide +kernel
  case converted =>
    refine eq_ok_of_toOption ?_
    decide +kernel

end EpcTag
