-- SUMMARY: Runs that can only fail with library errors: how they are put in sequence, checks and field coding.
import EpcTag.Engine.Basic
import EpcTag.Proofs.Compaction
import EpcTag.Proofs.FieldCoding

/-!
# Safe runs

A run is safe if it ends with a value or with a library error, never with a fault. What
is known of its value is carried along, so that safe runs can be put in sequence. Checks
and field coding are safe for texts, if what the field declares can be read and the bits
are bits.
-/

namespace EpcTag

/-! ## Safe runs -/

/-- The run ends with a value of which `P` holds or with a library error. -/
def Ends {α : Type} (P : α → Prop) : Except Error α → Prop
  | .ok value => P value
  | .error error => error.isLibrary = true

namespace Ends

variable {α β : Type} {P : α → Prop} {Q : β → Prop} {first : Except Error α}

theorem isLibrary {error : Error} (h : Ends P first) (herror : first = .error error) :
    error.isLibrary = true := by
  rw [herror] at h
  exact h

theorem of_ok {value : α} (h : first = .ok value) : Ends (value = ·) first := by
  rw [h]
  exact rfl

theorem imp {P' : α → Prop} (h : Ends P first) (hP : ∀ value, P value → P' value) :
    Ends P' first := by
  cases first with
  | ok value => exact hP value h
  | error error => exact h

theorem bind {next : α → Except Error β} (h : Ends P first)
    (hnext : ∀ value, P value → Ends Q (next value)) : Ends Q (first >>= next) := by
  cases first with
  | ok value => exact hnext value h
  | error error => exact h

/-- The value is also known to be that of the run. -/
theorem and_eq (h : Ends P first) : Ends (fun value => P value ∧ first = .ok value) first := by
  cases first with
  | ok value => exact ⟨h, rfl⟩
  | error error => exact h

theorem map {f : α → β} (h : Ends P first) (hf : ∀ value, P value → Q (f value)) :
    Ends Q (first.map f) := by
  cases first with
  | ok value => exact hf value h
  | error error => exact h

theorem traced_bind {first : Traced α} {next : α → Traced β} (h : Ends P first.outcome)
    (hnext : ∀ value, P value → Ends Q (next value).outcome) :
    Ends Q (first >>= next).outcome := by
  rw [Traced.bind_outcome]
  exact h.bind hnext

theorem mapM {f : β → Except Error α} {xs : List β} (h : ∀ x ∈ xs, Ends P (f x)) :
    Ends (fun values => ∀ value ∈ values, P value) (xs.mapM f) := by
  induction xs with
  | nil => simp [Ends, pure, Except.pure]
  | cons x xs ih =>
    rw [List.mapM_cons]
    refine (h x (by simp)).bind fun value hvalue =>
      (ih fun y hy => h y (by simp [hy])).bind fun values hvalues => ?_
    intro other hother
    rcases List.mem_cons.mp hother with rfl | hother
    · exact hvalue
    · exact hvalues other hother

end Ends

/-! ## Checks -/

namespace Validator

variable (validator : Validator)

/-- Is a scalar no character set, or one that can be read? -/
def readableSet : Scalar → Bool
  | .null => true
  | .text set => (readSet (starred set)).isOk
  | _ => false

/-- Is a scalar no limit, or one that can be read? -/
def readableLimit (bound : Scalar) : Bool := bound = .null || bound.integer?.isSome

theorem ends_report (violation : Violation) :
    Ends (fun _ => True) (validator.report violation).outcome := by
  rw [report]
  split
  · rfl
  · trivial

theorem ends_checkCharacterSet {set : Scalar} (h : readableSet set = true) (field text : Text) :
    Ends (fun _ => True) (validator.checkCharacterSet field (.text text) set).outcome := by
  cases set with
  | null => trivial
  | text set =>
    obtain ⟨pattern, hpattern⟩ : ∃ pattern, readSet (starred set) = .ok pattern := by
      rw [readableSet] at h
      cases hset : readSet (starred set) with
      | ok pattern => exact ⟨pattern, rfl⟩
      | error error =>
        rw [hset] at h
        cases h
    rw [checkCharacterSet, if_neg (by simp)]
    refine (Ends.of_ok rfl).traced_bind ?_
    rintro _ rfl
    refine (Ends.of_ok hpattern).traced_bind ?_
    rintro _ rfl
    refine (Ends.of_ok rfl).traced_bind ?_
    rintro value rfl
    split
    · trivial
    · exact (validator.ends_report _).traced_bind fun _ _ => trivial
  | _ => cases h

theorem exists_toInteger {bound : Scalar} (h : readableLimit bound = true) (hnull : bound ≠ .null) :
    ∃ n, bound.toInteger = .ok n := by
  cases bound with
  | null => exact absurd rfl hnull
  | text text =>
    change (decide _ || (Numeral.readInteger? 10 text).isSome) = true at h
    cases hread : Numeral.readInteger? 10 text with
    | none => simp [hread] at h
    | some n => exact ⟨n, by rw [Scalar.toInteger, hread]⟩
  | _ => exact ⟨_, rfl⟩

theorem exists_isBelow {bound : Scalar} (h : readableLimit bound = true) (number : Int) :
    ∃ below, isBelow number bound = .ok below := by
  by_cases hnull : bound = .null
  · exact ⟨false, by rw [hnull]; rfl⟩
  · obtain ⟨n, hn⟩ := exists_toInteger h hnull
    exact ⟨number < n, by rw [isBelow.eq_2 _ _ hnull, hn]; rfl⟩

theorem exists_isAbove {bound : Scalar} (h : readableLimit bound = true) (number : Int) :
    ∃ above, isAbove number bound = .ok above := by
  by_cases hnull : bound = .null
  · exact ⟨false, by rw [hnull]; rfl⟩
  · obtain ⟨n, hn⟩ := exists_toInteger h hnull
    exact ⟨n < number, by rw [isAbove.eq_2 _ _ hnull, hn]; rfl⟩

theorem ends_checkRange {minimum maximum : Scalar} (hmin : readableLimit minimum = true)
    (hmax : readableLimit maximum = true) (field text : Text) :
    Ends (fun _ => True) (validator.checkRange field (.text text) minimum maximum).outcome := by
  have hreport (violation : Violation) : Ends (fun _ => True)
      (validator.report violation >>= fun _ => pure false).outcome :=
    (validator.ends_report violation).traced_bind fun _ _ => trivial
  rw [checkRange]
  refine (Ends.of_ok (Scalar.contentOrVoid_text text)).traced_bind ?_
  rintro _ rfl
  split
  · obtain ⟨below, hbelow⟩ := exists_isBelow hmin (Numeral.value 10 text : Int)
    obtain ⟨above, habove⟩ := exists_isAbove hmax (Numeral.value 10 text : Int)
    refine (Ends.of_ok hbelow).traced_bind ?_
    rintro _ rfl
    split
    · exact hreport _
    · refine (Ends.of_ok habove).traced_bind ?_
      rintro _ rfl
      split
      · exact hreport _
      · trivial
  · trivial

end Validator

/-! ## Fields -/

/-- Is a scalar no padding, or the text of one? -/
def Padding.readable (padding : Scalar) : Bool := padding = .null || padding.text?.isSome

/-- Is a scalar no padding, or one of digits? -/
def Padding.isDigital : Scalar → Bool
  | .null => true
  | .text padding => padding.all Text.isAsciiDigit
  | _ => false

/-- What a field declares can be read. -/
@[mk_iff]
structure Field.Sound (field : Field) : Prop where
  characterSet : Validator.readableSet field.characterSet = true
  minimum : Validator.readableLimit field.minimum = true
  maximum : Validator.readableLimit field.maximum = true
  padChar : Padding.readable field.padChar = true

instance (field : Field) : Decidable field.Sound := decidable_of_iff' _ (Field.sound_iff field)

theorem Validator.ends_checkField (validator : Validator) {field : Field} (h : field.Sound)
    (text : Text) : Ends (fun _ => True) (validator.checkField field (.text text)).outcome := by
  rw [checkField]
  refine (validator.ends_checkCharacterSet h.characterSet field.name text).traced_bind fun _ _ => ?_
  refine (validator.ends_checkRange h.minimum h.maximum field.name text).traced_bind fun _ _ => ?_
  trivial

namespace Padding

theorem digits_pad {text : Text} (htext : Numeral.Digits 10 text) (edge : Option Edge)
    {padding : Text} (hpadding : Numeral.Digits 10 padding) (length : Option Int) :
    Numeral.Digits 10 (pad text edge (some padding) length) := by
  cases edge with
  | none => exact htext
  | some edge =>
    cases length with
    | none => exact htext
    | some length =>
      have hfill (count : Nat) :
          Numeral.Digits 10 (Text.join (List.replicate count padding)) := by
        refine hpadding.of_mem fun c hc => ?_
        obtain ⟨part, hpart, hc⟩ := List.mem_flatten.mp hc
        exact List.eq_of_mem_replicate hpart ▸ hc
      cases edge with
      | left => exact Numeral.digits_append.mpr ⟨hfill _, htext⟩
      | right => exact Numeral.digits_append.mpr ⟨htext, hfill _⟩

/-- A text is stripped to a text, and digits of digits to digits. -/
theorem ends_stripValue {padding : Scalar} (h : readable padding = true) (text : Text)
    (edge : Option Edge) :
    Ends (fun value => ∃ result, value = .text result ∧
      (Numeral.Digits 10 text → isDigital padding = true → Numeral.Digits 10 result))
      (stripValue (.text text) edge padding) := by
  cases padding with
  | null =>
    rw [stripValue, if_pos (.inr rfl)]
    exact ⟨text, rfl, fun htext _ => htext⟩
  | text padding =>
    rw [stripValue]
    split
    · exact ⟨text, rfl, fun htext _ => htext⟩
    · exact ⟨_, rfl, fun htext hpadding =>
        digits_strip htext edge ((Numeral.all_isAsciiDigit_iff padding).mp hpadding)⟩
  | _ => cases h

/-- A text is filled up to a text, and digits with digits to digits. -/
theorem ends_padValue {padding : Scalar} (h : readable padding = true) (text : Text)
    (edge : Option Edge) (length : Option Int) :
    Ends (fun value => ∃ result, value = .text result ∧
      (Numeral.Digits 10 text → isDigital padding = true → Numeral.Digits 10 result))
      (padValue (.text text) edge padding length) := by
  cases padding with
  | null =>
    rw [padValue, if_pos (.inr (.inl rfl))]
    exact ⟨text, rfl, fun htext _ => htext⟩
  | text padding =>
    rw [padValue]
    split
    · exact ⟨text, rfl, fun htext _ => htext⟩
    · exact ⟨_, rfl, fun htext hpadding =>
        digits_pad htext edge ((Numeral.all_isAsciiDigit_iff padding).mp hpadding) length⟩
  | _ => cases h

end Padding

theorem Text.of_mem_chunksUpTo {width count : Nat} (hwidth : 0 < width) {text chunk : Text}
    (h : chunk ∈ Text.chunksUpTo width count text) : chunk ≠ [] ∧ ∀ c ∈ chunk, c ∈ text := by
  induction count generalizing text with
  | zero => cases h
  | succ count ih =>
    cases text with
    | nil => cases h
    | cons c text =>
      rcases List.mem_cons.mp h with rfl | h
      · obtain ⟨width, rfl⟩ := Nat.exists_eq_add_one.mpr hwidth
        exact ⟨by simp, fun d hd => List.mem_of_mem_take hd⟩
      · obtain ⟨hne, hsub⟩ := ih h
        exact ⟨hne, fun d hd => List.mem_of_mem_drop (hsub d hd)⟩

/-- Bits are unpacked to characters. -/
theorem Compaction.ends_unpack (method : Compaction) {bits : Text} (h : Numeral.Digits 2 bits) :
    Ends (fun _ => True) (method.unpack bits) := by
  have hchunks : ∀ chunk ∈ Text.chunks method.width bits,
      Ends (fun _ => True) (method.unpackChunk chunk) := by
    intro chunk hchunk
    obtain ⟨hne, hsub⟩ := Text.of_mem_chunksUpTo method.width_pos hchunk
    have hcode : ¬ method.codePoint (Numeral.value 2 chunk : Int) < 0 := by
      cases method <;> simp only [codePoint] <;> omega
    rw [unpackChunk, Numeral.readInteger?_digits (by decide) hne (h.of_mem hsub)]
    dsimp only
    rw [if_neg hcode]
    trivial
  exact (Ends.mapM hchunks).imp fun _ _ => trivial

theorem Bits.digits_strip {bits : Text} (h : Numeral.Digits 2 bits) (edge : Edge) (width : Nat) :
    Numeral.Digits 2 (Bits.strip edge width bits) := by
  rw [strip.eq_def]
  split
  · cases edge with
    | left => exact h.drop _
    | right => exact h.take _
  · decide

namespace Field

variable {validator : Validator} {field : Field} {tag : Option Field} {bits text : Text}

theorem digits_strippedBits (field : Field) (h : Numeral.Digits 2 bits) :
    Numeral.Digits 2 (field.strippedBits bits) := by
  rw [strippedBits]
  split
  · exact h
  · exact Bits.digits_strip h _ _

/-- Bits are read as characters or as the digits of their number. -/
theorem ends_readBits (field : Field) (h : Numeral.Digits 2 bits) :
    Ends (fun raw => field.compaction = none → Numeral.Digits 10 raw) (field.readBits bits) := by
  rw [readBits]
  split
  · next method hmethod =>
    split
    · exact (method.ends_unpack h).imp fun _ _ hnone => absurd hnone (by simp [hmethod])
    · exact fun hnone => absurd hnone (by simp [hmethod])
  · rw [Bits.toDecimal]
    split
    · exact fun _ => by decide
    · next hne =>
      rw [if_pos ((Numeral.isBinary_iff bits).mpr ⟨by simpa using hne, h⟩)]
      exact fun _ => Numeral.digits_toDigits (by decide) le_rfl _

/-- Is a field read as a number whose padding consists of digits? -/
def isNumeric (field : Field) (tag : Option Field) : Bool :=
  field.compaction.isNone && Padding.isDigital field.padChar &&
    tag.all fun tag => Padding.isDigital tag.padChar

theorem ends_padDecoded (hfield : field.Sound) (htag : ∀ other ∈ tag, other.Sound) (text : Text) :
    Ends (fun value => ∃ result, value = .text result ∧
      (Numeral.Digits 10 text → field.isNumeric tag = true → Numeral.Digits 10 result))
      (field.padDecoded tag (.text text)) := by
  rw [padDecoded.eq_def]
  split
  · split
    · rfl
    · refine (Padding.ends_stripValue hfield.padChar text field.padEdge).imp ?_
      rintro _ ⟨result, rfl, hdigits⟩
      refine ⟨result, rfl, fun htext hnumeric => hdigits htext ?_⟩
      rw [isNumeric, Bool.and_eq_true, Bool.and_eq_true] at hnumeric
      exact hnumeric.1.2
  · split
    · next other =>
      refine (Padding.ends_padValue (htag other rfl).padChar text other.padEdge other.length).imp ?_
      rintro _ ⟨result, rfl, hdigits⟩
      refine ⟨result, rfl, fun htext hnumeric => hdigits htext ?_⟩
      rw [isNumeric, Bool.and_eq_true] at hnumeric
      exact hnumeric.2
    · exact ⟨text, rfl, fun htext _ => htext⟩

theorem ends_padEncoded (hfield : field.Sound) (htag : ∀ other ∈ tag, other.Sound) (text : Text) :
    Ends (fun value => ∃ result, value = .text result) (field.padEncoded tag (.text text)) := by
  rw [padEncoded]
  split
  · next other hother =>
    have hmem : other ∈ tag := (Option.mem_filter_iff.mp hother).1
    split
    · rfl
    · exact (Padding.ends_stripValue (htag other hmem).padChar text other.padEdge).imp
        fun _ ⟨result, heq, _⟩ => ⟨result, heq⟩
  · exact (Padding.ends_padValue hfield.padChar text field.padEdge field.length).imp
      fun _ ⟨result, heq, _⟩ => ⟨result, heq⟩

/-- Bits are decoded to a text, and those of a number to digits. -/
theorem ends_decode (hfield : field.Sound) (htag : ∀ other ∈ tag, other.Sound)
    (h : Numeral.Digits 2 bits) :
    Ends (fun text => field.isNumeric tag = true → Numeral.Digits 10 text)
      (field.decode validator tag bits).outcome := by
  rw [decode]
  refine (field.ends_readBits (field.digits_strippedBits h)).traced_bind fun raw hraw => ?_
  -- the padding, which comes before or after the checks of the tag field
  have hpadded {next : Text → Traced Text}
      (hnext : ∀ value, (field.isNumeric tag = true → Numeral.Digits 10 value) →
        Ends (fun text => field.isNumeric tag = true → Numeral.Digits 10 text)
          (next value).outcome) :
      Ends (fun text => field.isNumeric tag = true → Numeral.Digits 10 text)
        (do next (← (← field.padDecoded tag (.text raw)).operand) : Traced Text).outcome := by
    refine (field.ends_padDecoded hfield htag raw).traced_bind ?_
    rintro _ ⟨value, rfl, hdigits⟩
    refine (Ends.of_ok rfl).traced_bind ?_
    rintro _ rfl
    refine hnext value fun hnumeric => hdigits (hraw ?_) hnumeric
    rw [isNumeric, Bool.and_eq_true, Bool.and_eq_true] at hnumeric
    exact Option.isNone_iff_eq_none.mp hnumeric.1.1
  cases tag with
  | none => cases field.compaction <;> exact hpadded fun value hvalue => hvalue
  | some other =>
    have hother := htag other rfl
    have hvoid (value : Text) (hvalue : field.isNumeric (some other) = true →
        Numeral.Digits 10 value) : Ends (fun text => field.isNumeric (some other) = true →
          Numeral.Digits 10 text)
        (pure (if other.length = some 0 then [] else value) : Traced Text).outcome := by
      split
      · exact fun _ => Numeral.digits_nil 10
      · exact hvalue
    cases field.compaction with
    | none =>
      refine (validator.ends_checkRange hother.minimum hother.maximum _ raw).traced_bind ?_
      exact fun _ _ => hpadded hvoid
    | some method =>
      refine hpadded fun value hvalue => ?_
      refine (validator.ends_checkCharacterSet hother.characterSet _ value).traced_bind ?_
      exact fun _ _ => hvoid value hvalue

/-- Bits are filled up or found to be too many. -/
theorem ends_fitBits (field : Field) (bits : Text) : Ends (fun _ => True) (field.fitBits bits) := by
  rw [fitBits]
  split
  · trivial
  · split
    · trivial
    · split
      · rfl
      · dsimp only
        split <;> trivial

theorem ends_decimalBits (field : Field) (text : Text) :
    Ends (fun _ => True) (field.decimalBits (.text text)) := by
  rw [decimalBits]
  refine (Ends.of_ok (Scalar.contentOrVoid_text text)).bind ?_
  rintro _ rfl
  split
  · trivial
  · rfl

/-- A text is encoded, or it does not fit into the bits. -/
theorem ends_encode (hfield : field.Sound) (htag : ∀ other ∈ tag, other.Sound) (text : Text) :
    Ends (fun _ => True) (field.encode validator tag (.text text)).outcome := by
  -- the padding, which comes before or after the checks of the tag field
  have hpadded {next : Scalar → Traced Text}
      (hnext : ∀ value, Ends (fun _ => True) (next (.text value)).outcome) :
      Ends (fun _ => True) (do next (← field.padEncoded tag (.text text)) : Traced Text).outcome := by
    refine (field.ends_padEncoded hfield htag text).traced_bind ?_
    rintro _ ⟨value, rfl⟩
    exact hnext value
  have hnumber (value : Text) : Ends (fun _ => True)
      (do field.fitBits (← field.decimalBits (.text value)) : Traced Text).outcome :=
    (field.ends_decimalBits value).traced_bind fun bits _ => field.ends_fitBits bits
  have hpacked (method : Compaction) (value : Text) : Ends (fun _ => True)
      (do field.fitBits (method.pack (← (Scalar.text value).operand)) : Traced Text).outcome :=
    (Ends.of_ok (Scalar.operand_text value)).traced_bind fun _ _ => field.ends_fitBits _
  rw [encode]
  cases field.compaction with
  | none =>
    refine hpadded fun value => ?_
    cases tag with
    | none => exact hnumber value
    | some other =>
      have hother := htag other rfl
      refine (validator.ends_checkRange hother.minimum hother.maximum _ value).traced_bind ?_
      exact fun _ _ => hnumber value
  | some method =>
    cases tag with
    | none => exact hpadded (hpacked method)
    | some other =>
      have hother := htag other rfl
      refine (validator.ends_checkCharacterSet hother.characterSet _ text).traced_bind ?_
      exact fun _ _ => hpadded (hpacked method)

end Field

end EpcTag
