-- SUMMARY: Safe rules and options: contexts of texts, and which fields are known to consist of digits.
import EpcTag.Proofs.CompanyPrefix
import EpcTag.Proofs.KeyRoundTrip
import EpcTag.Proofs.SafeRuns

/-!
# Safe rules

Most faults come from a value of the wrong sort, so what safety asks of a context is that
all its values are texts. A check digit asks for more: it cannot be computed for
characters that have a digit value but are no decimal digits, so its operand must be known
to consist of digits. Which fields do is followed from those of the input through the
rules.
-/

namespace EpcTag

/-! ## Contexts -/

/-- All fields of a context have texts. -/
def Context.Texts (context : Context) : Prop :=
  ∀ name value, context.field? name = some value → ∃ text, value = .text text

/-- All fields have texts, and the given ones digits. -/
structure Context.Digital (context : Context) (names : List Text) : Prop where
  texts : context.Texts
  digits : ∀ name ∈ names, ∃ text, context.field? name = some (.text text) ∧
    Numeral.Digits 10 text

namespace Context

variable {context : Context} {names : List Text}

theorem Texts.insert (h : context.Texts) (name text : Text) :
    Texts (context.insert (.text name) (.text text)) := by
  intro other value hvalue
  rw [field?_insert] at hvalue
  split at hvalue
  · exact ⟨text, (Option.some.inj hvalue).symm⟩
  · exact h other value hvalue

theorem Texts.insertAll (h : context.Texts) (pairs : List (Text × Text)) :
    Texts (context.insertAll (ofTexts pairs)) := by
  induction pairs generalizing context with
  | nil => exact h
  | cons pair pairs ih => exact ih (h.insert pair.1 pair.2)

theorem texts_toContext (params : Params) : params.toContext.Texts := by
  intro name value hvalue
  rw [Params.field?_toContext] at hvalue
  obtain ⟨given, -, rfl⟩ := Option.map_eq_some_iff.mp hvalue
  exact ⟨_, rfl⟩

end Context

theorem Scalar.ends_mapM_operand {P : Text → Prop} {values : List Scalar}
    (h : ∀ value ∈ values, ∃ text, value = .text text ∧ P text) :
    Ends (fun texts => ∀ text ∈ texts, P text) (values.mapM Scalar.operand) := by
  refine Ends.mapM fun value hvalue => ?_
  obtain ⟨text, rfl, htext⟩ := h value hvalue
  exact htext

/-! ## Look-ups -/

/-- A look-up of a text in the company prefix table ends with a text, and one for a company
    prefix with digits. -/
theorem Engine.ends_lookup {engine : Engine}
    (htable : ∀ entry ∈ engine.companyPrefixes.prefixes, Numeral.Digits 10 entry.2)
    (input output text : Text) :
    Ends (fun answer => ∃ result, answer = .text result ∧
      (output = CompanyPrefixTable.prefixColumn → Numeral.Digits 10 result))
      (engine.lookup companyPrefixTableName input output (.text text)) := by
  have hfind : Ends (fun answer => ∀ result ∈ answer,
      output = CompanyPrefixTable.prefixColumn → Numeral.Digits 10 result)
      (engine.companyPrefixes.find? input output (.text text)) := by
    rw [CompanyPrefixTable.find?]
    split
    · -- a company prefix is looked up: digits are an index, and nothing else has an entry
      refine (Ends.of_ok (Scalar.operand_text text)).bind ?_
      rintro _ rfl
      split
      · next hdecimal =>
        obtain ⟨hne, hdigits⟩ := (Numeral.isDecimal_iff text).mp hdecimal
        have hindex := @CompanyPrefixTable.normalIndex_of_integer? (.text text) _
          (Numeral.readInteger?_digits le_rfl hne hdigits)
        refine (Ends.of_ok hindex).bind ?_
        rintro _ rfl result hresult -
        exact htable _ (Pairs.mem_of_get? hresult)
      · rintro _ ⟨⟩
    · next hprefix =>
      split
      · next hindex =>
        rintro result - rfl
        exact absurd hindex.2 (by decide)
      · rfl
  rw [lookup, if_pos rfl, CompanyPrefixTable.lookup]
  refine Ends.map (P := fun result => output = CompanyPrefixTable.prefixColumn →
    Numeral.Digits 10 result) (hfind.bind fun answer hanswer => ?_)
      fun result hresult => ⟨result, rfl, hresult⟩
  cases answer with
  | none => rfl
  | some result => exact hanswer result rfl

/-! ## Rules -/

/-- Does a parameter stand for digits, if the given fields do? -/
def RuleParam.isDigital (names : List Text) : RuleParam → Bool
  | .literal value => value.all Text.isAsciiDigit
  | .field name => names.contains name

namespace RuleCall

/-- Is the result of a call known to consist of digits, if the given fields do? -/
def isDigital (names : List Text) : RuleCall → Bool
  | .tableLookup _ _ _ output => output.text == CompanyPrefixTable.prefixColumn
  | .length _ | .checkDigit _ => true
  | .substring value _ _ => value.isDigital names
  | .concatenate first rest => (first :: rest).all (RuleParam.isDigital names)
  | .arithmetic .. => false

/-- Does a call only look into the company prefix table, and only compute the check digit
    of digits, if the given fields consist of digits? -/
def isSafe (names : List Text) : RuleCall → Bool
  | .tableLookup _ table _ _ => table.text == Engine.companyPrefixTableName
  | .checkDigit value => value.isDigital names
  | _ => true

end RuleCall

/-- The fields that consist of digits after an assignment. -/
def Assignment.digitNames (names : List Text) (step : Assignment) : List Text :=
  if step.call.isDigital names then step.name :: names else names.filter (· ≠ step.name)

/-- The fields that consist of digits after assignments, if all their calls are safe. -/
def Rules.digitNames? : List Text → List Assignment → Option (List Text)
  | names, [] => some names
  | names, step :: steps =>
    if step.call.isSafe names then digitNames? (step.digitNames names) steps else none

section
variable {lookup : TableLookup} {context : Context} {names : List Text}

theorem Context.Digital.assign (h : context.Digital names) {step : Assignment} {text : Text}
    (htext : step.call.isDigital names = true → Numeral.Digits 10 text) :
    Context.Digital (context.insert (.text step.name) (.text text)) (step.digitNames names) := by
  refine ⟨h.texts.insert step.name text, fun name hname => ?_⟩
  rw [Context.field?_insert]
  rw [Assignment.digitNames] at hname
  split at hname
  · next hdigital =>
    by_cases hsame : name = step.name
    · exact ⟨text, if_pos hsame, htext hdigital⟩
    · rw [if_neg hsame]
      exact h.digits name ((List.mem_cons.mp hname).resolve_left hsame)
  · obtain ⟨hname, hother⟩ := List.mem_filter.mp hname
    rw [if_neg (by simpa using hother)]
    exact h.digits name hname

theorem RuleParam.ends_value (h : context.Digital names) (param : RuleParam) :
    Ends (fun value => ∃ text, value = .text text ∧
      (param.isDigital names = true → Numeral.Digits 10 text)) (param.value context) := by
  cases param with
  | literal text => exact ⟨text, rfl, (Numeral.all_isAsciiDigit_iff text).mp⟩
  | field name =>
    rw [value]
    split
    · next value hvalue =>
      obtain ⟨text, rfl⟩ := h.texts name value hvalue
      refine ⟨text, rfl, fun hdigital => ?_⟩
      obtain ⟨digits, hdigits, hall⟩ := h.digits name (by simpa [isDigital] using hdigital)
      cases hvalue.symm.trans hdigits
      exact hall
    · rfl

theorem RuleParam.ends_integer (h : context.Digital names) (param : RuleParam) :
    Ends (fun _ => True) (param.integer context) := by
  refine (param.ends_value h).bind ?_
  rintro _ ⟨text, rfl, -⟩
  dsimp only
  split
  · trivial
  · rfl

/-- A safe call ends with a text. -/
theorem RuleCall.ends_eval (hlookup : ∀ input output text, Ends (fun answer =>
      ∃ result, answer = .text result ∧
        (output = CompanyPrefixTable.prefixColumn → Numeral.Digits 10 result))
      (lookup Engine.companyPrefixTableName input output (.text text)))
    (h : context.Digital names) {call : RuleCall} (hsafe : call.isSafe names = true) :
    Ends (fun value => ∃ text, value = .text text ∧
      (call.isDigital names = true → Numeral.Digits 10 text)) (call.eval lookup context) := by
  cases call with
  | tableLookup value table input output =>
    refine (value.ends_value h).bind ?_
    rintro _ ⟨text, rfl, -⟩
    rw [show table.text = Engine.companyPrefixTableName from eq_of_beq hsafe]
    exact (hlookup input.text output.text text).imp fun _ ⟨result, heq, hdigits⟩ =>
      ⟨result, heq, fun hprefix => hdigits (eq_of_beq hprefix)⟩
  | length value =>
    refine (value.ends_value h).bind ?_
    rintro _ ⟨text, rfl, -⟩
    exact ⟨_, rfl, fun _ => Numeral.digits_toDigits (by decide) le_rfl _⟩
  | checkDigit value =>
    refine (value.ends_value h).bind ?_
    rintro _ ⟨text, rfl, hdigits⟩
    -- the calculation fails on other characters, which is why a safe call has digits here
    obtain ⟨digit, hdigit, hall⟩ := CheckDigit.exists_compute (hdigits hsafe)
    refine (Ends.of_ok (Scalar.operand_text text)).bind ?_
    rintro _ rfl
    refine (Ends.of_ok hdigit).bind ?_
    rintro _ rfl
    exact ⟨_, rfl, fun _ => hall⟩
  | substring value start count =>
    cases count with
    | none =>
      refine (value.ends_value h).bind ?_
      rintro _ ⟨text, rfl, hdigits⟩
      refine (start.ends_integer h).bind fun first _ => ?_
      exact ⟨_, rfl, fun hdigital => (hdigits hdigital).drop _⟩
    | some count =>
      refine (value.ends_value h).bind ?_
      rintro _ ⟨text, rfl, hdigits⟩
      refine (start.ends_integer h).bind fun first _ => ?_
      refine (count.ends_integer h).bind fun length _ => ?_
      exact ⟨_, rfl, fun hdigital => ((hdigits hdigital).take _).drop _⟩
  | concatenate first rest =>
    have hvalues : ∀ param ∈ first :: rest, Ends (fun value => ∃ text, value = .text text ∧
        ((first :: rest).all (RuleParam.isDigital names) = true → Numeral.Digits 10 text))
        (param.value context) := fun param hparam =>
      (param.ends_value h).imp fun _ ⟨text, heq, hdigits⟩ =>
        ⟨text, heq, fun hall => hdigits (List.all_eq_true.mp hall param hparam)⟩
    refine (Ends.mapM hvalues).bind fun values hvalues => ?_
    refine (Scalar.ends_mapM_operand hvalues).bind fun texts htexts => ?_
    refine ⟨_, rfl, fun hdigital c hc => ?_⟩
    obtain ⟨text, htext, hc⟩ := List.mem_flatten.mp hc
    exact htexts text htext hdigital c hc
  | arithmetic op left right =>
    -- a result may be negative, so it is not known to be digits; there is none of a division by zero
    refine (left.ends_integer h).bind fun a _ => (right.ends_integer h).bind fun b _ => ?_
    split
    · exact ⟨_, rfl, fun hfalse => by cases hfalse⟩
    · rfl

/-- Assignments whose calls are safe end with a context of texts. -/
theorem Rules.ends_assign (hlookup : ∀ input output text, Ends (fun answer =>
      ∃ result, answer = .text result ∧
        (output = CompanyPrefixTable.prefixColumn → Numeral.Digits 10 result))
      (lookup Engine.companyPrefixTableName input output (.text text)))
    {steps : List Assignment} {result : List Text} (h : context.Digital names)
    (hsafe : digitNames? names steps = some result) :
    Ends (fun context => context.Digital result) (assign lookup context steps) := by
  induction steps generalizing context names with
  | nil =>
    cases hsafe
    exact h
  | cons step steps ih =>
    rw [digitNames?] at hsafe
    split at hsafe
    · next hcall =>
      refine (RuleCall.ends_eval hlookup h hcall).bind ?_
      rintro _ ⟨text, rfl, hdigits⟩
      exact ih (h.assign hdigits) hsafe
    · cases hsafe

end

/-! ## Options -/

namespace Slot

/-- Does a slot take nothing but bits? -/
def isBits : Slot → Bool
  | .one class_ | .exactly class_ _ | .between class_ _ _ => class_ = Coding.bitClass
  | .number => false

/-- Does a slot take nothing but digits? -/
def isDigital : Slot → Bool
  | .one class_ | .exactly class_ _ | .between class_ _ _ => class_ = Pattern.digitClass
  | .number => true

variable {slot : Slot} {text : Text}

theorem digits_of_isBits (hslot : slot.isBits = true) (h : slot.Fits text) :
    Numeral.Digits 2 text := by
  have hall : text.all Coding.bitClass.has = true := by
    cases slot with
    | number => cases hslot
    | one class_ => exact of_decide_eq_true hslot ▸ h.2
    | «exactly» class_ count => exact of_decide_eq_true hslot ▸ h.2
    | between class_ least most => exact of_decide_eq_true hslot ▸ h.2
  exact ((@Coding.fits_bitSlot_iff (.number .plain text.length) text).mp ⟨rfl, hall⟩).1

theorem digits_of_isDigital (hslot : slot.isDigital = true) (h : slot.Fits text) :
    Numeral.Digits 10 text := by
  cases slot with
  | number => exact (Numeral.all_isAsciiDigit_iff text).mp h.2
  | one class_ => exact (Pattern.all_has_digitClass_iff text).mp (of_decide_eq_true hslot ▸ h.2)
  | «exactly» class_ count => exact (Pattern.all_has_digitClass_iff text).mp (of_decide_eq_true hslot ▸ h.2)
  | between class_ least most => exact (Pattern.all_has_digitClass_iff text).mp (of_decide_eq_true hslot ▸ h.2)

end Slot

namespace LevelOption

variable {validator : Validator} {binary : Bool} {option : LevelOption} {template : Template}
  {tagOption : Option LevelOption} {context : Context}

/-- What the fields of an option declare can be read. -/
def Sound (option : LevelOption) : Prop := ∀ field ∈ option.fields, field.Sound

instance (option : LevelOption) : Decidable option.Sound :=
  inferInstanceAs (Decidable (∀ field ∈ option.fields, field.Sound))

theorem sound_tagField? (htag : ∀ other ∈ tagOption, other.Sound) (name : Text) :
    ∀ field ∈ tagField? tagOption name, field.Sound := by
  intro field hfield
  obtain ⟨other, hother, hfound⟩ := Option.bind_eq_some_iff.mp hfield
  exact htag other hother field (List.mem_reverse.mp (List.mem_of_find?_eq_some hfound))

/-- Is a field of an input known to consist of digits? -/
def readsDigits (binary : Bool) (tagOption : Option LevelOption) (field : Field) (slot : Slot) :
    Bool :=
  if binary then field.isNumeric (tagField? tagOption field.name) else slot.isDigital

theorem ends_reading (htag : ∀ other ∈ tagOption, other.Sound) {field : Field}
    (hfield : field.Sound) {slot : Slot} (hslot : binary = true → slot.isBits = true)
    {captured : Text} (hfits : slot.Fits captured) :
    Ends (fun value => readsDigits binary tagOption field slot = true → Numeral.Digits 10 value)
      (reading validator binary tagOption field captured) := by
  rw [reading, readField.eq_def]
  cases binary with
  | true =>
    exact field.ends_decode hfield (sound_tagField? htag _)
      (Slot.digits_of_isBits (hslot rfl) hfits)
  | false =>
    have hcaptured : readsDigits false tagOption field slot = true → Numeral.Digits 10 captured :=
      fun hdigital => Slot.digits_of_isDigital hdigital hfits
    rw [if_neg Bool.false_ne_true]
    split
    · exact hcaptured
    · next tag hfound =>
      have hsound := sound_tagField? htag field.name tag hfound
      refine (validator.ends_checkField hsound captured).traced_bind fun _ _ => ?_
      change readsDigits false tagOption field slot = true → Numeral.Digits 10 (ite _ _ _)
      split
      · exact fun _ => Numeral.digits_nil 10
      · exact hcaptured

theorem ends_storeAll {code : Field → Text → Except Error Text} {fields : List Field}
    {inputs : List Text}
    (h : List.Forall₂ (fun field input => Ends (fun _ => True) (code field input)) fields inputs)
    (stored : Pairs Text Text) : Ends (fun _ => True) (storeAll code fields inputs stored) := by
  induction h generalizing stored with
  | nil => trivial
  | cons hcode _ ih => exact hcode.bind fun output _ => ih _

/-- The fields of a match are decoded one by one, or the error is a library error. -/
theorem Follows.ends_decode (h : option.Follows template) (hsound : option.Sound)
    (htag : ∀ other ∈ tagOption, other.Sound)
    (hslots : binary = true → ∀ slot ∈ template.slots, slot.isBits = true) {captures : List Text}
    (hfits : List.Forall₂ Slot.Fits template.slots captures) :
    Ends (fun stored => ∃ values,
      Codes (reading validator binary tagOption) option.fields captures values ∧
        stored = template.names.zip values)
      (option.decode validator ⟨Template.captured 1 captures []⟩ binary tagOption).outcome := by
  have hlen := h.length_fields hfits
  have hreads : List.Forall₂ (fun field captured => Ends (fun _ => True)
      (reading validator binary tagOption field captured)) option.fields captures := by
    rw [List.forall₂_iff_get]
    refine ⟨hlen, fun place hfield hcapture => ?_⟩
    have hslot : place < template.slots.length := hfits.length_eq ▸ hcapture
    exact (ends_reading htag (hsound _ (List.get_mem _ _))
      (fun hbinary => hslots hbinary _ (List.get_mem template.slots ⟨place, hslot⟩))
      ((List.forall₂_iff_get.mp hfits).2 place hslot hcapture)).imp fun _ _ => trivial
  have hends : Ends (fun _ => True)
      (option.decode validator ⟨Template.captured 1 captures []⟩ binary tagOption).outcome := by
    rw [decode, decodeFields_outcome (h.found hlen)]
    exact ends_storeAll hreads []
  exact hends.and_eq.imp fun stored hstored => (h.decode_outcome_iff hlen).mp hstored.2

/-- What is known of the values that a field is read as is known of its value in the
    context. -/
theorem exists_of_codes {P : Field → Slot → Text → Prop} {fields : List Field}
    {slots : List Slot} {captures values : List Text}
    (hfits : List.Forall₂ Slot.Fits slots captures)
    (hcodes : Codes (reading validator binary tagOption) fields captures values)
    (hholds : context.Holds (fields.map Field.name) values)
    (hreads : ∀ field ∈ fields, ∀ slot ∈ slots, ∀ captured value, slot.Fits captured →
      reading validator binary tagOption field captured = .ok value → P field slot value) :
    ∀ pair ∈ fields.zip slots,
      ∃ text, context.field? pair.1.name = some (.text text) ∧ P pair.1 pair.2 text := by
  induction hfits generalizing fields values with
  | nil => simp
  | @cons slot captured slots captures hslot _ ih =>
    match fields, values, hcodes with
    | field :: fields, value :: values, ⟨hcode, hcodes⟩ =>
      obtain ⟨hvalue, hholds⟩ := List.forall₂_cons.mp hholds
      intro pair hpair
      rcases List.mem_cons.mp hpair with rfl | hpair
      · exact ⟨value, hvalue, hreads field (by simp) slot (by simp) captured value hslot hcode⟩
      · exact ih hcodes hholds (fun other hother more hmore =>
          hreads other (by simp [hother]) more (by simp [hmore])) pair hpair

/-- Texts are encoded, or the error is a library error. -/
theorem ends_encodeFields (hcontext : context.Texts) (htag : ∀ other ∈ tagOption, other.Sound)
    {fields : List Field} (hfields : ∀ field ∈ fields, field.Sound) (key : Text)
    (encoded : Pairs Text Text) : Ends (fun _ => True)
      (encodeFields validator key tagOption context fields encoded).outcome := by
  induction fields generalizing encoded with
  | nil => trivial
  | cons field fields ih =>
    rw [encodeFields]
    split
    · rfl
    · next value hvalue =>
      obtain ⟨text, rfl⟩ := hcontext field.name value hvalue
      refine (field.ends_encode (hfields field (by simp)) (sound_tagField? htag _)
        text).traced_bind fun bits _ => ?_
      exact (Ends.of_ok rfl).traced_bind fun _ _ =>
        ih (fun other hother => hfields other (by simp [hother])) _

/-- Texts pass the checks of their fields, or the error is a library error. -/
theorem ends_validateFields (hcontext : context.Texts) {fields : List Field}
    (hfields : ∀ field ∈ fields, field.Sound) :
    Ends (fun _ => True) (validateFields validator context fields).outcome := by
  induction fields with
  | nil => trivial
  | cons field fields ih =>
    have hrest := ih fun other hother => hfields other (by simp [hother])
    rw [validateFields]
    cases hvalue : context.field? field.name with
    | none => exact hrest
    | some value =>
      obtain ⟨text, rfl⟩ := hcontext field.name value hvalue
      exact (validator.ends_checkField (hfields field (by simp)) text).traced_bind fun _ _ => hrest

end LevelOption

end EpcTag
