-- SUMMARY: Options that follow a template: what their matches, decoded fields, encoded fields and renderings are.
import EpcTag.FieldCoding
import EpcTag.Proofs.Rendering

/-!
# Options and templates

An option follows a template if its pattern, its grammar and its fields are those
of the template. Then the option matches what the template reads, and a context
that holds the template's fields is rendered as the template's text. Decoding
and encoding go field by field, and each field on its own.
-/

namespace EpcTag

/-! ## Pairs -/

namespace Pairs

variable {κ α : Type} [DecidableEq κ] {pairs : Pairs κ α} {name : κ} {value : α}

theorem insert_of_not_mem (value : α) (h : name ∉ pairs.map Prod.fst) :
    insert pairs name value = pairs ++ [(name, value)] := by
  induction pairs with
  | nil => rfl
  | cons entry pairs ih =>
    obtain ⟨key, old⟩ := entry
    simp only [List.map_cons, List.mem_cons, not_or] at h
    rw [insert, if_neg (Ne.symm h.1), ih h.2]
    rfl

theorem mem_insert {pair : κ × α} (h : pair ∈ insert pairs name value) :
    pair ∈ pairs ∨ pair.2 = value := by
  induction pairs with
  | nil =>
    obtain rfl : pair = (name, value) := by simpa [insert] using h
    exact .inr rfl
  | cons entry pairs ih =>
    obtain ⟨key, old⟩ := entry
    rw [insert] at h
    split at h
    · rcases List.mem_cons.mp h with rfl | h
      · exact .inr rfl
      · exact .inl (List.mem_cons_of_mem _ h)
    · rcases List.mem_cons.mp h with rfl | h
      · exact .inl (List.mem_cons_self ..)
      · exact (ih h).imp_left (List.mem_cons_of_mem _)

theorem mem_names_insert {other : κ} :
    other ∈ (insert pairs name value).map Prod.fst ↔
      other = name ∨ other ∈ pairs.map Prod.fst := by
  induction pairs with
  | nil => simp [insert]
  | cons entry rest ih =>
    obtain ⟨key, old⟩ := entry
    simp only [insert]
    split
    · next hkey => simp [hkey]
    · simp only [List.map_cons, List.mem_cons, ih]
      tauto

theorem mem_of_get? (h : pairs.get? name = some value) : (name, value) ∈ pairs := by
  induction pairs with
  | nil => cases h
  | cons entry pairs ih =>
    obtain ⟨key, old⟩ := entry
    rw [get?_cons] at h
    split at h
    · next hname =>
      cases h
      rw [hname]
      exact List.mem_cons_self ..
    · exact List.mem_cons_of_mem _ (ih h)

end Pairs

/-! ## Contexts that hold fields -/

namespace Context

/-- The names have the texts in a context. -/
def Holds (context : Context) (names values : List Text) : Prop :=
  List.Forall₂ (fun name value => context.field? name = some (.text value)) names values

theorem holds_append_iff {context : Context} {names names' values values' : List Text}
    (hlen : names.length = values.length) :
    context.Holds (names ++ names') (values ++ values') ↔
      context.Holds names values ∧ context.Holds names' values' := by
  induction names generalizing values with
  | nil =>
    obtain rfl : values = [] := List.length_eq_zero_iff.mp hlen.symm
    exact ⟨fun h => ⟨.nil, h⟩, And.right⟩
  | cons name names ih =>
    cases values with
    | nil => simp at hlen
    | cons value values =>
      have ih := @ih values (by simpa using hlen)
      simp only [Holds] at ih ⊢
      simp only [List.cons_append, List.forall₂_cons, ih, and_assoc]

/-- A context with the same fields holds the same. -/
theorem Holds.of_eq {context result : Context} {names values : List Text}
    (h : context.Holds names values)
    (heq : ∀ name ∈ names, result.field? name = context.field? name) :
    result.Holds names values := by
  induction h with
  | nil => exact .nil
  | @cons name value names values hname _ ih =>
    refine .cons ?_ (ih fun other hother => heq other (by simp [hother]))
    rw [heq name (by simp), hname]

theorem field?_insert (context : Context) (name other : Text) (value : Scalar) :
    field? (context.insert (.text name) value) other =
      if other = name then some value else context.field? other := by
  by_cases h : other = name
  · subst h
    simp [field?]
  · rw [field?, Pairs.get?_insert_of_ne value (by simpa using h), if_neg h, field?]

theorem field?_insertAll_of_not_mem (context : Context) {pairs : List (Text × Text)} {name : Text}
    (h : name ∉ pairs.map Prod.fst) :
    field? (context.insertAll (ofTexts pairs)) name = context.field? name := by
  refine Pairs.get?_insertAll_of_not_mem (fun hmem => h ?_) context
  rw [ofTexts, List.map_map] at hmem
  obtain ⟨entry, hentry, heq⟩ := List.mem_map.mp hmem
  exact List.mem_map.mpr ⟨entry, hentry, Scalar.text.inj heq⟩

/-- Fields that are stored under different names are held. -/
theorem holds_insertAll (context : Context) {names values : List Text} (hnodup : names.Nodup)
    (hlen : names.length = values.length) :
    Holds (context.insertAll (ofTexts (names.zip values))) names values := by
  induction names generalizing context values with
  | nil =>
    cases values with
    | nil => exact .nil
    | cons value values => simp at hlen
  | cons name names ih =>
    cases values with
    | nil => simp at hlen
    | cons value values =>
      obtain ⟨hnot, hnodup⟩ := List.nodup_cons.mp hnodup
      have hlen : names.length = values.length := by simpa using hlen
      refine .cons ?_ (ih (context.insert (.text name) (.text value)) hnodup hlen)
      have hzip : name ∉ (names.zip values).map Prod.fst := by
        rw [List.map_fst_zip (Nat.le_of_eq hlen)]
        exact hnot
      have := field?_insertAll_of_not_mem (context.insert (.text name) (.text value)) hzip
      rw [field?_insert, if_pos rfl] at this
      exact this

end Context

/-! ## Options that follow a template -/

/-- The pattern, the grammar and the fields of an option are those of a template. -/
@[mk_iff]
structure LevelOption.Follows (option : LevelOption) (template : Template) : Prop where
  separated : template.separated = true
  pattern_eq : option.pattern = template.pattern
  pieces_eq : option.grammar.text?.map Grammar.pieces = some template.pieces
  names_eq : option.fields.map Field.name = template.names
  groups_eq : option.fields.map Field.group =
    (List.range' 1 option.fields.length).map fun (number : Nat) => some (number : Int)
  nodup : template.names.Nodup

namespace LevelOption

variable {option : LevelOption} {template : Template}

instance (option : LevelOption) (template : Template) : Decidable (option.Follows template) :=
  decidable_of_iff' _ (follows_iff option template)

/-- The names of the fields are different, and they can be stored one after the other. -/
theorem Follows.nodup_fields (h : option.Follows template) :
    ((([] : Pairs Text Text).map Prod.fst) ++ option.fields.map Field.name).Nodup := by
  rw [h.names_eq]
  exact h.nodup

theorem Follows.length_fields (h : option.Follows template) {values : List Text}
    (hfits : List.Forall₂ Slot.Fits template.slots values) :
    option.fields.length = values.length := by
  rw [← hfits.length_eq, Template.length_slots, ← h.names_eq, List.length_map]

theorem Follows.match?_eq (h : option.Follows template) (value : Text) :
    option.match? value =
      (template.read? value).map fun values => ⟨Template.captured 1 values []⟩ := by
  rw [match?, h.pattern_eq, Template.matchStart?_pattern h.separated]

/-! ## Coding field by field -/

/-- Every field turns its input into its output. -/
def Codes (code : Field → Text → Except Error Text) :
    List Field → List Text → List Text → Prop
  | [], [], [] => True
  | field :: fields, input :: inputs, output :: outputs =>
    code field input = .ok output ∧ Codes code fields inputs outputs
  | _, _, _ => False

/-- The outputs of fields, stored one after the other. -/
def storeAll (code : Field → Text → Except Error Text) :
    List Field → List Text → Pairs Text Text → Except Error (Pairs Text Text)
  | field :: fields, input :: inputs, stored => do
    let output ← code field input
    storeAll code fields inputs (Pairs.insert stored field.name output)
  | _, _, stored => .ok stored

theorem Codes.length_eq {code : Field → Text → Except Error Text} {fields : List Field}
    {inputs outputs : List Text} (h : Codes code fields inputs outputs) :
    fields.length = inputs.length ∧ fields.length = outputs.length := by
  induction fields generalizing inputs outputs with
  | nil =>
    cases inputs with
    | nil => cases outputs with
      | nil => exact ⟨rfl, rfl⟩
      | cons output outputs => exact h.elim
    | cons input inputs => exact h.elim
  | cons field fields ih =>
    cases inputs with
    | nil => exact h.elim
    | cons input inputs => cases outputs with
      | nil => exact h.elim
      | cons output outputs => simpa using ih h.2

theorem codes_cons_iff {code : Field → Text → Except Error Text} {field : Field}
    {fields : List Field} {input : Text} {inputs outputs : List Text} :
    Codes code (field :: fields) (input :: inputs) outputs ↔
      ∃ output rest, outputs = output :: rest ∧ code field input = .ok output ∧
        Codes code fields inputs rest := by
  cases outputs with
  | nil => simp [Codes]
  | cons output outputs => simp [Codes, and_assoc]

theorem codes_append_iff {code : Field → Text → Except Error Text} {fields fields' : List Field}
    {inputs inputs' outputs : List Text} (hlen : fields.length = inputs.length) :
    Codes code (fields ++ fields') (inputs ++ inputs') outputs ↔
      ∃ first rest, outputs = first ++ rest ∧ Codes code fields inputs first ∧
        Codes code fields' inputs' rest := by
  induction fields generalizing inputs outputs with
  | nil =>
    obtain rfl : inputs = [] := List.length_eq_zero_iff.mp hlen.symm
    constructor
    · exact fun h => ⟨[], outputs, rfl, trivial, h⟩
    · rintro ⟨first, rest, rfl, hfirst, hrest⟩
      cases first with
      | nil => exact hrest
      | cons output first => exact hfirst.elim
  | cons field fields ih =>
    cases inputs with
    | nil => simp at hlen
    | cons input inputs =>
      have ih (outputs : List Text) := @ih inputs outputs (by simpa using hlen)
      rw [List.cons_append, List.cons_append, codes_cons_iff]
      constructor
      · rintro ⟨output, outputs, rfl, houtput, hcodes⟩
        obtain ⟨first, rest, rfl, hfirst, hrest⟩ := (ih outputs).mp hcodes
        exact ⟨output :: first, rest, rfl, ⟨houtput, hfirst⟩, hrest⟩
      · rintro ⟨_, rest, rfl, hfirst, hrest⟩
        obtain ⟨output, first, rfl, houtput, hfirst⟩ := codes_cons_iff.mp hfirst
        exact ⟨output, first ++ rest, rfl, houtput, (ih _).mpr ⟨first, rest, rfl, hfirst, hrest⟩⟩

/-- Storing fails only where a field does, and keeps the order of the fields. -/
theorem storeAll_eq_ok_iff {code : Field → Text → Except Error Text} {fields : List Field}
    {inputs : List Text} {stored result : Pairs Text Text} (hlen : fields.length = inputs.length)
    (hnodup : (stored.map Prod.fst ++ fields.map Field.name).Nodup) :
    storeAll code fields inputs stored = .ok result ↔
      ∃ outputs, Codes code fields inputs outputs ∧
        result = stored ++ (fields.map Field.name).zip outputs := by
  induction fields generalizing inputs stored with
  | nil =>
    obtain rfl : inputs = [] := List.length_eq_zero_iff.mp hlen.symm
    constructor
    · rintro ⟨⟩
      exact ⟨[], trivial, by simp⟩
    · rintro ⟨outputs, -, rfl⟩
      simp [storeAll]
  | cons field fields ih =>
    cases inputs with
    | nil => simp at hlen
    | cons input inputs =>
      simp only [storeAll]
      cases hcode : code field input with
      | error error =>
        constructor
        · intro h
          cases h
        · rintro ⟨outputs, houtputs, -⟩
          cases outputs with
          | nil => exact houtputs.elim
          | cons output outputs => exact absurd (hcode.symm.trans houtputs.1) (by simp)
      | ok output =>
        simp only [List.map_cons] at hnodup
        -- the name is new, so the entry is put at the end
        have hnot : field.name ∉ stored.map Prod.fst := by
          intro hmem
          exact (List.nodup_append.mp hnodup).2.2 _ hmem _ (by simp) rfl
        have hstored : ((Pairs.insert stored field.name output).map Prod.fst ++
            fields.map Field.name).Nodup := by
          rw [Pairs.insert_of_not_mem output hnot]
          simpa using hnodup
        have ih := ih (by simpa using hlen) hstored
        rw [Pairs.insert_of_not_mem output hnot] at ih
        change storeAll code fields inputs (Pairs.insert stored field.name output) = _ ↔ _
        rw [Pairs.insert_of_not_mem output hnot, ih]
        constructor
        · rintro ⟨outputs, houtputs, rfl⟩
          exact ⟨output :: outputs, ⟨hcode, houtputs⟩, by simp⟩
        · rintro ⟨outputs, houtputs, rfl⟩
          cases outputs with
          | nil => exact houtputs.elim
          | cons first outputs =>
            obtain rfl : output = first := by simpa using hcode.symm.trans houtputs.1
            exact ⟨outputs, houtputs.2, by simp⟩

variable {validator : Validator} {binary : Bool} {tagOption : Option LevelOption}

/-- How a field reads its capture. -/
def reading (validator : Validator) (binary : Bool) (tagOption : Option LevelOption)
    (field : Field) (captured : Text) : Except Error Text :=
  (readField validator binary field (tagField? tagOption field.name) captured).outcome

/-- How a field encodes its value. -/
def encoding (validator : Validator) (tagOption : Option LevelOption) (field : Field)
    (value : Text) : Except Error Text :=
  (field.encode validator (tagField? tagOption field.name) (.text value)).outcome

/-- A field of a text has what stands in the text, if that passes the checks of the tag's
    field. -/
theorem readField_text_eq_ok_iff {field : Field} {tag : Option Field} {captured value : Text}
    (hvoid : ∀ found ∈ tag, found.length = some 0 → captured = []) :
    (readField validator false field tag captured).outcome = .ok value ↔
      value = captured ∧ ∀ found ∈ tag,
        ∃ passed, (validator.checkField found (.text captured)).outcome = .ok passed := by
  cases tag with
  | none => simp [readField, eq_comm]
  | some found =>
    have hkept : (if found.length = some 0 then [] else captured) = captured := by
      split
      · next hlength => exact (hvoid found rfl hlength).symm
      · rfl
    simp only [readField, Bool.false_eq_true, if_false, Traced.bind_outcome_eq_ok_iff, hkept,
      Traced.pure_outcome, Except.ok.injEq, Option.mem_some_iff, forall_eq', exists_and_right]
    rw [and_comm, @eq_comm _ captured]

/-- Fields that the tag does not have are what stands in the text. -/
theorem codes_untagged_iff {fields : List Field} {captures values : List Text}
    (hnone : ∀ field ∈ fields, tagField? tagOption field.name = none)
    (hlen : fields.length = captures.length) :
    Codes (reading validator false tagOption) fields captures values ↔ values = captures := by
  induction fields generalizing captures values with
  | nil =>
    obtain rfl : captures = [] := List.length_eq_zero_iff.mp hlen.symm
    cases values <;> simp [Codes]
  | cons field fields ih =>
    cases captures with
    | nil => simp at hlen
    | cons captured captures =>
      have hread : reading validator false tagOption field captured = .ok captured := by
        rw [reading, hnone field (by simp)]
        rfl
      have ih (values : List Text) := @ih captures values
        (fun other hother => hnone other (by simp [hother])) (by simpa using hlen)
      simp only [codes_cons_iff, hread, ih, Except.ok.injEq]
      constructor
      · rintro ⟨_, _, rfl, rfl, rfl⟩
        rfl
      · rintro rfl
        exact ⟨captured, captures, rfl, rfl, rfl⟩

theorem decodeFields_outcome {found : Pattern.Match} {fields : List Field} {captures : List Text}
    (hfound : List.Forall₂ (fun field captured =>
      (field.group.bind fun group => found.group? group.toNat) = some captured) fields captures)
    (stored : Pairs Text Text) :
    (decodeFields validator binary tagOption found fields stored).outcome =
      storeAll (reading validator binary tagOption) fields captures stored := by
  induction hfound generalizing stored with
  | nil => rfl
  | @cons field captured fields captures hcaptured _ ih =>
    rw [decodeFields, storeAll]
    simp only [hcaptured, Option.getD_some, Traced.bind_outcome, Traced.record_outcome, ih]
    rfl

/-- The groups of a match hold the captures of the fields. -/
theorem Follows.found (h : option.Follows template) {captures : List Text}
    (hlen : option.fields.length = captures.length) :
    List.Forall₂ (fun field captured =>
      (field.group.bind fun group =>
        (⟨Template.captured 1 captures []⟩ : Pattern.Match).group? group.toNat) = some captured)
      option.fields captures := by
  rw [List.forall₂_iff_get]
  refine ⟨hlen, fun place hfield hcapture => ?_⟩
  have hgroup : (option.fields.get ⟨place, hfield⟩).group = some ((1 + place : Nat) : Int) := by
    have := congrArg (·[place]?) h.groups_eq
    simpa [hfield] using this
  rw [hgroup]
  simp only [Option.bind_some, Int.toNat_natCast, Pattern.Match.group?]
  rw [Template.lookup_captured 1 captures [] place hcapture]
  simp [hcapture]

/-- What an option decodes of a match, under the names of its fields. -/
theorem Follows.decode_outcome_iff (h : option.Follows template) {captures : List Text}
    (hlen : option.fields.length = captures.length) {result : Pairs Text Text} :
    (option.decode validator ⟨Template.captured 1 captures []⟩ binary tagOption).outcome =
        .ok result ↔
      ∃ values, Codes (reading validator binary tagOption) option.fields captures values ∧
        result = template.names.zip values := by
  rw [decode, decodeFields_outcome (h.found hlen), storeAll_eq_ok_iff hlen h.nodup_fields, h.names_eq]
  rfl

/-! ## Encoding and checking -/

theorem encodeFields_outcome {key : Text} {context : Context} {fields : List Field}
    {values : List Text} (hcontext : context.Holds (fields.map Field.name) values)
    (stored : Pairs Text Text) :
    (encodeFields validator key tagOption context fields stored).outcome =
      storeAll (encoding validator tagOption) fields values stored := by
  induction fields generalizing values stored with
  | nil =>
    cases values with
    | nil => rfl
    | cons value values => cases hcontext
  | cons field fields ih =>
    obtain ⟨value, values, hvalue, hrest, rfl⟩ := List.forall₂_cons_left_iff.mp hcontext
    rw [encodeFields, hvalue, storeAll]
    simp only [Traced.bind_outcome, Traced.record_outcome, ih hrest]
    rfl

/-- What an option encodes of the values that a context holds. -/
theorem Follows.encode_outcome_iff (h : option.Follows template) {context : Context}
    {values : List Text} (hcontext : context.Holds template.names values)
    {result : Pairs Text Text} :
    (option.encode validator context tagOption).outcome = .ok result ↔
      ∃ bits, Codes (encoding validator tagOption) option.fields values bits ∧
        result = template.names.zip bits := by
  have hlen : option.fields.length = values.length := by
    rw [← hcontext.length_eq, ← h.names_eq, List.length_map]
  rw [← h.names_eq] at hcontext
  rw [encode, encodeFields_outcome hcontext, storeAll_eq_ok_iff hlen h.nodup_fields, h.names_eq]
  rfl

theorem validateFields_outcome_iff {context : Context} {fields : List Field} {values : List Text}
    (hcontext : context.Holds (fields.map Field.name) values) :
    (validateFields validator context fields).outcome = .ok () ↔
      List.Forall₂ (fun field value =>
        ∃ passed, (validator.checkField field (.text value)).outcome = .ok passed)
        fields values := by
  induction fields generalizing values with
  | nil =>
    cases hcontext
    exact ⟨fun _ => .nil, fun _ => rfl⟩
  | cons field fields ih =>
    obtain ⟨value, values, hfield, hrest, rfl⟩ := List.forall₂_cons_left_iff.mp hcontext
    rw [validateFields, hfield, List.forall₂_cons, ← ih hrest]
    simp only [Option.getD_some, ne_eq, reduceCtorEq, not_false_eq_true, if_true,
      Traced.bind_outcome_eq_ok_iff, exists_and_right]

/-- Values pass the check of an option exactly if they pass the checks of its fields. -/
theorem Follows.validate_outcome_iff (h : option.Follows template) {context : Context}
    {values : List Text} (hcontext : context.Holds template.names values) :
    (option.validate validator context).outcome = .ok () ↔
      List.Forall₂ (fun field value =>
        ∃ passed, (validator.checkField field (.text value)).outcome = .ok passed)
        option.fields values := by
  rw [← h.names_eq] at hcontext
  exact validateFields_outcome_iff hcontext

end LevelOption

/-! ## Rendering -/

/-- The texts of the pieces of a template together are its text. -/
theorem Grammar.join_pieceText {template : Template} {context : Context} {values : List Text}
    (hcontext : context.Holds template.names values) (level : Text) :
    Text.join (template.pieces.map (pieceText level context)) =
      template.text (values.map (Grammar.rendered level)) := by
  induction template generalizing values with
  | nil => rw [Template.text_nil]; rfl
  | cons piece rest ih =>
    cases piece with
    | literal start =>
      rw [Template.text_literal, ← ih hcontext]
      rfl
    | field name slot =>
      obtain ⟨value, values, hvalue, hrest, rfl⟩ := List.forall₂_cons_left_iff.mp hcontext
      rw [List.map_cons, Template.text_field, ← ih hrest, Template.pieces, List.map_cons, pieceText,
        hvalue]
      rfl

/-- A context that holds the fields of a template has texts for the fields of its pieces. -/
theorem Grammar.filled_of_holds {template : Template} {context : Context} {values : List Text}
    (hcontext : context.Holds template.names values) : Filled context template.pieces := by
  induction template generalizing values with
  | nil => exact fun _ hmem => nomatch hmem
  | cons piece rest ih =>
    intro other hmem
    cases piece with
    | literal start =>
      rcases List.mem_cons.mp hmem with heq | hmem
      · cases heq
      · exact ih hcontext other hmem
    | field name slot =>
      obtain ⟨value, values, hvalue, hrest, rfl⟩ := List.forall₂_cons_left_iff.mp hcontext
      rcases List.mem_cons.mp hmem with heq | hmem
      · cases heq
        exact ⟨value, hvalue⟩
      · exact ih hrest other hmem

/-- All fields of a template that is rendered have values. -/
theorem Grammar.exists_of_mapM_renderPiece {grammar : Text} {escaped : Bool} {template : Template}
    {context : Context} {parts : List Scalar}
    (h : template.pieces.mapM (renderPiece grammar escaped context) = .ok parts) :
    ∀ name ∈ template.names, ∃ value, context.field? name = some value := by
  induction template generalizing parts with
  | nil => simp [Template.names]
  | cons piece rest ih =>
    cases piece with
    | literal start =>
      rw [Template.pieces, List.mapM_cons] at h
      obtain ⟨first, -, h⟩ := bind_eq_ok_iff.mp h
      obtain ⟨others, hothers, -⟩ := bind_eq_ok_iff.mp h
      exact ih hothers
    | field name slot =>
      rw [Template.pieces, List.mapM_cons] at h
      obtain ⟨first, hfirst, h⟩ := bind_eq_ok_iff.mp h
      obtain ⟨others, hothers, -⟩ := bind_eq_ok_iff.mp h
      intro other hother
      rcases List.mem_cons.mp hother with rfl | hother
      · rw [renderPiece] at hfirst
        split at hfirst
        · next value hvalue => exact ⟨value, hvalue⟩
        · cases hfirst
      · exact ih hothers other hother

/-- A context that holds the fields of a template is rendered as its text. -/
theorem Grammar.render_outcome {grammar : Text} {template : Template} {context : Context}
    {values : List Text} (hpieces : Grammar.pieces grammar = template.pieces)
    (hcontext : context.Holds template.names values) (level : Text) :
    (Grammar.render grammar context level).outcome =
      .ok (template.text (values.map (Grammar.rendered level))) := by
  have hfilled : Filled context (Grammar.pieces grammar) := hpieces ▸ filled_of_holds hcontext
  rw [render_of_filled hfilled, hpieces, join_pieceText hcontext]

end EpcTag
