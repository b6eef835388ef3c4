-- SUMMARY: A conversion as reading a value into a context and writing the context out.
import EpcTag.Engine.Basic
import EpcTag.Proofs.OptionCoding
import EpcTag.Proofs.Resolution
import EpcTag.Proofs.UriEscape

/-!
# Conversions in two halves

A conversion reads its value into a context of fields and writes the context at
the output level. The two halves share nothing but the scheme, the key of the
option and the context, so what is known of them can be combined freely: one
statement for each level that is read and one for each level that is written.
-/

namespace EpcTag.Engine

/-- What a conversion knows of its value when it turns to the output. -/
structure Reading where
  scheme : Scheme
  key : Text
  context : Context

/-- The context in which the option of a value is selected. -/
def startContext (params : Params) (scheme : Scheme) : Context :=
  params.toContext.insert (.text tagLengthName) (.text (Text.ofInt scheme.tagLength))

/-- The first half of a conversion. -/
def read (engine : Engine) (value : Text) (inputLevel : Option Text) (tagLength : Scalar)
    (params : Params) : Except Error Reading := do
  let ⟨scheme, level⟩ ← (engine.index.resolve (plainValue value) tagLength inputLevel).outcome
  let context := startContext params scheme
  let (option, found) ← select scheme level (plainValue value) context
  let context := context.insert scheme.optionKey (.text option.key)
  let values ← (option.decode engine.validator found (level.type = .binary)
    (scheme.tagOption? option.key)).outcome
  let context := context.insertAll (Context.ofTexts values)
  let context ← (Rules.derive engine.lookup context level.extractRules).outcome
  pure ⟨scheme, option.key, context⟩

/-- The second half of a conversion. -/
def write (engine : Engine) (reading : Reading) (output : Text) : Except Error Text := do
  let (level, option) ← outputOption reading.scheme output reading.key
  let context ← (Rules.derive engine.lookup reading.context level.formatRules).outcome
  (engine.renderOutput output option (reading.scheme.tagOption? reading.key) context).outcome

/-- A conversion reads and then writes. -/
theorem convertFromLevel_outcome (engine : Engine) (value : Text) (inputLevel : Option Text)
    (tagLength : Scalar) (params : Params) (output : Text) :
    (engine.convertFromLevel value inputLevel tagLength params output).outcome =
      (engine.read value inputLevel tagLength params).bind fun reading =>
        engine.write reading output := by
  simp only [convertFromLevel, read, write, startContext, Traced.bind_outcome, bind_eq_bind,
    ok_eq_pure, bind_assoc, pure_bind, bind_pure, Traced.ofExcept_outcome, Traced.record_outcome,
    Traced.pure_outcome]

theorem convert_outcome (engine : Engine) (value : Text) (params : Params) (output : Text) :
    (engine.convert value params output).outcome =
      (engine.read value none (params.get tagLengthName) params).bind fun reading =>
        engine.write reading output :=
  engine.convertFromLevel_outcome value none _ params output

/-- A value that is read is converted to what is written. -/
theorem convert_of_read {engine : Engine} {value : Text} {params : Params} {reading : Reading}
    (h : engine.read value none (params.get tagLengthName) params = .ok reading) (output : Text) :
    (engine.convert value params output).outcome = engine.write reading output := by
  rw [convert_outcome, h]
  rfl

/-- A value that cannot be read is not converted. -/
theorem convert_of_unread {engine : Engine} {value : Text} {params : Params} {error : Error}
    (h : engine.read value none (params.get tagLengthName) params = .error error) (output : Text) :
    (engine.convert value params output).outcome = .error error := by
  rw [convert_outcome, h]
  rfl

/-- What a value is converted to is written from what is read. -/
theorem convert_eq_ok_iff {engine : Engine} {value : Text} {params : Params}
    {output result : Text} :
    (engine.convert value params output).outcome = .ok result ↔
      ∃ reading, engine.read value none (params.get tagLengthName) params = .ok reading ∧
        engine.write reading output = .ok result := by
  rw [convert_outcome, bind_eq_ok_iff]

/-! ## Escapes -/

/-- A value that does not start like a URI is matched as it is. -/
theorem plainValue_of_head? {value : Text} (h : value.head? ≠ some 'u') :
    plainValue value = value := by
  have hstart : uriStart = 'u' :: "rn:epc:".toList := by decide
  refine if_neg ?_
  cases value with
  | nil => decide
  | cons c value =>
    have hc : ('u' == c) = false := by
      rw [beq_eq_false_iff_ne]
      rintro rfl
      exact h rfl
    rw [Text.startsWith, hstart, List.isPrefixOf_cons_cons, hc, Bool.false_and]
    exact Bool.false_ne_true

/-- Bits are matched as they are. -/
theorem plainValue_of_digits {bits : Text} (h : Numeral.Digits 2 bits) : plainValue bits = bits := by
  refine plainValue_of_head? fun hhead => ?_
  obtain ⟨rest, rfl⟩ := List.head?_eq_some_iff.mp hhead
  exact absurd (h 'u' (by simp)) (by decide)

/-- An escaped URI is matched without its escapes. -/
theorem plainValue_escape {value : Text} (h : uriStart.isPrefixOf value = true) :
    plainValue (UriEscape.escape value) = value := by
  obtain ⟨rest, rfl⟩ := List.isPrefixOf_iff_prefix.mp h
  have hstart : Text.startsWith (UriEscape.escape (uriStart ++ rest)) uriStart = true := by
    rw [UriEscape.escape_append, UriEscape.escape_of_plain (by decide), Text.startsWith,
      List.isPrefixOf_iff_prefix]
    exact List.prefix_append _ _
  rw [plainValue, if_pos hstart, UriEscape.unescape_escape]

/-! ## Selection -/

/-- The option that is asked for is the parameter of the name of the option key. -/
theorem requestedKey_startContext (params : Params) {scheme : Scheme} {optionKey : Text}
    (hoption : scheme.optionKey = .text optionKey) (hne : optionKey ≠ tagLengthName) :
    requestedKey scheme (startContext params scheme) =
      (params.toContext.field? optionKey).map Scalar.shown := by
  have hfield : (startContext params scheme).field? optionKey =
      params.toContext.field? optionKey := by
    rw [startContext, Context.field?_insert, if_neg hne]
  rw [requestedKey, hoption, ← hfield]
  rfl

/-- All options of a level whose values speak for themselves are eligible. -/
theorem eligible_of_selfDescribing {level : Level} (h : level.type.selfDescribing = true)
    (requested : Option Text) : eligible level requested = level.options := by
  rw [eligible.eq_def]
  cases requested with
  | none => rfl
  | some key => exact if_pos h

/-- An option that alone matches is selected. -/
theorem select_of_matching {scheme : Scheme} {level : Level} {value : Text} {context : Context}
    {option : LevelOption} {found : Pattern.Match}
    (h : matching (eligible level (requestedKey scheme context)) value = [(option, found)]) :
    select scheme level value context = .ok (option, found) := by
  simp only [select, h]

/-- If several options match, the one that alone has the requested key is selected. -/
theorem select_of_several_iff {scheme : Scheme} {level : Level} {value : Text} {context : Context}
    {candidate : LevelOption × Pattern.Match}
    (h : 2 ≤ (matching (eligible level (requestedKey scheme context)) value).length) :
    select scheme level value context = .ok candidate ↔
      (matching (eligible level (requestedKey scheme context)) value).filter
        (fun other => some other.1.key == requestedKey scheme context) = [candidate] := by
  simp only [select]
  split
  · next hnil => simp [hnil] at h
  · next only honly => simp [honly] at h
  · split
    · next settled hsettled => simp [hsettled]
    · next hother =>
      constructor
      · intro h
        cases h
      · intro h
        exact absurd h (hother candidate)

/-- Of options made from places without repetition, one that alone matches is the
    only match. -/
theorem matching_map_of_unique {ι : Type} {places : List ι} {make : ι → LevelOption}
    {place : ι} {value : Text} {found : Pattern.Match} (hmem : place ∈ places)
    (hnodup : places.Nodup) (hfound : (make place).match? value = some found)
    (hother : ∀ other ∈ places, other ≠ place → (make other).match? value = none) :
    matching (places.map make) value = [(make place, found)] := by
  -- nothing before the place matches, and nothing behind it
  have hnone (rest : List ι) (h : ∀ other ∈ rest, (make other).match? value = none) :
      matching (rest.map make) value = [] := by
    simp only [matching, List.filterMap_map, List.filterMap_eq_nil_iff]
    intro other hother
    simp [h other hother]
  obtain ⟨before, after, rfl⟩ := List.append_of_mem hmem
  have hsplit : matching ((before ++ place :: after).map make) value =
      matching (before.map make) value ++
        (make place, found) :: matching (after.map make) value := by
    simp [matching, hfound]
  have hdisjoint := List.nodup_append.mp hnodup
  rw [hsplit, hnone before, hnone after]
  · rfl
  · intro other hafter
    refine hother other (by simp [hafter]) ?_
    rintro rfl
    exact (List.nodup_cons.mp hdisjoint.2.1).1 hafter
  · intro other hbefore
    refine hother other (by simp [hbefore]) ?_
    rintro rfl
    exact hdisjoint.2.2 other hbefore other (by simp) rfl

/-- A selected option is one of its level, and it matches. -/
theorem mem_of_select {scheme : Scheme} {level : Level} {value : Text} {context : Context}
    {option : LevelOption} {found : Pattern.Match}
    (h : select scheme level value context = .ok (option, found)) :
    option ∈ level.options ∧ option.match? value = some found := by
  have hmatching : (option, found) ∈
      matching (eligible level (requestedKey scheme context)) value := by
    simp only [select] at h
    split at h
    · cases h
    · next only honly => cases h; simp [honly]
    · next several hone htwo =>
      split at h
      · next settled hsettled =>
        cases h
        exact List.mem_of_mem_filter (hsettled ▸ List.mem_singleton.mpr rfl)
      · cases h
  simp only [matching, List.mem_filterMap, Option.map_eq_some_iff] at hmatching
  obtain ⟨chosen, hchosen, found', hfound, heq⟩ := hmatching
  cases heq
  refine ⟨?_, hfound⟩
  simp only [eligible] at hchosen
  split at hchosen
  · split at hchosen
    · exact hchosen
    · exact List.mem_of_mem_filter hchosen
  · exact hchosen

/-! ## Reading -/

/-- The context in which the fields of a value have been stored. -/
def fieldContext (params : Params) (scheme : Scheme) (key : Text) (names values : List Text) :
    Context :=
  ((startContext params scheme).insert scheme.optionKey (.text key)).insertAll
    (Context.ofTexts (names.zip values))

/-- An option is selected for a value that is read. -/
theorem exists_select_of_read {engine : Engine} {value : Text} {inputLevel : Option Text}
    {tagLength : Scalar} {params : Params} {scheme : Scheme} {level : Level} {reading : Reading}
    (hresolve : (engine.index.resolve (plainValue value) tagLength inputLevel).outcome =
      .ok ⟨scheme, level⟩)
    (hread : engine.read value inputLevel tagLength params = .ok reading) :
    ∃ option found, select scheme level (plainValue value) (startContext params scheme) =
      .ok (option, found) := by
  obtain ⟨candidate, hcandidate, hread⟩ := bind_eq_ok_iff.mp hread
  rw [hresolve] at hcandidate
  cases hcandidate
  obtain ⟨⟨option, found⟩, hselect, -⟩ := bind_eq_ok_iff.mp hread
  exact ⟨option, found, hselect⟩

/-- A value is read field by field, after which the extract rules run. -/
theorem read_eq_ok_iff {engine : Engine} {value : Text} {inputLevel : Option Text}
    {tagLength : Scalar} {params : Params} {scheme : Scheme} {level : Level} {option : LevelOption}
    {template : Template} {captures : List Text} {reading : Reading}
    (hresolve : (engine.index.resolve (plainValue value) tagLength inputLevel).outcome =
      .ok ⟨scheme, level⟩)
    (hselect : select scheme level (plainValue value) (startContext params scheme) =
      .ok (option, ⟨Template.captured 1 captures []⟩))
    (hfollows : option.Follows template) (hlen : option.fields.length = captures.length) :
    engine.read value inputLevel tagLength params = .ok reading ↔
      ∃ values context, LevelOption.Codes (LevelOption.reading engine.validator
          (level.type = .binary) (scheme.tagOption? option.key)) option.fields captures values ∧
        (Rules.derive engine.lookup
          (fieldContext params scheme option.key template.names values)
          level.extractRules).outcome = .ok context ∧
        reading = ⟨scheme, option.key, context⟩ := by
  simp only [read, hresolve, hselect, ok_bind]
  simp only [← bind_eq_bind, bind_eq_ok_iff, hfollows.decode_outcome_iff hlen]
  constructor
  · rintro ⟨stored, ⟨values, hvalues, rfl⟩, context, hcontext, heq⟩
    exact ⟨values, context, hvalues, hcontext, (Except.ok.inj heq).symm⟩
  · rintro ⟨values, context, hvalues, hcontext, rfl⟩
    exact ⟨_, ⟨values, hvalues, rfl⟩, context, hcontext, rfl⟩

/-- The fields of a value are held by the context in which they are stored. -/
theorem holds_fieldContext (params : Params) (scheme : Scheme) (key : Text)
    {names values : List Text} (hnodup : names.Nodup) (hlen : names.length = values.length) :
    (fieldContext params scheme key names values).Holds names values :=
  Context.holds_insertAll _ hnodup hlen

/-- A name that is no field of a value has the value of a parameter. -/
theorem field?_fieldContext (params : Params) {scheme : Scheme} {optionKey : Text}
    (hoption : scheme.optionKey = .text optionKey) (key : Text) {names values : List Text}
    {name : Text} (hname : name ∉ names) :
    (fieldContext params scheme key names values).field? name =
      if name = optionKey then some (.text key)
      else if name = tagLengthName then some (.text (Text.ofInt scheme.tagLength))
      else params.toContext.field? name := by
  have hzip : name ∉ (names.zip values).map Prod.fst := by
    intro hmem
    obtain ⟨pair, hpair, rfl⟩ := List.mem_map.mp hmem
    exact hname (List.of_mem_zip hpair).1
  rw [fieldContext, Context.field?_insertAll_of_not_mem _ hzip, hoption, Context.field?_insert,
    startContext, Context.field?_insert]

/-! ## Options of places -/

section
variable {Place : Type} {places : List Place} {make : Place → LevelOption}
  {template : Place → Template} {scheme : Scheme} {level : Level} {value : Text}
  {context : Context} {place : Place}

/-- The option of the place whose template reads a value is selected, if all other
    templates clash with it. -/
theorem select_of_read? (hself : level.type.selfDescribing = true)
    (hoptions : level.options = places.map make)
    (hfollows : ∀ other ∈ places, (make other).Follows (template other)) (hnodup : places.Nodup)
    (hclash : ∀ other ∈ places, other ≠ place → (template place).clash (template other) = true)
    (hplace : place ∈ places) {captures : List Text}
    (hread : (template place).read? value = some captures) :
    select scheme level value context = .ok (make place, ⟨Template.captured 1 captures []⟩) := by
  refine select_of_matching ?_
  rw [eligible_of_selfDescribing hself, hoptions]
  refine matching_map_of_unique hplace hnodup ?_ fun other hother hne => ?_
  · rw [(hfollows place hplace).match?_eq, hread]
    rfl
  · rw [(hfollows other hother).match?_eq,
      Template.read?_eq_none_of_clash (hclash other hother hne) hread]
    rfl

/-- The option of the requested key is selected, if its template reads a value. -/
theorem select_of_requestedKey (hself : level.type.selfDescribing = false)
    (hoptions : level.options = places.map make)
    (hfollows : ∀ other ∈ places, (make other).Follows (template other))
    (hnodup : (places.map fun other => (make other).key).Nodup) (hplace : place ∈ places)
    (hkey : requestedKey scheme context = some (make place).key) {captures : List Text}
    (hread : (template place).read? value = some captures) :
    select scheme level value context = .ok (make place, ⟨Template.captured 1 captures []⟩) := by
  refine select_of_matching ?_
  have hsingle : places.filter (fun other => (make other).key = (make place).key) = [place] :=
    filter_eq_of_nodup_map hnodup hplace
  have heligible : eligible level (requestedKey scheme context) = [place].map make := by
    rw [hkey, eligible.eq_def]
    simp only [hself, Bool.false_eq_true, if_false]
    rw [hoptions, List.filter_map, ← hsingle]
    refine congrArg (List.map make) (List.filter_congr fun other _ => ?_)
    exact beq_eq_decide _ _
  rw [heligible]
  refine matching_map_of_unique (List.mem_singleton.mpr rfl) (List.nodup_singleton _) ?_ ?_
  · rw [(hfollows place hplace).match?_eq, hread]
    rfl
  · intro other hother hne
    exact absurd (List.mem_singleton.mp hother) hne

/-- If the templates of several places read a value, the option of the requested key is
    selected. -/
theorem select_of_alike_iff (hself : level.type.selfDescribing = true)
    (hoptions : level.options = places.map make)
    (hfollows : ∀ other ∈ places, (make other).Follows (template other))
    (hnodup : (places.map fun other => (make other).key).Nodup) (hseveral : 2 ≤ places.length)
    {captures : List Text}
    (hread : ∀ other ∈ places, (template other).read? value = some captures)
    {option : LevelOption} {found : Pattern.Match} :
    select scheme level value context = .ok (option, found) ↔
      ∃ place ∈ places, requestedKey scheme context = some (make place).key ∧
        option = make place ∧ found = ⟨Template.captured 1 captures []⟩ := by
  obtain ⟨result, hresult⟩ :
      ∃ result : Pattern.Match, result = ⟨Template.captured 1 captures []⟩ := ⟨_, rfl⟩
  have hmatching : matching (eligible level (requestedKey scheme context)) value =
      places.map fun other => (make other, result) := by
    rw [eligible_of_selfDescribing hself, hoptions, matching, List.filterMap_map]
    refine List.filterMap_eq_map_iff_forall_eq_some.mpr fun other hother => ?_
    simp [(hfollows other hother).match?_eq, hread other hother, hresult]
  rw [select_of_several_iff (by rwa [hmatching, List.length_map]), hmatching, List.filter_map]
  constructor
  · intro h
    obtain ⟨other, hother, heq⟩ := List.mem_map.mp
      (h ▸ List.mem_singleton.mpr rfl : (option, found) ∈ List.map _ _)
    cases heq
    obtain ⟨hmem, hkey⟩ := List.mem_filter.mp hother
    exact ⟨other, hmem, (eq_of_beq hkey).symm, rfl, hresult⟩
  · rintro ⟨place, hplace, hkey, rfl, rfl⟩
    have hsingle : places.filter ((fun candidate : LevelOption × Pattern.Match =>
        some candidate.1.key == requestedKey scheme context) ∘
          fun other => (make other, result)) = [place] := by
      rw [← filter_eq_of_nodup_map hnodup hplace]
      refine List.filter_congr fun other _ => ?_
      rw [Bool.eq_iff_iff]
      simp [hkey]
    rw [hsingle, hresult]
    rfl

/-- No option is selected if no template reads a value. -/
theorem select_of_unread (hself : level.type.selfDescribing = true)
    (hoptions : level.options = places.map make)
    (hfollows : ∀ other ∈ places, (make other).Follows (template other))
    (hunread : ∀ other ∈ places, (template other).read? value = none) :
    select scheme level value context =
      .error (.noMatch (.noOption scheme.name level.type value)) := by
  have hmatching : matching (eligible level (requestedKey scheme context)) value = [] := by
    rw [eligible_of_selfDescribing hself, hoptions]
    simp only [matching, List.filterMap_map, List.filterMap_eq_nil_iff]
    intro other hother
    simp [(hfollows other hother).match?_eq, hunread other hother]
  simp only [select, hmatching]

/-- A selected option is that of a place, and the template of the place reads the value. -/
theorem exists_place_of_select (hoptions : level.options = places.map make)
    (hfollows : ∀ other ∈ places, (make other).Follows (template other)) {option : LevelOption}
    {found : Pattern.Match} (h : select scheme level value context = .ok (option, found)) :
    ∃ place ∈ places, ∃ captures, option = make place ∧
      found = ⟨Template.captured 1 captures []⟩ ∧
      (template place).read? value = some captures := by
  obtain ⟨hmem, hmatch⟩ := mem_of_select h
  rw [hoptions] at hmem
  obtain ⟨place, hplace, rfl⟩ := List.mem_map.mp hmem
  rw [(hfollows place hplace).match?_eq] at hmatch
  obtain ⟨captures, hcaptures, hfound⟩ := Option.map_eq_some_iff.mp hmatch
  exact ⟨place, hplace, captures, rfl, hfound.symm, hcaptures⟩

/-- The option of a key is that of its place. -/
theorem option?_of_place (hoptions : level.options = places.map make)
    (hnodup : (places.map fun other => (make other).key).Nodup) (hplace : place ∈ places) :
    level.option? (make place).key = some (make place) := by
  have hmem : make place ∈ places.map make := List.mem_map_of_mem hplace
  have hkeys : ((places.map make).map LevelOption.key).Nodup := by rwa [List.map_map]
  rw [Level.option?, hoptions]
  exact find?_eq_of_nodup_map hkeys hmem

end

/-! ## Writing -/

/-- The second half of a conversion runs the format rules and renders the output. -/
theorem write_outcome {engine : Engine} {scheme : Scheme} {key output : Text} {level : Level}
    {option : LevelOption} {context result : Context}
    (houtput : outputOption scheme output key = .ok (level, option))
    (hderive : (Rules.derive engine.lookup context level.formatRules).outcome = .ok result) :
    engine.write ⟨scheme, key, context⟩ output =
      (engine.renderOutput output option (scheme.tagOption? key) result).outcome := by
  rw [write, houtput]
  change ((Rules.derive engine.lookup context level.formatRules).outcome >>= fun context => _) = _
  rw [hderive]
  rfl

/-- Text output renders the fields that the context holds, if they pass the checks. -/
theorem renderOutput_text_iff {engine : Engine} {output : Text} {option : LevelOption}
    {template : Template} (hfollows : option.Follows template)
    (houtput : output ≠ LevelType.binary.name) (tagOption : Option LevelOption)
    {context : Context} {values : List Text} (hcontext : context.Holds template.names values)
    {result : Text} :
    (engine.renderOutput output option tagOption context).outcome = .ok result ↔
      List.Forall₂ (fun field value =>
        ∃ passed, (engine.validator.checkField field (.text value)).outcome = .ok passed)
        option.fields values ∧ result = template.text (values.map (Grammar.rendered output)) := by
  obtain ⟨grammar, hgrammar, hpieces⟩ := Option.map_eq_some_iff.mp hfollows.pieces_eq
  have hoperand : option.grammar.operand = .ok grammar := by rw [Scalar.operand, hgrammar]
  simp only [renderOutput, if_neg houtput, Traced.bind_outcome_eq_ok_iff, hoperand,
    Traced.liftM_outcome, Grammar.render_outcome hpieces hcontext output, Except.ok.injEq,
    exists_eq_left', ← hfollows.validate_outcome_iff hcontext]
  constructor
  · rintro ⟨⟨⟩, hvalid, rfl⟩
    exact ⟨hvalid, rfl⟩
  · rintro ⟨hvalid, rfl⟩
    exact ⟨(), hvalid, rfl⟩

/-- Text output has values for all fields of its template. -/
theorem exists_of_renderOutput_text {engine : Engine} {output : Text} {option : LevelOption}
    {template : Template} (hfollows : option.Follows template)
    (houtput : output ≠ LevelType.binary.name) {tagOption : Option LevelOption}
    {context : Context} {result : Text}
    (h : (engine.renderOutput output option tagOption context).outcome = .ok result) :
    ∀ name ∈ template.names, ∃ value, context.field? name = some value := by
  obtain ⟨grammar, hgrammar, hpieces⟩ := Option.map_eq_some_iff.mp hfollows.pieces_eq
  have hoperand : option.grammar.operand = .ok grammar := by rw [Scalar.operand, hgrammar]
  simp only [renderOutput, if_neg houtput, Grammar.render, Traced.bind_outcome_eq_ok_iff, hoperand,
    Traced.liftM_outcome, Traced.ofExcept_outcome, Except.ok.injEq, exists_eq_left', hpieces] at h
  obtain ⟨-, -, text, hrender, -⟩ := h
  obtain ⟨parts, hparts, -⟩ := bind_eq_ok_iff.mp hrender
  exact Grammar.exists_of_mapM_renderPiece hparts

/-- Binary output renders the bits of the fields of an option. -/
theorem renderOutput_of_encode {engine : Engine} {option : LevelOption} {template : Template}
    (hfollows : option.Follows template) {tagOption : Option LevelOption} {context : Context}
    {bits : List Text} (hlen : template.names.length = bits.length)
    (hencode : (option.encode engine.validator context tagOption).outcome =
      .ok (template.names.zip bits)) :
    (engine.renderOutput LevelType.binary.name option tagOption context).outcome =
      .ok (template.text bits) := by
  obtain ⟨grammar, hgrammar, hpieces⟩ := Option.map_eq_some_iff.mp hfollows.pieces_eq
  have hoperand : option.grammar.operand = .ok grammar := by rw [Scalar.operand, hgrammar]
  have hholds := Context.holds_insertAll context hfollows.nodup hlen
  have hrendered : bits.map (Grammar.rendered LevelType.binary.name) = bits := by
    have : Grammar.rendered LevelType.binary.name = id := by
      funext value
      rfl
    rw [this, List.map_id]
  simp only [renderOutput, if_true, Traced.bind_outcome, hoperand, Traced.liftM_outcome, hencode]
  have := Grammar.render_outcome hpieces hholds LevelType.binary.name
  rw [hrendered] at this
  exact this

/-- Binary output renders the bits of the fields that the context holds. -/
theorem renderOutput_binary {engine : Engine} {option : LevelOption}
    {template : Template} (hfollows : option.Follows template) {tagOption : Option LevelOption}
    {context : Context} {values bits : List Text} (hcontext : context.Holds template.names values)
    (hbits : LevelOption.Codes (LevelOption.encoding engine.validator tagOption) option.fields
      values bits) :
    (engine.renderOutput LevelType.binary.name option tagOption context).outcome =
      .ok (template.text bits) := by
  have hlen : template.names.length = bits.length := by
    rw [← hbits.length_eq.2, ← hfollows.names_eq, List.length_map]
  exact renderOutput_of_encode hfollows hlen
    ((hfollows.encode_outcome_iff hcontext).mpr ⟨bits, hbits, rfl⟩)

end EpcTag.Engine
