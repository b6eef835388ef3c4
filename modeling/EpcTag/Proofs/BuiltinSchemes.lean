-- SUMMARY: The built-in schemes as forms, which are lawful, and the engine that has them.
import EpcTag.Builtin
import EpcTag.Proofs.Building
import EpcTag.Proofs.ElementStrings
import EpcTag.Proofs.SingleForms

/-!
# The built-in schemes

The built-in definitions are built into the schemes of the forms, and these are
put into natural order. What is said here of the definitions and of the schemes
is about closed data, so it is computed; everything else about the built-in
schemes follows from it.
-/

namespace EpcTag

open LevelIndex (allEntries)

/-! ## Building and sorting -/

namespace NaturalOrder

variable {α β : Type} {name : β → Text} {make : α → β} {elements sorted : List α}

theorem mapM_pieces_map {keyed : List (List NamePiece × α)}
    (h : (elements.mapM fun element => do pure (← pieces (name (make element)), element)) =
      .ok keyed) :
    ((elements.map make).mapM fun element => do pure (← pieces (name element), element)) =
      .ok (keyed.map (Prod.map id make)) := by
  induction elements generalizing keyed with
  | nil =>
    cases h
    rfl
  | cons element elements ih =>
    rw [List.mapM_cons] at h
    obtain ⟨first, hfirst, h⟩ := bind_eq_ok_iff.mp h
    obtain ⟨rest, hrest, h⟩ := bind_eq_ok_iff.mp h
    cases h
    obtain ⟨key, hkey, hfirst⟩ := bind_eq_ok_iff.mp hfirst
    cases hfirst
    rw [List.map_cons, List.mapM_cons, ih hrest, hkey]
    rfl

/-- Elements that are made from others are sorted as these, by the names of what is made. -/
theorem sortBy_map (h : sortBy (fun element => name (make element)) elements = .ok sorted) :
    sortBy name (elements.map make) = .ok (sorted.map make) := by
  obtain ⟨keyed, hkeyed, h⟩ := bind_eq_ok_iff.mp h
  have hkeys : (keyed.map (Prod.map id make)).map Prod.fst = keyed.map Prod.fst := by
    rw [List.map_map]
    rfl
  rw [sortBy, mapM_pieces_map hkeyed]
  change (if comparable ((keyed.map (Prod.map id make)).map Prod.fst) then _ else _) = _
  rw [hkeys]
  split at h
  · next hcomparable =>
    cases h
    rw [if_pos hcomparable, sortStable_map, List.map_map, List.map_map]
    rfl
  · cases h

end NaturalOrder

/-! ## The schemes -/

namespace Builtin

/-- The built-in schemes in the order of an engine. -/
def schemes : List Scheme :=
  [SingleForm.gid96.tagForm.scheme, Gs1Form.grai96.tagForm.scheme, Gs1Form.sgln96.tagForm.scheme,
   Gs1Form.shortForm.scheme, Gs1Form.sgtin96.tagForm.scheme, Gs1Form.sgtin198.tagForm.scheme,
   Gs1Form.sscc96.tagForm.scheme, SingleForm.usdod64.tagForm.scheme,
   SingleForm.usdod96.tagForm.scheme]

/-- The GS1 definitions are built into the schemes of the forms. -/
theorem build_gs1 : gs1Definitions.mapM SchemeDocument.build =
    .ok [Gs1Form.shortForm.scheme, Gs1Form.sgtin96.tagForm.scheme,
      Gs1Form.sgtin198.tagForm.scheme, Gs1Form.sscc96.tagForm.scheme,
      Gs1Form.sgln96.tagForm.scheme, Gs1Form.grai96.tagForm.scheme] := by
  have hsgtin64 : sgtin64.build = .ok Gs1Form.shortForm.scheme :=
    eq_ok_of_toOption (by decide +kernel)
  have hsgtin96 : sgtin96.build = .ok Gs1Form.sgtin96.tagForm.scheme :=
    eq_ok_of_toOption (by decide +kernel)
  have hsgtin198 : sgtin198.build = .ok Gs1Form.sgtin198.tagForm.scheme :=
    eq_ok_of_toOption (by decide +kernel)
  have hsscc96 : sscc96.build = .ok Gs1Form.sscc96.tagForm.scheme :=
    eq_ok_of_toOption (by decide +kernel)
  have hsgln96 : sgln96.build = .ok Gs1Form.sgln96.tagForm.scheme :=
    eq_ok_of_toOption (by decide +kernel)
  have hgrai96 : grai96.build = .ok Gs1Form.grai96.tagForm.scheme :=
    eq_ok_of_toOption (by decide +kernel)
  exact mapM_eq_ok (.cons hsgtin64 (.cons hsgtin96 (.cons hsgtin198 (.cons hsscc96
    (.cons hsgln96 (.cons hgrai96 .nil))))))

/-- The other definitions are built into the schemes of the forms. -/
theorem build_single : (gidDefinitions ++ dodDefinitions).mapM SchemeDocument.build =
    .ok [SingleForm.gid96.tagForm.scheme, SingleForm.usdod64.tagForm.scheme,
      SingleForm.usdod96.tagForm.scheme] := by
  have hgid96 : gid96.build = .ok SingleForm.gid96.tagForm.scheme :=
    eq_ok_of_toOption (by decide +kernel)
  have husdod64 : usdod64.build = .ok SingleForm.usdod64.tagForm.scheme :=
    eq_ok_of_toOption (by decide +kernel)
  have husdod96 : usdod96.build = .ok SingleForm.usdod96.tagForm.scheme :=
    eq_ok_of_toOption (by decide +kernel)
  exact mapM_eq_ok (.cons hgid96 (.cons husdod64 (.cons husdod96 .nil)))

/-- The schemes in the order of their definitions. -/
def built : List Scheme :=
  [Gs1Form.shortForm.scheme, Gs1Form.sgtin96.tagForm.scheme, Gs1Form.sgtin198.tagForm.scheme,
   Gs1Form.sscc96.tagForm.scheme, Gs1Form.sgln96.tagForm.scheme, Gs1Form.grai96.tagForm.scheme,
   SingleForm.gid96.tagForm.scheme, SingleForm.usdod64.tagForm.scheme,
   SingleForm.usdod96.tagForm.scheme]

theorem build_definitions : definitions.mapM SchemeDocument.build = .ok built := by
  rw [definitions, List.append_assoc, List.mapM_append, build_gs1, build_single]
  rfl

/-- The schemes are put into natural order. -/
theorem sortBy_built : NaturalOrder.sortBy Scheme.name built = .ok schemes := by
  have hplaces : NaturalOrder.sortBy (fun place : Fin 9 => (built.get (place.cast rfl)).name)
      (List.finRange 9) = .ok [6, 5, 4, 0, 1, 2, 3, 7, 8] :=
    eq_ok_of_toOption (by decide +kernel)
  exact NaturalOrder.sortBy_map hplaces

example : schemes.map Scheme.name = ["GID-96".toList, "GRAI-96".toList, "SGLN-96".toList,
    "SGTIN-64".toList, "SGTIN-96".toList, "SGTIN-198".toList, "SSCC-96".toList,
    "USDOD-64".toList, "USDOD-96".toList] := by decide +kernel

theorem checkStarts_schemes : LevelIndex.checkStarts schemes = .ok () := by
  refine eq_ok_of_toOption ?_
  decide +kernel

/-- The levels are told apart by their starts and tag lengths. -/
theorem distinct_schemes : LevelIndex.Distinct schemes where
  prefixFree := by decide +kernel
  nodup := by decide +kernel

/-- A tag and a tag URI say what their scheme is. -/
theorem count_tagStart : ∀ entry ∈ allEntries schemes,
    entry.2.level.type = .binary ∨ entry.2.level.type = .tagEncoding →
      ((allEntries schemes).map Prod.fst).count entry.1 = 1 := by decide +kernel

example : ((allEntries schemes).map Prod.fst).count "urn:epc:id:sgtin".toList = 3 := by decide +kernel

/-- Only tags start like bits. -/
theorem type_of_bits : ∀ entry ∈ allEntries schemes,
    entry.1.all Numeral.isBit = true → entry.2.level.type = .binary := by decide +kernel

/-- A built-in scheme is known by its name. -/
theorem eq_of_name {scheme other : Scheme} (hscheme : scheme ∈ schemes) (hother : other ∈ schemes)
    (hname : scheme.name = other.name) : scheme = other :=
  List.inj_on_of_nodup_map (by decide : (schemes.map Scheme.name).Nodup) hscheme hother hname

theorem lawful_gs1 : ∀ form ∈ Gs1Form.sgtin198 :: Gs1Form.numeric, form.Lawful := by
  decide +kernel

theorem lawful_single :
    ∀ form ∈ [SingleForm.gid96, .usdod64, .usdod96], form.tagForm.Lawful := by
  decide +kernel

-- the bits of an SGTIN-64 have no company prefix
example : ¬ Gs1Form.shortForm.Lawful := by decide +kernel

/-- The built-in schemes are those of the lawful forms and SGTIN-64. -/
theorem scheme_cases {scheme : Scheme} (h : scheme ∈ schemes) :
    (∃ form ∈ Gs1Form.sgtin198 :: Gs1Form.numeric, scheme = form.tagForm.scheme) ∨
      (∃ form ∈ [SingleForm.gid96, .usdod64, .usdod96], scheme = form.tagForm.scheme) ∨
        scheme = Gs1Form.shortForm.scheme := by
  simp only [schemes, List.mem_cons, List.not_mem_nil, or_false] at h
  rcases h with h | h | h | h | h | h | h | h | h
  · exact .inr (.inl ⟨.gid96, by simp, h⟩)
  · exact .inl ⟨.grai96, by simp [Gs1Form.numeric], h⟩
  · exact .inl ⟨.sgln96, by simp [Gs1Form.numeric], h⟩
  · exact .inr (.inr h)
  · exact .inl ⟨.sgtin96, by simp [Gs1Form.numeric], h⟩
  · exact .inl ⟨.sgtin198, by simp, h⟩
  · exact .inl ⟨.sscc96, by simp [Gs1Form.numeric], h⟩
  · exact .inr (.inl ⟨.usdod64, by simp, h⟩)
  · exact .inr (.inl ⟨.usdod96, by simp, h⟩)

end Builtin

namespace Engine

variable {settings : Settings} {engine : Engine}

/-- An engine has its schemes in natural order. -/
theorem ofSchemes_outcome {schemes sorted : List Scheme}
    (hsorted : NaturalOrder.sortBy Scheme.name schemes = .ok sorted)
    (hstarts : LevelIndex.checkStarts sorted = .ok ()) (settings : Settings) :
    (ofSchemes schemes settings).outcome = .ok
      { schemes := sorted
        index := LevelIndex.ofSchemes sorted
        companyPrefixes := settings.companyPrefixes
        tables := settings.tables
        validator := ⟨settings.strict⟩ } := by
  simp only [ofSchemes, Traced.bind_outcome, Except.bind, Traced.ofExcept_outcome, hsorted,
    hstarts, Traced.record_outcome, Traced.pure_outcome]

/-- The engine of the built-in schemes can be made whatever the settings are. -/
theorem builtin_outcome (settings : Settings) :
    (Engine.builtin settings).outcome = .ok
      { schemes := Builtin.schemes
        index := LevelIndex.ofSchemes Builtin.schemes
        companyPrefixes := settings.companyPrefixes
        tables := settings.tables
        validator := ⟨settings.strict⟩ } := by
  rw [Engine.builtin, ofDocuments, Traced.bind_outcome, Scheme.buildAll_outcome,
    Builtin.build_definitions]
  exact ofSchemes_outcome Builtin.sortBy_built Builtin.checkStarts_schemes settings

theorem schemes_of_builtin (h : (Engine.builtin settings).outcome = .ok engine) :
    engine.schemes = Builtin.schemes := by
  rw [builtin_outcome] at h
  rw [← Except.ok.inj h]

/-- What the engine resolves a value to is a level of a built-in scheme, and the value starts
    like its values. -/
theorem exists_entry_of_resolve (h : (Engine.builtin settings).outcome = .ok engine)
    {value : Text} {hint : Scalar} {level : Option Text} {candidate : Candidate}
    (hresolve : (engine.index.resolve value hint level).outcome = .ok candidate) :
    ∃ start, (start, candidate) ∈ allEntries Builtin.schemes ∧
      start.isPrefixOf value = true := by
  rw [engine.index_eq, schemes_of_builtin h] at hresolve
  exact LevelIndex.exists_entry_of_resolve hresolve

/-- What the engine resolves a value to is a built-in scheme. -/
theorem scheme_mem_of_resolve (h : (Engine.builtin settings).outcome = .ok engine) {value : Text}
    {hint : Scalar} {level : Option Text} {candidate : Candidate}
    (hresolve : (engine.index.resolve value hint level).outcome = .ok candidate) :
    candidate.scheme ∈ Builtin.schemes := by
  rw [engine.index_eq, schemes_of_builtin h] at hresolve
  exact LevelIndex.scheme_mem_of_resolve hresolve

theorem strict_of_builtin (h : (Engine.builtin settings).outcome = .ok engine) :
    engine.validator.strict = settings.strict := by
  rw [builtin_outcome] at h
  rw [← Except.ok.inj h]

theorem companyPrefixes_of_builtin (h : (Engine.builtin settings).outcome = .ok engine) :
    engine.companyPrefixes = settings.companyPrefixes := by
  rw [builtin_outcome] at h
  rw [← Except.ok.inj h]

end Engine

end EpcTag
