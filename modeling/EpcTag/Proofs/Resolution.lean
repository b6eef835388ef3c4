-- SUMMARY: What candidates for a value come to, and when its start and the tag length determine its scheme and level.
import EpcTag.Proofs.PrefixTree
import EpcTag.Resolution
import Mathlib.Tactic

/-!
# Candidates

A search of a prefix tree finds the entries whose keys the text starts with. What
a resolution comes to depends on nothing else: the tag length narrows the
candidates, and the patterns settle what is tied. If no start of a level is the
start of another one, the candidates for a value are the levels with one and the
same start, and a tag length that tells these apart settles the resolution.
-/

namespace EpcTag

/-! ## Distinct keys -/

/-- Of elements with different keys, one has the key of an element. -/
theorem filter_eq_of_nodup_map {α κ : Type} [DecidableEq κ] {key : α → κ} {elements : List α}
    (hnodup : (elements.map key).Nodup) {x : α} (h : x ∈ elements) :
    elements.filter (key · = key x) = [x] := by
  induction elements with
  | nil => cases h
  | cons y elements ih =>
    simp only [List.map_cons, List.nodup_cons] at hnodup
    rcases List.mem_cons.mp h with rfl | h
    · have hrest : elements.filter (key · = key x) = [] := by
        rw [List.filter_eq_nil_iff]
        intro z hz heq
        exact hnodup.1 (List.mem_map.mpr ⟨z, hz, by simpa using heq⟩)
      rw [List.filter_cons_of_pos (by simp), hrest]
    · have hne : key y ≠ key x := fun heq => hnodup.1 (heq ▸ List.mem_map_of_mem h)
      rw [List.filter_cons_of_neg (by simpa using hne), ih hnodup.2 h]

theorem find?_eq_of_nodup_map {α κ : Type} [DecidableEq κ] [BEq κ] [LawfulBEq κ] {key : α → κ} {elements : List α}
    (hnodup : (elements.map key).Nodup) {x : α} (h : x ∈ elements) :
    elements.find? (key · == key x) = some x := by
  have hsame : (fun y => key y == key x) = fun y => decide (key y = key x) :=
    funext fun y => by rw [Bool.eq_iff_iff]; simp
  rw [hsame, ← List.head?_filter, filter_eq_of_nodup_map hnodup h]
  rfl

/-! ## Candidates -/

namespace LevelIndex

/-- The candidates of all types that schemes offer, with their starts. -/
def allEntries (schemes : List Scheme) : List (Text × Candidate) :=
  LevelType.all.flatMap (entries schemes)

/-- The candidates whose start a value has. -/
def offers (schemes : List Scheme) (value : Text) : List Candidate :=
  ((allEntries schemes).filter fun entry => entry.1.isPrefixOf value).map Prod.snd

theorem mem_entries_iff {schemes : List Scheme} {type : LevelType} {start : Text}
    {candidate : Candidate} :
    (start, candidate) ∈ entries schemes type ↔
      candidate.scheme ∈ schemes ∧ candidate.level ∈ candidate.scheme.levels ∧
        candidate.level.type = type ∧ candidate.level.start = .text start := by
  simp only [entries, List.mem_flatMap, List.mem_filterMap]
  constructor
  · rintro ⟨scheme, hscheme, level, hlevel, h⟩
    split at h
    · next htype =>
      obtain ⟨text, htext, heq⟩ := Option.map_eq_some_iff.mp h
      cases heq
      refine ⟨hscheme, hlevel, htype, ?_⟩
      revert htext
      cases level.start <;> simp [Scalar.text?]
    · cases h
  · rintro ⟨hscheme, hlevel, htype, hstart⟩
    refine ⟨candidate.scheme, hscheme, candidate.level, hlevel, ?_⟩
    rw [if_pos htype, hstart]
    rfl

theorem mem_allEntries_iff {schemes : List Scheme} {start : Text} {candidate : Candidate} :
    (start, candidate) ∈ allEntries schemes ↔
      candidate.scheme ∈ schemes ∧ candidate.level ∈ candidate.scheme.levels ∧
        candidate.level.start = .text start := by
  simp only [allEntries, List.mem_flatMap, mem_entries_iff]
  constructor
  · rintro ⟨type, -, hscheme, hlevel, -, hstart⟩
    exact ⟨hscheme, hlevel, hstart⟩
  · rintro ⟨hscheme, hlevel, hstart⟩
    exact ⟨candidate.level.type, LevelType.mem_all _, hscheme, hlevel, rfl, hstart⟩

theorem candidates_perm (schemes : List Scheme) (value : Text) :
    ((ofSchemes schemes).candidates LevelType.all value).Perm (offers schemes value) := by
  rw [candidates, offers, allEntries, List.filter_flatMap, List.map_flatMap]
  refine List.Perm.flatMap_left _ fun type _ => ?_
  rw [tree_ofSchemes]
  exact PrefixTree.search_ofList _ _

/-! ## What candidates come to -/

/-- The tag length that is asked for, if any. -/
def askedLength (hint : Scalar) : Except Error (Option Int) :=
  if hint = .null then .ok none
  else match hint.integer? with
    | some length => .ok (some length)
    | none => .error (.badValue (.tagLength hint))

/-- The candidates of the tag length that is asked for, if there are any; else all. -/
def narrow (length : Option Int) (candidates : List Candidate) : List Candidate :=
  match length with
  | none => candidates
  | some length =>
    if candidates.any (·.scheme.tagLength = length) then
      candidates.filter (·.scheme.tagLength = length)
    else candidates

/-- The only candidate, or among several the only one with a pattern that matches. -/
def only (value : Text) : List Candidate → Except Error Candidate
  | [candidate] => .ok candidate
  | several =>
    match several.filter (·.accepts value) with
    | [] => .error (.noMatch (.noPattern value))
    | [candidate] => .ok candidate
    | left => .error (.ambiguous (.levels value (left.map Candidate.name)))

/-- What candidates for a value come to. -/
def judge (value : Text) (hint : Scalar) (candidates : List Candidate) : Except Error Candidate :=
  if candidates.isEmpty then .error (.noMatch (.noLevel value))
  else (askedLength hint).bind fun length => only value (narrow length candidates)

section
variable {value : Text} {hint : Scalar}

theorem any_eq_not_isEmpty_filter {α : Type} (keep : α → Bool) (xs : List α) :
    xs.any keep = !(xs.filter keep).isEmpty := by
  rw [Bool.eq_iff_iff]
  simp

theorem narrow_ne_nil (length : Option Int) {candidates : List Candidate} (h : candidates ≠ []) :
    narrow length candidates ≠ [] := by
  unfold narrow
  split
  · exact h
  · split
    · next hany =>
      obtain ⟨candidate, hmem, hlength⟩ := List.any_eq_true.mp hany
      exact List.ne_nil_of_mem (List.mem_filter.mpr ⟨hmem, hlength⟩)
    · exact h

/-- The tag length that is asked for narrows the candidates. -/
theorem preferLength_outcome (candidates : List Candidate) :
    (preferLength value hint candidates).outcome =
      (askedLength hint).bind fun length => .ok (narrow length candidates) := by
  unfold preferLength askedLength
  split
  · rfl
  · rw [Traced.bind_outcome, Traced.ofExcept_outcome, readHint]
    cases hint.integer? with
    | none => rfl
    | some length =>
      simp only [Except.bind, narrow, any_eq_not_isEmpty_filter]
      split
      · rfl
      · split <;> rfl

/-- A tie is settled in favour of the only candidate. -/
theorem settle_outcome {candidates : List Candidate} (h : candidates ≠ []) :
    (settle value candidates).outcome = only value candidates := by
  rcases candidates with _ | ⟨first, _ | ⟨second, rest⟩⟩
  · exact absurd rfl h
  · rfl
  · rcases hleft : (first :: second :: rest).filter (·.accepts value) with _ | ⟨a, _ | ⟨b, left⟩⟩ <;>
      simp only [settle, only, Traced.bind_outcome, Traced.record_outcome, Except.bind, hleft] <;>
      rfl

/-- A resolution comes to what its candidates come to. -/
theorem resolve_outcome (index : LevelIndex) (level : Option Text) :
    (index.resolve value hint level).outcome =
      (searched level).bind fun types => judge value hint (index.candidates types value) := by
  rw [resolve, Traced.bind_outcome, Traced.ofExcept_outcome]
  refine congrArg _ (funext fun types => ?_)
  dsimp only
  unfold judge
  split
  · rfl
  · next hsome =>
    have hne : index.candidates types value ≠ [] := by simpa using hsome
    simp only [Traced.bind_outcome, preferLength_outcome, Traced.record_outcome,
      Traced.pure_outcome]
    cases askedLength hint with
    | error error => rfl
    | ok length =>
      simp only [Except.bind, settle_outcome (narrow_ne_nil length hne)]
      cases only value (narrow length (index.candidates types value)) <;> rfl

variable {candidates : List Candidate} {chosen : Candidate}

theorem narrow_sublist (length : Option Int) (candidates : List Candidate) :
    (narrow length candidates).Sublist candidates := by
  unfold narrow
  split
  · exact List.Sublist.refl _
  · split
    · exact List.filter_sublist
    · exact List.Sublist.refl _

/-- Candidates of the tag length that is asked for are preferred. -/
theorem narrow_of_mem {length : Int}
    (h : chosen ∈ candidates.filter (·.scheme.tagLength = length)) :
    narrow (some length) candidates = candidates.filter (·.scheme.tagLength = length) := by
  have hany : candidates.any (·.scheme.tagLength = length) = true :=
    List.any_eq_true.mpr ⟨chosen, List.mem_filter.mp h⟩
  rw [narrow, if_pos hany]

/-- The only candidate is alone, or alone in having a pattern that matches. -/
theorem only_cases (h : only value candidates = .ok chosen) :
    candidates = [chosen] ∨ candidates.filter (·.accepts value) = [chosen] := by
  unfold only at h
  split at h
  · next candidate =>
    cases h
    exact .inl rfl
  · split at h
    · cases h
    · next candidate hleft =>
      cases h
      exact .inr hleft
    · cases h

theorem only_of_filter (h : candidates.filter (·.accepts value) = [chosen]) :
    only value candidates = .ok chosen := by
  unfold only
  split
  · next candidate =>
    have hmem : chosen ∈ [candidate].filter (·.accepts value) := h ▸ List.mem_singleton_self chosen
    rw [List.mem_singleton.mp (List.mem_of_mem_filter hmem)]
  · rw [h]

theorem mem_of_only (h : only value candidates = .ok chosen) : chosen ∈ candidates := by
  rcases only_cases h with rfl | hleft
  · exact List.mem_singleton_self chosen
  · exact List.mem_of_mem_filter (hleft ▸ List.mem_singleton_self chosen)

/-- What candidates come to is one of them. -/
theorem mem_of_judge (h : judge value hint candidates = .ok chosen) : chosen ∈ candidates := by
  unfold judge at h
  split at h
  · cases h
  · obtain ⟨length, -, honly⟩ := bind_eq_ok_iff.mp h
    exact (narrow_sublist length candidates).subset (mem_of_only honly)

/-- A hint that asks for no tag length or names one. -/
def IsHint (hint : Scalar) : Prop := hint = .null ∨ ∃ length, hint.integer? = some length

theorem askedLength_of_integer {length : Int} (h : hint.integer? = some length) :
    askedLength hint = .ok (some length) := by
  have hne : hint ≠ .null := by
    rintro rfl
    cases h
  rw [askedLength, if_neg hne, h]

theorem askedLength_of_isHint (h : IsHint hint) : ∃ length, askedLength hint = .ok length := by
  rcases h with rfl | ⟨length, hlength⟩
  · exact ⟨none, rfl⟩
  · exact ⟨some length, askedLength_of_integer hlength⟩

theorem narrow_singleton (length : Option Int) (candidate : Candidate) :
    narrow length [candidate] = [candidate] := by
  cases length with
  | none => rfl
  | some length =>
    rw [narrow]
    split
    · next hany => simpa using hany
    · rfl

/-- A single candidate is settled whatever tag length is asked for. -/
theorem judge_singleton (hhint : IsHint hint) (candidate : Candidate) :
    judge value hint [candidate] = .ok candidate := by
  obtain ⟨length, hlength⟩ := askedLength_of_isHint hhint
  rw [judge, if_neg (by simp), hlength]
  exact congrArg (only value) (narrow_singleton length candidate)

/-- A single candidate of the tag length that is asked for is settled. -/
theorem judge_of_filter {length : Int} (hhint : hint.integer? = some length)
    (h : candidates.filter (·.scheme.tagLength = length) = [chosen]) :
    judge value hint candidates = .ok chosen := by
  have hexact : chosen ∈ candidates.filter (·.scheme.tagLength = length) :=
    h ▸ List.mem_singleton_self chosen
  have hne : ¬candidates.isEmpty = true := by
    simpa using List.ne_nil_of_mem (List.mem_of_mem_filter hexact)
  rw [judge, if_neg hne, askedLength_of_integer hhint, Except.bind, narrow_of_mem hexact, h]
  rfl

end

/-! ## Candidates of all types -/

/-- A search of all types settles what its candidates settle. -/
theorem resolve_none_outcome (index : LevelIndex) (value : Text) (hint : Scalar) :
    (index.resolve value hint none).outcome =
      judge value hint (index.candidates LevelType.all value) :=
  resolve_outcome index none

/-- A single candidate is what a value is resolved to. -/
theorem resolve_of_offers_eq {schemes : List Scheme} {value : Text} {hint : Scalar}
    {candidate : Candidate} (hhint : IsHint hint) (h : offers schemes value = [candidate]) :
    ((ofSchemes schemes).resolve value hint none).outcome = .ok candidate := by
  have hfound : (ofSchemes schemes).candidates LevelType.all value = [candidate] :=
    List.perm_singleton.mp (h ▸ candidates_perm schemes value)
  rw [resolve_none_outcome, hfound]
  exact judge_singleton hhint candidate

/-- A single candidate of the tag length that is asked for is what a value is resolved to. -/
theorem resolve_of_filter_offers_eq {schemes : List Scheme} {value : Text} {hint : Scalar}
    {length : Int} {candidate : Candidate} (hhint : hint.integer? = some length)
    (h : (offers schemes value).filter (·.scheme.tagLength = length) = [candidate]) :
    ((ofSchemes schemes).resolve value hint none).outcome = .ok candidate := by
  have hperm := (candidates_perm schemes value).filter (·.scheme.tagLength = length)
  rw [resolve_none_outcome]
  exact judge_of_filter hhint (List.perm_singleton.mp (h ▸ hperm))

/-- A search of some types finds no more than one of all. -/
theorem candidates_subset (index : LevelIndex) (types : List LevelType) (value : Text) :
    index.candidates types value ⊆ index.candidates LevelType.all value := by
  intro candidate hfound
  obtain ⟨type, -, hfound⟩ := List.mem_flatMap.mp hfound
  exact List.mem_flatMap.mpr ⟨type, LevelType.mem_all type, hfound⟩

/-- What a value is resolved to is offered for it, whether one level is searched or all. -/
theorem mem_offers_of_resolve {schemes : List Scheme} {value : Text} {hint : Scalar}
    {level : Option Text} {candidate : Candidate}
    (h : ((ofSchemes schemes).resolve value hint level).outcome = .ok candidate) :
    candidate ∈ offers schemes value := by
  rw [resolve_outcome] at h
  obtain ⟨types, -, hjudge⟩ := bind_eq_ok_iff.mp h
  exact (candidates_perm schemes value).subset
    (candidates_subset _ types value (mem_of_judge hjudge))

/-- What a value is resolved to is a level of one of the schemes, and the value starts like
    its values. -/
theorem exists_entry_of_resolve {schemes : List Scheme} {value : Text} {hint : Scalar}
    {level : Option Text} {candidate : Candidate}
    (h : ((ofSchemes schemes).resolve value hint level).outcome = .ok candidate) :
    ∃ start, (start, candidate) ∈ allEntries schemes ∧ start.isPrefixOf value = true := by
  have hoffer := mem_offers_of_resolve h
  simp only [offers, List.mem_map, List.mem_filter] at hoffer
  obtain ⟨⟨start, candidate⟩, ⟨hmem, hprefix⟩, rfl⟩ := hoffer
  exact ⟨start, hmem, hprefix⟩

/-- What a value is resolved to is one of the schemes. -/
theorem scheme_mem_of_resolve {schemes : List Scheme} {value : Text} {hint : Scalar}
    {level : Option Text} {candidate : Candidate}
    (h : ((ofSchemes schemes).resolve value hint level).outcome = .ok candidate) :
    candidate.scheme ∈ schemes := by
  obtain ⟨start, hmem, -⟩ := exists_entry_of_resolve h
  exact (mem_allEntries_iff.mp hmem).1

/-! ## Distinct starts -/

/-- No start of a level is the start of another one. -/
def PrefixFree (starts : List Text) : Prop :=
  ∀ a ∈ starts, ∀ b ∈ starts, a.isPrefixOf b = true → a = b

instance (starts : List Text) : Decidable (PrefixFree starts) :=
  inferInstanceAs (Decidable (∀ a ∈ starts, ∀ b ∈ starts, a.isPrefixOf b = true → a = b))

/-- A value has only one of the starts. -/
theorem PrefixFree.eq_of_isPrefixOf {starts : List Text} (h : PrefixFree starts) {a b value : Text}
    (ha : a ∈ starts) (hb : b ∈ starts) (hstart : a.isPrefixOf value = true)
    (hother : b.isPrefixOf value = true) : a = b := by
  rw [List.isPrefixOf_iff_prefix] at hstart hother
  rcases List.prefix_or_prefix_of_prefix hstart hother with hprefix | hprefix
  · exact h _ ha _ hb (List.isPrefixOf_iff_prefix.mpr hprefix)
  · exact (h _ hb _ ha (List.isPrefixOf_iff_prefix.mpr hprefix)).symm

variable {schemes : List Scheme} {start value : Text} {candidate : Candidate}

/-- Levels of schemes that are told apart by their starts and tag lengths. -/
structure Distinct (schemes : List Scheme) : Prop where
  prefixFree : PrefixFree ((allEntries schemes).map Prod.fst)
  nodup : ((allEntries schemes).map fun entry => (entry.1, entry.2.scheme.tagLength)).Nodup

/-- All candidates have the start of one of them. -/
theorem offers_eq_of_prefixFree (hfree : PrefixFree ((allEntries schemes).map Prod.fst))
    (hmem : (start, candidate) ∈ allEntries schemes) (hstart : start.isPrefixOf value = true) :
    offers schemes value =
      ((allEntries schemes).filter fun entry => entry.1 = start).map Prod.snd := by
  rw [offers]
  congr 1
  refine List.filter_congr fun entry hentry => ?_
  rw [Bool.eq_iff_iff, decide_eq_true_eq]
  have hkey : entry.1 ∈ (allEntries schemes).map Prod.fst := List.mem_map_of_mem hentry
  have hown : start ∈ (allEntries schemes).map Prod.fst := List.mem_map_of_mem hmem
  constructor
  · intro hprefix
    exact hfree.eq_of_isPrefixOf hkey hown hprefix hstart
  · rintro rfl
    exact hstart

/-- A value is resolved to the level of its start if no other level has this start. -/
theorem resolve_of_start (hdistinct : Distinct schemes) {hint : Scalar} (hhint : IsHint hint)
    (hmem : (start, candidate) ∈ allEntries schemes)
    (hcount : ((allEntries schemes).map Prod.fst).count start = 1)
    (hstart : start.isPrefixOf value = true) :
    ((ofSchemes schemes).resolve value hint none).outcome = .ok candidate := by
  refine resolve_of_offers_eq hhint ?_
  rw [offers_eq_of_prefixFree hdistinct.prefixFree hmem hstart]
  have hlen : ((allEntries schemes).filter fun entry => entry.1 = start).length = 1 := by
    rw [← List.countP_eq_length_filter, ← hcount, List.count, List.countP_map]
    refine List.countP_congr fun entry _ => ?_
    simp
  obtain ⟨only, honly⟩ := List.length_eq_one_iff.mp hlen
  have hin : (start, candidate) ∈ (allEntries schemes).filter fun entry => entry.1 = start := by
    simp [hmem]
  rw [honly] at hin ⊢
  rw [← List.mem_singleton.mp hin]
  rfl

/-- A value is resolved to the level of its start in the scheme of the tag length that is
    asked for. -/
theorem resolve_of_tagLength (hdistinct : Distinct schemes)
    (hmem : (start, candidate) ∈ allEntries schemes) (hstart : start.isPrefixOf value = true)
    {hint : Scalar} (hhint : hint.integer? = some candidate.scheme.tagLength) :
    ((ofSchemes schemes).resolve value hint none).outcome = .ok candidate := by
  refine resolve_of_filter_offers_eq hhint ?_
  have hone := filter_eq_of_nodup_map hdistinct.nodup hmem
  rw [offers_eq_of_prefixFree hdistinct.prefixFree hmem hstart, List.filter_map, List.filter_filter]
  have hsame : (allEntries schemes).filter (fun entry =>
      ((fun found : Candidate => decide (found.scheme.tagLength = candidate.scheme.tagLength)) ∘
        Prod.snd) entry && decide (entry.1 = start)) = [(start, candidate)] := by
    rw [← hone]
    refine List.filter_congr fun entry _ => ?_
    rw [Bool.eq_iff_iff]
    simp [and_comm]
  rw [hsame]
  rfl

/-- A value has at most one of the starts of a level type. -/
theorem search_of_prefixFree {type : LevelType}
    (hfree : PrefixFree ((entries schemes type).map Prod.fst))
    (hnodup : ((entries schemes type).map Prod.fst).Nodup) :
    ((ofSchemes schemes).tree type).search value = [] ∨
      ∃ entry ∈ entries schemes type,
        ((ofSchemes schemes).tree type).search value = [entry.2] := by
  have hperm := PrefixTree.search_ofList (entries schemes type) value
  rw [← tree_ofSchemes] at hperm
  have hsub : ((entries schemes type).filter fun entry => entry.1.isPrefixOf value).Sublist
      (entries schemes type) := List.filter_sublist
  have hstart : ∀ entry ∈ (entries schemes type).filter fun entry => entry.1.isPrefixOf value,
      entry.1.isPrefixOf value = true := fun entry hentry => (List.mem_filter.mp hentry).2
  generalize (entries schemes type).filter (fun entry => entry.1.isPrefixOf value) = begun at *
  match begun with
  | [] =>
    left
    simpa using hperm
  | [entry] =>
    right
    exact ⟨entry, hsub.subset (by simp), List.perm_singleton.mp hperm⟩
  | first :: second :: rest =>
    -- the starts of two levels would be the same
    have hsame := hfree.eq_of_isPrefixOf (List.mem_map_of_mem (hsub.subset (by simp)))
      (List.mem_map_of_mem (hsub.subset (by simp))) (hstart first (by simp))
      (hstart second (by simp))
    have hdistinct := (hsub.map Prod.fst).nodup hnodup
    simp [hsame] at hdistinct

/-- A level type whose starts tell its levels apart has one candidate for a value or
    none. -/
theorem resolve_typed_cases {type : LevelType} {hint : Scalar} (hhint : IsHint hint)
    (hfree : PrefixFree ((entries schemes type).map Prod.fst))
    (hnodup : ((entries schemes type).map Prod.fst).Nodup) :
    ((ofSchemes schemes).resolve value hint (some type.name)).outcome =
        .error (.noMatch (.noLevel value)) ∨
      ∃ entry ∈ entries schemes type,
        ((ofSchemes schemes).resolve value hint (some type.name)).outcome = .ok entry.2 := by
  have hresolve : ((ofSchemes schemes).resolve value hint (some type.name)).outcome =
      judge value hint (((ofSchemes schemes).tree type).search value) := by
    rw [resolve_outcome, searched, LevelType.ofName?_name]
    exact congrArg (judge value hint) (List.flatMap_singleton _ _)
  rw [hresolve]
  rcases @search_of_prefixFree schemes value type hfree hnodup with hnone | ⟨entry, hentry, hone⟩
  · left
    rw [hnone]
    rfl
  · right
    refine ⟨entry, hentry, ?_⟩
    rw [hone]
    exact judge_singleton hhint entry.2

end LevelIndex

end EpcTag
