-- SUMMARY: The order of definitions does not matter: engines of the same documents in another order convert alike.
import EpcTag.Proofs.Conversion
import EpcTag.Proofs.LinearScan

/-!
# The order of definitions

Documents list schemes, levels, options and rules. Options are known by their keys,
levels by their types and rules by their places in the sequence, so a list in another
order builds the same up to the order of schemes, levels and options. A conversion
goes through such a list in three places: to find the level of the input, to select
its option, and to look up the level and the option of the output. Each of them
finds the same or fails alike.
-/

namespace EpcTag

/-! ## Documents -/

/-- The same level with its options and its rules in another order. -/
structure LevelDocument.Permuted (first second : LevelDocument) : Prop where
  type : first.type = second.type
  prefixMatch : first.prefixMatch = second.prefixMatch
  options : Option.Rel List.Perm first.options second.options
  rules : Option.Rel List.Perm first.rules second.rules

/-- The same scheme with its levels, and the parts of these, in another order. -/
structure SchemeDocument.Permuted (first second : SchemeDocument) : Prop where
  name : first.name = second.name
  tagLength : first.tagLength = second.tagLength
  optionKey : first.optionKey = second.optionKey
  levels : Option.Rel (Reordered LevelDocument.Permuted) first.levels second.levels

/-- The type of a rule and its place in the sequence, if it has one. -/
def Rule.place? (rule : Rule) : Option (RuleType × Int) := rule.sequence.map (rule.type, ·)

/-- The type and the place of the rule that a document describes. -/
def RuleDocument.place? (doc : RuleDocument) : Option (RuleType × Int) :=
  doc.build.toOption.bind Rule.place?

/-- No level has two rules of one type at the same place. -/
def SchemeDocument.DistinctPlaces (doc : SchemeDocument) : Prop :=
  ∀ level ∈ doc.levels.getD [], ((level.rules.getD []).filterMap RuleDocument.place?).Nodup

instance (doc : SchemeDocument) : Decidable doc.DistinctPlaces :=
  inferInstanceAs (Decidable (∀ level ∈ doc.levels.getD [],
    ((level.rules.getD []).filterMap RuleDocument.place?).Nodup))

/-- A level document with its lists turned around. -/
def LevelDocument.turned (doc : LevelDocument) : LevelDocument :=
  { doc with options := doc.options.map List.reverse, rules := doc.rules.map List.reverse }

/-- A scheme document with all its lists turned around. -/
def SchemeDocument.turned (doc : SchemeDocument) : SchemeDocument :=
  { doc with levels := doc.levels.map fun levels => (levels.map LevelDocument.turned).reverse }

theorem LevelDocument.permuted_turned (doc : LevelDocument) : doc.Permuted doc.turned where
  type := rfl
  prefixMatch := rfl
  options := by
    rw [turned]
    cases doc.options with
    | none => exact .none
    | some options => exact .some options.reverse_perm.symm
  rules := by
    rw [turned]
    cases doc.rules with
    | none => exact .none
    | some rules => exact .some rules.reverse_perm.symm

/-- What is turned around is in another order. -/
theorem SchemeDocument.permuted_turned (doc : SchemeDocument) : doc.Permuted doc.turned where
  name := rfl
  tagLength := rfl
  optionKey := rfl
  levels := by
    rw [turned]
    cases doc.levels with
    | none => exact .none
    | some levels => exact .some (Reordered.reverse_map LevelDocument.permuted_turned levels)

/-! ## Levels and schemes -/

/-- The same level with its options in another order. -/
structure Level.Permuted (first second : Level) : Prop where
  type : first.type = second.type
  start : first.start = second.start
  options : first.options.Perm second.options
  extractRules : first.extractRules = second.extractRules
  formatRules : first.formatRules = second.formatRules
  keys : (first.options.map LevelOption.key).Nodup

/-- The same scheme with its levels, and the options of these, in another order. -/
structure Scheme.Permuted (first second : Scheme) : Prop where
  name : first.name = second.name
  tagLength : first.tagLength = second.tagLength
  optionKey : first.optionKey = second.optionKey
  levels : Reordered Level.Permuted first.levels second.levels
  types : (first.levels.map Level.type).Nodup

/-- In lists of the same elements with different keys, the same element has a key. -/
theorem find?_eq_of_perm {α κ : Type} [DecidableEq κ] [BEq κ] [LawfulBEq κ] {key : α → κ}
    {xs ys : List α} (hperm : xs.Perm ys) (hnodup : (xs.map key).Nodup) (k : κ) :
    xs.find? (key · == k) = ys.find? (key · == k) := by
  cases hfound : ys.find? (key · == k) with
  | none =>
    rw [List.find?_eq_none] at hfound ⊢
    exact fun x hx => hfound x (hperm.mem_iff.mp hx)
  | some x =>
    obtain rfl : key x = k := by simpa using List.find?_some hfound
    exact find?_eq_of_nodup_map hnodup (hperm.mem_iff.mpr (List.mem_of_find?_eq_some hfound))

theorem bind_eq_of_rel {α β γ : Type} {related : α → β → Prop} {first : Option α}
    {second : Option β} (h : Option.Rel related first second) {next : α → Option γ}
    {next' : β → Option γ} (hnext : ∀ a b, related a b → next a = next' b) :
    first.bind next = second.bind next' := by
  cases h with
  | some h => exact hnext _ _ h
  | none => rfl

namespace Level.Permuted

variable {level level' : Level}

theorem option?_eq (h : level.Permuted level') (key : Text) : level.option? key = level'.option? key :=
  find?_eq_of_perm h.options h.keys key

end Level.Permuted

namespace Scheme.Permuted

variable {scheme scheme' : Scheme}

theorem level? (h : scheme.Permuted scheme') (type : LevelType) :
    Option.Rel Level.Permuted (scheme.level? type) (scheme'.level? type) := by
  have hfilter : Reordered Level.Permuted (scheme.levels.filter (·.type = type))
      (scheme'.levels.filter (·.type = type)) :=
    h.levels.filter fun level level' hlevel => by rw [hlevel.type]
  rw [Scheme.level?, Scheme.level?, ← List.head?_filter, ← List.head?_filter]
  rcases hfilter.shapes with ⟨hnil, hnil'⟩ | ⟨level, level', hone, hone', hlevel⟩ |
    ⟨first, second, rest, -, -, -, hseveral, -⟩
  · rw [hnil, hnil']
    exact .none
  · rw [hone, hone']
    exact .some hlevel
  · exfalso
    have hfirst : first ∈ scheme.levels.filter (·.type = type) := by simp [hseveral]
    obtain ⟨hmem, htype⟩ := List.mem_filter.mp hfirst
    obtain rfl : first.type = type := by simpa using htype
    rw [filter_eq_of_nodup_map h.types hmem] at hseveral
    cases hseveral

theorem tagOption?_eq (h : scheme.Permuted scheme') (key : Text) :
    scheme.tagOption? key = scheme'.tagOption? key :=
  bind_eq_of_rel (h.level? .tagEncoding) fun _ _ hlevel => hlevel.option?_eq key

end Scheme.Permuted

/-! ## Building -/

/-- What is built from lists in another order comes in another order. -/
theorem reordered_of_mapM {α β : Type} {f : α → Except Error β} {related : α → α → Prop}
    {related' : β → β → Prop} {xs xs' : List α} {ys ys' : List β} (h : Reordered related xs xs')
    (hxs : xs.mapM f = .ok ys) (hxs' : xs'.mapM f = .ok ys')
    (hf : ∀ x ∈ xs, ∀ x' y y', related x x' → f x = .ok y → f x' = .ok y' → related' y y') :
    Reordered related' ys ys' := by
  obtain ⟨middle, hperm, hrelated⟩ := h
  obtain ⟨built, hbuilt, hys⟩ := List.perm_comp_forall₂ hperm.symm (forall₂_of_mapM hxs)
  refine ⟨built, hys.symm, ?_⟩
  replace hf : ∀ x ∈ middle, ∀ x' y y', related x x' → f x = .ok y → f x' = .ok y' →
      related' y y' := fun x hx => hf x (hperm.mem_iff.mpr hx)
  replace hxs' := forall₂_of_mapM hxs'
  clear hperm hxs hys
  induction hrelated generalizing built ys' with
  | nil =>
    cases hbuilt
    cases hxs'
    exact .nil
  | cons hxx' _ ih =>
    obtain ⟨y, _, hy, hrest, rfl⟩ := List.forall₂_cons_left_iff.mp hbuilt
    obtain ⟨y', _, hy', hrest', rfl⟩ := List.forall₂_cons_left_iff.mp hxs'
    exact .cons (hf _ List.mem_cons_self _ _ _ hxx' hy hy')
      (ih _ hrest (fun x hx => hf x (List.mem_cons_of_mem _ hx)) hrest')

theorem perm_of_mapM {α β : Type} {f : α → Except Error β} {xs xs' : List α} {ys ys' : List β}
    (h : xs.Perm xs') (hxs : xs.mapM f = .ok ys) (hxs' : xs'.mapM f = .ok ys') : ys.Perm ys' := by
  refine Reordered.perm_of_eq (reordered_of_mapM (.of_perm h) hxs hxs' ?_)
  rintro x - _ y y' rfl hy hy'
  exact Except.ok.inj (hy.symm.trans hy')

namespace Rules

variable {rules rules' sorted sorted' : List Rule} {type : RuleType}

theorem filterMap_place?_of_mapM {docs : List RuleDocument}
    (h : docs.mapM RuleDocument.build = .ok rules) :
    docs.filterMap RuleDocument.place? = rules.filterMap Rule.place? := by
  replace h := forall₂_of_mapM h
  induction h with
  | nil => rfl
  | @cons doc rule _ _ hdoc _ ih =>
    have hplace : doc.place? = rule.place? := by rw [RuleDocument.place?, hdoc]; rfl
    rw [List.filterMap_cons, List.filterMap_cons, hplace, ih]

/-- Rules at different places are told apart by them. -/
theorem eq_of_place? (hplaces : (rules.filterMap Rule.place?).Nodup) {a b : Rule} (ha : a ∈ rules)
    (hb : b ∈ rules) {place : RuleType × Int} (hplace : a.place? = some place)
    (hplace' : b.place? = some place) : a = b := by
  by_contra hne
  have hpairs := List.pairwise_filterMap.mp hplaces
  have hsymm : Std.Symm fun a b : Rule =>
      ∀ place, a.place? = some place → ∀ place', b.place? = some place' → place ≠ place' :=
    ⟨fun a b h place hplace place' hplace' => (h place' hplace' place hplace).symm⟩
  exact hpairs.forall ha hb hne place hplace place hplace' rfl

/-- The rules of a type that are sorted, each with a place in the sequence if there are several. -/
theorem exists_sequence_of_ofType (h : ofType type rules = .ok sorted) :
    (2 ≤ (rules.filter (·.type = type)).length →
      ∀ rule ∈ rules.filter (·.type = type), ∃ place, rule.sequence = some place) ∧
    sorted = sortStable (fun a b => a.sequence.getD 0 < b.sequence.getD 0)
      (rules.filter (·.type = type)) := by
  unfold ofType at h
  dsimp only at h
  split at h
  · cases h
  next haccepted =>
  refine ⟨fun hseveral rule hrule => ?_, (Except.ok.inj h).symm⟩
  refine Option.ne_none_iff_exists'.mp fun hnone => haccepted ⟨hseveral, ?_⟩
  exact List.any_eq_true.mpr ⟨rule, hrule, by rw [hnone]; rfl⟩

/-- Sorted rules are told apart by their places in the sequence. -/
theorem eq_of_sequence (hplaces : (rules.filterMap Rule.place?).Nodup)
    (h : ofType type rules = .ok sorted) {a b : Rule} (ha : a ∈ sorted) (hb : b ∈ sorted)
    (hsame : a.sequence.getD 0 = b.sequence.getD 0) : a = b := by
  obtain ⟨hsome, rfl⟩ := exists_sequence_of_ofType h
  rw [mem_sortStable] at ha hb
  by_cases hseveral : 2 ≤ (rules.filter (·.type = type)).length
  · obtain ⟨n, hn⟩ := hsome hseveral a ha
    obtain ⟨m, hm⟩ := hsome hseveral b hb
    obtain rfl : n = m := by rwa [hn, hm] at hsame
    obtain ⟨hamem, hatype⟩ := List.mem_filter.mp ha
    obtain ⟨hbmem, hbtype⟩ := List.mem_filter.mp hb
    have hplace : a.place? = some (type, n) := by
      rw [Rule.place?, hn, of_decide_eq_true hatype]
      rfl
    have hplace' : b.place? = some (type, n) := by
      rw [Rule.place?, hm, of_decide_eq_true hbtype]
      rfl
    exact eq_of_place? hplaces hamem hbmem hplace hplace'
  · -- a single rule needs no place
    rcases hlist : rules.filter (·.type = type) with _ | ⟨only, _ | ⟨second, rest⟩⟩
    · rw [hlist] at ha
      cases ha
    · rw [hlist] at ha hb
      rw [List.mem_singleton.mp ha, List.mem_singleton.mp hb]
    · rw [hlist] at hseveral
      simp at hseveral

/-- Rules at different places are sorted the same in whatever order they come. -/
theorem ofType_eq_of_perm (hperm : rules.Perm rules')
    (hplaces : (rules.filterMap Rule.place?).Nodup) (h : ofType type rules = .ok sorted)
    (h' : ofType type rules' = .ok sorted') : sorted = sorted' := by
  have hsame : ∀ a ∈ sorted, ∀ b ∈ sorted, a.sequence.getD 0 = b.sequence.getD 0 → a = b :=
    fun a ha b hb => eq_of_sequence hplaces h ha hb
  obtain ⟨-, rfl⟩ := exists_sequence_of_ofType h
  obtain ⟨-, rfl⟩ := exists_sequence_of_ofType h'
  have hchosen := hperm.filter (·.type = type)
  refine List.Perm.eq_of_pairwise (fun a b ha hb hab hba => ?_) (sortStable_pairwise _ _)
    (sortStable_pairwise _ _)
    ((sortStable_perm _ _).trans (hchosen.trans (sortStable_perm _ _).symm))
  rw [mem_sortStable, ← hchosen.mem_iff] at hb
  exact hsame a ha b ((mem_sortStable _).mpr hb) (le_antisymm hab hba)

end Rules

/-- Sorting by names keeps the elements. -/
theorem NaturalOrder.sortBy_perm {α : Type} {name : α → Text} {elements sorted : List α}
    (h : sortBy name elements = .ok sorted) : sorted.Perm elements := by
  obtain ⟨keyed, hkeyed, hsorted⟩ := bind_eq_ok_iff.mp h
  have helements : keyed.map (·.2) = elements := by
    replace hkeyed := forall₂_of_mapM hkeyed
    clear h hsorted
    induction hkeyed with
    | nil => rfl
    | @cons element pair _ _ hpair _ ih =>
      obtain ⟨pieces, -, hpair⟩ := bind_eq_ok_iff.mp hpair
      cases hpair
      rw [List.map_cons, ih]
  split at hsorted
  · cases hsorted
    exact helements ▸ (sortStable_perm _ keyed).map _
  · cases hsorted

/-- A level document in another order builds the level in another order. -/
theorem Level.permuted_of_build {doc doc' : LevelDocument} {level level' : Level}
    (hdocs : doc.Permuted doc')
    (hplaces : ((doc.rules.getD []).filterMap RuleDocument.place?).Nodup)
    (h : doc.build = .ok level) (h' : doc'.build = .ok level') : level.Permuted level' := by
  have hbuilt := built_of_build h
  have hbuilt' := built_of_build h'
  obtain ⟨text, htext, htype⟩ := hbuilt.type
  obtain ⟨text', htext', htype'⟩ := hbuilt'.type
  obtain ⟨optionDocs, hoptionDocs, hoptions⟩ := hbuilt.options
  obtain ⟨optionDocs', hoptionDocs', hoptions'⟩ := hbuilt'.options
  obtain ⟨ruleDocs, rules, hruleDocs, hrules, hextract, hformat⟩ := hbuilt.rules
  obtain ⟨ruleDocs', rules', hruleDocs', hrules', hextract', hformat'⟩ := hbuilt'.rules
  have hoptionPerm : optionDocs.Perm optionDocs' := by
    have h := hdocs.options
    rw [hoptionDocs, hoptionDocs'] at h
    cases h with
    | some h => exact h
  have hrulePerm : ruleDocs.Perm ruleDocs' := by
    have h := hdocs.rules
    rw [hruleDocs, hruleDocs'] at h
    cases h with
    | some h => exact h
  -- rules of different places are sorted into the same order, whatever order they are given in
  have hdistinct : (rules.filterMap Rule.place?).Nodup := by
    rw [← Rules.filterMap_place?_of_mapM hrules]
    rwa [hruleDocs] at hplaces
  have hperm := perm_of_mapM hrulePerm hrules hrules'
  exact {
    type := by
      obtain rfl : text = text' := by
        have h := htext.symm.trans (hdocs.type.trans htext')
        cases h
        rfl
      exact Option.some.inj (htype.symm.trans htype')
    start := by
      rw [hbuilt.start, hbuilt'.start, LevelDocument.start, LevelDocument.start, hdocs.prefixMatch]
    options := perm_of_mapM hoptionPerm hoptions hoptions'
    extractRules := Rules.ofType_eq_of_perm hperm hdistinct hextract hextract'
    formatRules := Rules.ofType_eq_of_perm hperm hdistinct hformat hformat'
    keys := hbuilt.keys }

/-- A scheme document in another order builds the scheme in another order. -/
theorem Scheme.permuted_of_build {doc doc' : SchemeDocument} {scheme scheme' : Scheme}
    (hdocs : doc.Permuted doc') (hplaces : doc.DistinctPlaces) (h : doc.build = .ok scheme)
    (h' : doc'.build = .ok scheme') : scheme.Permuted scheme' := by
  have hbuilt := built_of_build h
  have hbuilt' := built_of_build h'
  obtain ⟨docs, hlevelDocs, hlevels⟩ := hbuilt.levels
  obtain ⟨docs', hlevelDocs', hlevels'⟩ := hbuilt'.levels
  have hreordered : Reordered LevelDocument.Permuted docs docs' := by
    have h := hdocs.levels
    rw [hlevelDocs, hlevelDocs'] at h
    cases h with
    | some h => exact h
  exact {
    name := by
      have h := hbuilt.name.symm.trans (hdocs.name.trans hbuilt'.name)
      exact Scalar.text.inj (Option.some.inj h)
    tagLength := by
      have h := hbuilt.tagLength
      rw [hdocs.tagLength, hbuilt'.tagLength] at h
      exact (Option.some.inj h).symm
    optionKey := Option.some.inj (hbuilt.optionKey.symm.trans (hdocs.optionKey.trans hbuilt'.optionKey))
    levels := by
      refine reordered_of_mapM hreordered hlevels hlevels' fun doc hdoc doc' level level' hdocs => ?_
      refine Level.permuted_of_build hdocs (hplaces doc ?_)
      rw [hlevelDocs]
      exact hdoc
    types := hbuilt.types }

/-! ## Resolution -/

/-- The same level of the same scheme, with their parts in another order. -/
structure Candidate.Permuted (first second : Candidate) : Prop where
  scheme : first.scheme.Permuted second.scheme
  level : first.level.Permuted second.level

namespace LevelIndex

variable {schemes schemes' : List Scheme} {value : Text} {hint : Scalar}

theorem reordered_starting (h : Reordered Scheme.Permuted schemes schemes')
    (type : Option LevelType) (value : Text) :
    Reordered Candidate.Permuted (starting schemes type value) (starting schemes' type value) := by
  refine h.flatMap fun scheme scheme' hscheme => ?_
  have hlevels : Reordered Level.Permuted
      (scheme.levels.filter fun level => type.all (level.type = ·) && level.starts value)
      (scheme'.levels.filter fun level => type.all (level.type = ·) && level.starts value) :=
    hscheme.levels.filter fun level level' hlevel => by
      rw [hlevel.type, Level.starts, Level.starts, hlevel.start]
  exact hlevels.map fun level level' hlevel => ⟨hscheme, hlevel⟩

theorem exists_type_of_searched {level : Option Text} {types : List LevelType}
    (h : searched level = .ok types) : ∃ type, types = typesOf type := by
  unfold searched at h
  split at h
  · cases h
    exact ⟨none, rfl⟩
  · split at h
    · next type _ =>
      cases h
      exact ⟨some type, rfl⟩
    · cases h

/-- Schemes in another order have the same level for a value, or none for the same reason. -/
theorem parallel_resolve (h : Reordered Scheme.Permuted schemes schemes')
    (hstarts : ∀ scheme ∈ schemes, ∀ level ∈ scheme.levels, level.start ≠ .text [])
    (hstarts' : ∀ scheme ∈ schemes', ∀ level ∈ scheme.levels, level.start ≠ .text [])
    (level : Option Text) :
    Parallel Candidate.Permuted ((ofSchemes schemes).resolve value hint level).outcome
      ((ofSchemes schemes').resolve value hint level).outcome := by
  rw [resolve_outcome, resolve_outcome]
  cases hsearched : searched level with
  | error error => exact .error (.refl _)
  | ok types =>
    obtain ⟨type, rfl⟩ := exists_type_of_searched hsearched
    refine parallel_judge ((reordered_starting h type value).perm
      (candidates_perm_starting hstarts type value)
      (candidates_perm_starting hstarts' type value).symm) ?_ ?_ ?_
    · exact fun a b hab => hab.scheme.tagLength
    · exact fun a b hab => hab.level.options.any_eq
    · exact fun a b hab => by rw [Candidate.name, Candidate.name, hab.scheme.name, hab.level.type]

end LevelIndex

/-! ## Conversions -/

namespace Engine

/-- The same engine with its schemes in another order. -/
structure Permuted (first second : Engine) : Prop where
  schemes : Reordered Scheme.Permuted first.schemes second.schemes
  starts : ∀ scheme ∈ first.schemes, ∀ level ∈ scheme.levels, level.start ≠ .text []
  starts' : ∀ scheme ∈ second.schemes, ∀ level ∈ scheme.levels, level.start ≠ .text []
  companyPrefixes : first.companyPrefixes = second.companyPrefixes
  tables : first.tables = second.tables
  validator : first.validator = second.validator

/-- The same reading of a value by a scheme with its parts in another order. -/
structure Reading.Permuted (first second : Reading) : Prop where
  scheme : first.scheme.Permuted second.scheme
  key : first.key = second.key
  context : first.context = second.context

section
variable {scheme scheme' : Scheme} {level level' : Level}

theorem eligible_perm (hlevel : level.Permuted level') (requested : Option Text) :
    (eligible level requested).Perm (eligible level' requested) := by
  unfold eligible
  rw [hlevel.type]
  split
  · split
    · exact hlevel.options
    · exact hlevel.options.filter _
  · exact hlevel.options

/-- The same option is selected, or none for the same reason. -/
theorem parallel_select (hscheme : scheme.Permuted scheme') (hlevel : level.Permuted level')
    (value : Text) (context : Context) :
    Parallel Eq (select scheme level value context) (select scheme' level' value context) := by
  have hrequested : requestedKey scheme context = requestedKey scheme' context := by
    rw [requestedKey, requestedKey, hscheme.optionKey]
  have hmatching : Reordered Eq (matching (eligible level (requestedKey scheme' context)) value)
      (matching (eligible level' (requestedKey scheme' context)) value) :=
    .of_perm ((eligible_perm hlevel _).filterMap _)
  unfold select
  simp only [hrequested, hscheme.name, hscheme.optionKey, hlevel.type]
  -- no match, one match and several matches are told apart in any order
  rcases hmatching.shapes with ⟨hnil, hnil'⟩ | ⟨a, b, hone, hone', hab⟩ |
    ⟨a, a', rest, b, b', rest', hmany, hmany'⟩
  · simp only [hnil, hnil']
    exact .error (.refl _)
  · simp only [hone, hone']
    exact .ok hab
  · have hkeys := hmatching.map_perm fun a b (hab : a = b) => congrArg (·.1.key) hab
    have hsettled : Reordered Eq
        ((a :: a' :: rest).filter fun candidate =>
          some candidate.1.key == requestedKey scheme' context)
        ((b :: b' :: rest').filter fun candidate =>
          some candidate.1.key == requestedKey scheme' context) := by
      rw [← hmany, ← hmany']
      exact hmatching.filter fun a b hab => by rw [hab]
    rw [hmany, hmany'] at hkeys
    simp only [hmany, hmany']
    rcases hsettled.shapes with ⟨hc, hd⟩ | ⟨c, d, hc, hd, hcd⟩ |
      ⟨c, c', left, d, d', left', hc, hd⟩ <;> simp only [hc, hd]
    · exact .error (.options hkeys _ _ _ _)
    · exact .ok hcd
    · exact .error (.options hkeys _ _ _ _)

end

variable {engine engine' : Engine}

theorem Permuted.lookup_eq (h : engine.Permuted engine') : engine.lookup = engine'.lookup := by
  funext table input output value
  rw [lookup, lookup, h.companyPrefixes, h.tables]

/-- A value is read the same, or fails to be for the same reason. -/
theorem parallel_read (h : engine.Permuted engine') (value : Text) (inputLevel : Option Text)
    (tagLength : Scalar) (params : Params) :
    Parallel Reading.Permuted (engine.read value inputLevel tagLength params)
      (engine'.read value inputLevel tagLength params) := by
  unfold read
  rw [engine.index_eq, engine'.index_eq]
  refine (LevelIndex.parallel_resolve h.schemes h.starts h.starts' inputLevel).bind ?_
  rintro ⟨scheme, level⟩ ⟨scheme', level'⟩ ⟨hscheme, hlevel⟩
  have hstart : startContext params scheme = startContext params scheme' := by
    rw [startContext, startContext, hscheme.tagLength]
  dsimp only at hscheme hlevel ⊢
  rw [hstart]
  refine (parallel_select hscheme hlevel _ _).bind ?_
  rintro ⟨option, found⟩ _ rfl
  dsimp only
  rw [hscheme.optionKey, hscheme.tagOption?_eq, hlevel.type, hlevel.extractRules, h.validator,
    h.lookup_eq]
  refine Parallel.refl.bind fun values _ heq => ?_
  subst heq
  refine Parallel.refl.bind fun context _ heq => ?_
  subst heq
  exact .ok ⟨hscheme, rfl, rfl⟩

/-- The level and the option of the output are the same, or missing alike. -/
theorem parallel_outputOption {scheme scheme' : Scheme} (h : scheme.Permuted scheme')
    (output key : Text) :
    Parallel (fun found found' => found.1.Permuted found'.1 ∧ found.2 = found'.2)
      (outputOption scheme output key) (outputOption scheme' output key) := by
  have hlevels : Option.Rel Level.Permuted (scheme.levelNamed? output)
      (scheme'.levelNamed? output) := by
    unfold Scheme.levelNamed?
    cases LevelType.ofName? output with
    | none => exact .none
    | some type => exact h.level? type
  unfold outputOption
  rw [h.name]
  revert hlevels
  generalize scheme.levelNamed? output = first
  generalize scheme'.levelNamed? output = second
  rintro (hlevel | _)
  · dsimp only
    rw [hlevel.option?_eq key]
    split
    · exact .error (.refl _)
    · exact .ok ⟨hlevel, rfl⟩
  · exact .error (.refl _)

/-- The same is written, or the writing fails for the same reason. -/
theorem parallel_write (h : engine.Permuted engine') {reading reading' : Reading}
    (hreading : reading.Permuted reading') (output : Text) :
    Parallel Eq (engine.write reading output) (engine'.write reading' output) := by
  unfold write
  rw [hreading.key, hreading.context, h.lookup_eq]
  refine (parallel_outputOption hreading.scheme output _).bind ?_
  rintro ⟨level, option⟩ ⟨level', _⟩ ⟨hlevel, rfl⟩
  dsimp only at hlevel ⊢
  rw [hlevel.formatRules, hreading.scheme.tagOption?_eq]
  simp only [renderOutput, h.validator]
  exact .refl

/-- Engines of the same schemes in another order convert alike. -/
theorem Permuted.parallel_convertFromLevel (h : engine.Permuted engine') (value : Text)
    (inputLevel : Option Text) (tagLength : Scalar) (params : Params) (output : Text) :
    Parallel Eq (engine.convertFromLevel value inputLevel tagLength params output).outcome
      (engine'.convertFromLevel value inputLevel tagLength params output).outcome := by
  rw [convertFromLevel_outcome, convertFromLevel_outcome]
  exact (parallel_read h value inputLevel tagLength params).bind fun reading reading' hreading =>
    parallel_write h hreading output

/-- An engine has the schemes that it is made of, and what the settings say. -/
theorem perm_of_ofSchemes {schemes : List Scheme} {settings : Settings}
    (h : (ofSchemes schemes settings).outcome = .ok engine) :
    engine.schemes.Perm schemes ∧ engine.companyPrefixes = settings.companyPrefixes ∧
      engine.tables = settings.tables ∧ engine.validator = ⟨settings.strict⟩ := by
  obtain ⟨sorted, hsorted, h⟩ := Traced.bind_outcome_eq_ok_iff.mp h
  obtain ⟨-, -, h⟩ := Traced.bind_outcome_eq_ok_iff.mp h
  obtain ⟨-, -, h⟩ := Traced.bind_outcome_eq_ok_iff.mp h
  cases h
  exact ⟨NaturalOrder.sortBy_perm hsorted, rfl, rfl, rfl⟩

/-- What an engine has from its documents. -/
theorem exists_schemes_of_ofDocuments {docs : List SchemeDocument} {settings : Settings}
    (h : (ofDocuments docs settings).outcome = .ok engine) :
    ∃ schemes, docs.mapM SchemeDocument.build = .ok schemes ∧ engine.schemes.Perm schemes ∧
      engine.companyPrefixes = settings.companyPrefixes ∧ engine.tables = settings.tables ∧
      engine.validator = ⟨settings.strict⟩ := by
  obtain ⟨schemes, hschemes, h⟩ := Traced.bind_outcome_eq_ok_iff.mp h
  rw [Scheme.buildAll_outcome] at hschemes
  exact ⟨schemes, hschemes, perm_of_ofSchemes h⟩

/-- The engines of documents in another order are the same but for the order. -/
theorem permuted_of_ofDocuments {docs docs' : List SchemeDocument} {settings : Settings}
    (hdocs : Reordered SchemeDocument.Permuted docs docs')
    (hplaces : ∀ doc ∈ docs, doc.DistinctPlaces)
    (h : (ofDocuments docs settings).outcome = .ok engine)
    (h' : (ofDocuments docs' settings).outcome = .ok engine') : engine.Permuted engine' := by
  obtain ⟨schemes, hschemes, hsorted, hprefixes, htables, hvalidator⟩ :=
    exists_schemes_of_ofDocuments h
  obtain ⟨schemes', hschemes', hsorted', hprefixes', htables', hvalidator'⟩ :=
    exists_schemes_of_ofDocuments h'
  have hbuilt : Reordered Scheme.Permuted schemes schemes' :=
    reordered_of_mapM hdocs hschemes hschemes' fun doc hdoc _ _ _ hpermuted =>
      Scheme.permuted_of_build hpermuted (hplaces doc hdoc)
  have hstarts {docs : List SchemeDocument} {schemes sorted : List Scheme}
      (hschemes : docs.mapM SchemeDocument.build = .ok schemes) (hsorted : sorted.Perm schemes) :
      ∀ scheme ∈ sorted, ∀ level ∈ scheme.levels, level.start ≠ .text [] := by
    intro scheme hscheme
    obtain ⟨doc, -, hdoc⟩ := exists_of_mem_mapM hschemes (hsorted.mem_iff.mp hscheme)
    exact (Scheme.built_of_build hdoc).start_ne
  exact {
    schemes := hbuilt.perm hsorted hsorted'.symm
    starts := hstarts hschemes hsorted
    starts' := hstarts hschemes' hsorted'
    companyPrefixes := hprefixes.trans hprefixes'.symm
    tables := htables.trans htables'.symm
    validator := hvalidator.trans hvalidator'.symm }

end Engine

/-- Two engines of the same definitions, with the schemes, the levels of a scheme and the
    options and the rules of a level listed in any order, convert every value to the same
    result or fail with similar errors, which are of one kind. The rules of a level must
    be told apart by their types and places. -/
theorem convert_anyOrder {docs docs' : List SchemeDocument} {settings : Engine.Settings}
    {engine engine' : Engine} (hdocs : Reordered SchemeDocument.Permuted docs docs')
    (hplaces : ∀ doc ∈ docs, doc.DistinctPlaces)
    (hengine : (Engine.ofDocuments docs settings).outcome = .ok engine)
    (hengine' : (Engine.ofDocuments docs' settings).outcome = .ok engine') (value : Text)
    (inputLevel : Option Text) (tagLength : Scalar) (params : Params) (output : Text) :
    Parallel Eq (engine.convertFromLevel value inputLevel tagLength params output).outcome
      (engine'.convertFromLevel value inputLevel tagLength params output).outcome :=
  (Engine.permuted_of_ofDocuments hdocs hplaces hengine hengine').parallel_convertFromLevel value
    inputLevel tagLength params output

/-- Two options match the value, and the engines list them in different orders. -/
theorem convert_anyOrder_ambiguous :
    ∃ docs engine engine',
      docs = [Builtin.scheme "A-3" 3 "key" [
          Builtin.level .binary "01" [Builtin.option "1" "^01[01]*$" "'01'" [],
              Builtin.option "2" "^010$" "'010'" []]
            (Builtin.rules .extract [("a", "LENGTH('0')"), ("b", "LENGTH(a)")]),
          Builtin.level .legacy "a" [] []],
        Builtin.scheme "B-3" 3 "key" [Builtin.level .binary "1" [] []]] ∧
      (Engine.ofDocuments docs {}).outcome = .ok engine ∧
      (Engine.ofDocuments (docs.map SchemeDocument.turned).reverse {}).outcome = .ok engine' ∧
      Parallel Eq (engine.convertFromLevel "010" none .null [] "LEGACY").outcome
        (engine'.convertFromLevel "010" none .null [] "LEGACY").outcome := by
  obtain ⟨docs, hdocs⟩ : ∃ docs, docs = [Builtin.scheme "A-3" 3 "key" [
      Builtin.level .binary "01" [Builtin.option "1" "^01[01]*$" "'01'" [],
          Builtin.option "2" "^010$" "'010'" []]
        (Builtin.rules .extract [("a", "LENGTH('0')"), ("b", "LENGTH(a)")]),
      Builtin.level .legacy "a" [] []],
    Builtin.scheme "B-3" 3 "key" [Builtin.level .binary "1" [] []]] := ⟨_, rfl⟩
  obtain ⟨engine, hengine⟩ : ∃ engine, (Engine.ofDocuments docs {}).outcome = .ok engine :=
    exists_eq_ok_of_isSome (by subst hdocs; decide +kernel)
  obtain ⟨engine', hengine'⟩ : ∃ engine',
      (Engine.ofDocuments (docs.map SchemeDocument.turned).reverse {}).outcome = .ok engine' :=
    exists_eq_ok_of_isSome (by subst hdocs; decide +kernel)
  refine ⟨docs, engine, engine', hdocs, hengine, hengine', convert_anyOrder
    (Reordered.reverse_map SchemeDocument.permuted_turned docs) ?_ hengine hengine' _ _ _ _ _⟩
  subst hdocs
  decide +kernel

end EpcTag
