-- SUMMARY: Resolution is a scan of all levels: prefix trees and the order of the levels change nothing but the order in which a message lists what is ambiguous.
import EpcTag.Builtin.Basic
import EpcTag.Proofs.Building
import EpcTag.Proofs.Numeral
import EpcTag.Proofs.Resolution

/-!
# Resolution as a scan

Without any tree, a value is resolved by going through the levels of all schemes.
The trees meet the same levels in another order, sorted by type and by the length of
their prefixes. What is made of the candidates depends on their order in one place:
the message of an ambiguity lists them. What is chosen from them is chosen again when
its own tag length is asked for, as fewer candidates are left then and it is one of
them.
-/

namespace EpcTag

/-! ## Lists in another order -/

/-- The elements of two lists are related one to one, in whatever order they come. -/
def Reordered {α β : Type} (related : α → β → Prop) (xs : List α) (ys : List β) : Prop :=
  ∃ middle, xs.Perm middle ∧ List.Forall₂ related middle ys

namespace Reordered

variable {α β γ δ : Type} {related : α → β → Prop} {xs : List α} {ys : List β}

theorem of_perm {xs ys : List α} (h : xs.Perm ys) : Reordered Eq xs ys :=
  ⟨ys, h, List.forall₂_refl ys⟩

theorem perm_of_eq {xs ys : List α} (h : Reordered Eq xs ys) : xs.Perm ys := by
  obtain ⟨middle, hperm, hrelated⟩ := h
  rw [List.forall₂_eq_eq_eq] at hrelated
  exact hrelated ▸ hperm

theorem perm (h : Reordered related xs ys) {xs' : List α} {ys' : List β} (hxs : xs'.Perm xs)
    (hys : ys.Perm ys') : Reordered related xs' ys' := by
  obtain ⟨middle, hperm, hrelated⟩ := h
  have hcomp : Relation.Comp (List.Forall₂ related) List.Perm middle ys' := ⟨ys, hrelated, hys⟩
  rw [List.forall₂_comp_perm_eq_perm_comp_forall₂] at hcomp
  obtain ⟨middle', hperm', hrelated'⟩ := hcomp
  exact ⟨middle', hxs.trans (hperm.trans hperm'), hrelated'⟩

theorem length_eq (h : Reordered related xs ys) : xs.length = ys.length := by
  obtain ⟨middle, hperm, hrelated⟩ := h
  exact hperm.length_eq.trans hrelated.length_eq

theorem isEmpty_eq (h : Reordered related xs ys) : xs.isEmpty = ys.isEmpty := by
  have hlength := h.length_eq
  cases xs <;> cases ys <;> simp_all

/-- Two such lists are both empty, both of one element or both of several. -/
theorem shapes (h : Reordered related xs ys) :
    (xs = [] ∧ ys = []) ∨ (∃ x y, xs = [x] ∧ ys = [y] ∧ related x y) ∨
      ∃ x x' rest y y' rest', xs = x :: x' :: rest ∧ ys = y :: y' :: rest' := by
  have hlength := h.length_eq
  obtain ⟨middle, hperm, hrelated⟩ := h
  match xs, ys, hlength with
  | [], [], _ => exact .inl ⟨rfl, rfl⟩
  | [x], [y], _ =>
    obtain rfl := List.singleton_perm.mp hperm
    exact .inr (.inl ⟨x, y, rfl, rfl, (List.forall₂_cons.mp hrelated).1⟩)
  | x :: x' :: rest, y :: y' :: rest', _ => exact .inr (.inr ⟨x, x', rest, y, y', rest', rfl, rfl⟩)

theorem map (h : Reordered related xs ys) {make : α → γ} {make' : β → δ} {related' : γ → δ → Prop}
    (hmake : ∀ x y, related x y → related' (make x) (make' y)) :
    Reordered related' (xs.map make) (ys.map make') := by
  obtain ⟨middle, hperm, hrelated⟩ := h
  refine ⟨middle.map make, hperm.map make, ?_⟩
  rw [List.forall₂_map_left_iff, List.forall₂_map_right_iff]
  exact hrelated.imp hmake

/-- Elements that are made from those of a list, the other way round. -/
theorem reverse_map {make : α → β} (hmake : ∀ x, related x (make x)) (xs : List α) :
    Reordered related xs (xs.map make).reverse := by
  refine ⟨xs.reverse, xs.reverse_perm.symm, ?_⟩
  rw [← List.map_reverse, List.forall₂_map_right_iff]
  exact List.forall₂_same.mpr fun x _ => hmake x

theorem map_perm (h : Reordered related xs ys) {make : α → γ} {make' : β → γ}
    (hmake : ∀ x y, related x y → make x = make' y) : (xs.map make).Perm (ys.map make') :=
  (h.map hmake).perm_of_eq

theorem filter (h : Reordered related xs ys) {keep : α → Bool} {keep' : β → Bool}
    (hkeep : ∀ x y, related x y → keep x = keep' y) :
    Reordered related (xs.filter keep) (ys.filter keep') := by
  obtain ⟨middle, hperm, hrelated⟩ := h
  refine ⟨middle.filter keep, hperm.filter keep, ?_⟩
  clear hperm
  induction hrelated with
  | nil => exact .nil
  | @cons x y _ _ hxy _ ih =>
    rw [List.filter_cons, List.filter_cons, hkeep x y hxy]
    split
    · exact .cons hxy ih
    · exact ih

theorem append (h : Reordered related xs ys) {xs' : List α} {ys' : List β}
    (h' : Reordered related xs' ys') : Reordered related (xs ++ xs') (ys ++ ys') := by
  obtain ⟨middle, hperm, hrelated⟩ := h
  obtain ⟨middle', hperm', hrelated'⟩ := h'
  exact ⟨middle ++ middle', hperm.append hperm', List.rel_append hrelated hrelated'⟩

theorem flatMap (h : Reordered related xs ys) {make : α → List γ} {make' : β → List δ}
    {related' : γ → δ → Prop}
    (hmake : ∀ x y, related x y → Reordered related' (make x) (make' y)) :
    Reordered related' (xs.flatMap make) (ys.flatMap make') := by
  obtain ⟨middle, hperm, hrelated⟩ := h
  refine Reordered.perm ?_ (hperm.flatMap_right make) (List.Perm.refl _)
  clear hperm
  induction hrelated with
  | nil => exact ⟨[], List.Perm.refl _, .nil⟩
  | @cons x y _ _ hxy _ ih =>
    rw [List.flatMap_cons, List.flatMap_cons]
    exact (hmake x y hxy).append ih

end Reordered

/-! ## Outcomes that do not depend on an order -/

/-- Errors that differ at most in the order in which they list what is ambiguous. -/
inductive Error.Similar : Error → Error → Prop
  | refl (error : Error) : Similar error error
  | levels (value : Text) {names names' : List LevelName} (h : names.Perm names') :
      Similar (.ambiguous (.levels value names)) (.ambiguous (.levels value names'))
  | options {keys keys' : List Text} (h : keys.Perm keys') (scheme : Text) (level : LevelType)
      (value : Text) (optionKey : Scalar) :
      Similar (.ambiguous (.options keys scheme level value optionKey))
        (.ambiguous (.options keys' scheme level value optionKey))

/-- Similar errors are of the same kind. -/
theorem Error.Similar.kind?_eq {e e' : Error} (h : e.Similar e') : e.kind? = e'.kind? := by
  cases h <;> rfl

/-- Two calculations have results in a relation or fail with similar errors. -/
inductive Parallel {α β : Type} (related : α → β → Prop) : Except Error α → Except Error β → Prop
  | ok {a : α} {b : β} (h : related a b) : Parallel related (.ok a) (.ok b)
  | error {e e' : Error} (h : e.Similar e') : Parallel related (.error e) (.error e')

namespace Parallel

variable {α β γ δ : Type} {related : α → β → Prop} {related' : γ → δ → Prop}
  {first : Except Error α} {second : Except Error β}

theorem refl {first : Except Error α} : Parallel Eq first first := by
  cases first with
  | ok value => exact .ok rfl
  | error error => exact .error (.refl error)

theorem bind (h : Parallel related first second) {next : α → Except Error γ}
    {next' : β → Except Error δ} (hnext : ∀ a b, related a b → Parallel related' (next a) (next' b)) :
    Parallel related' (first.bind next) (second.bind next') := by
  cases h with
  | ok h => exact hnext _ _ h
  | error h => exact .error h

end Parallel

/-! ## The scan -/

/-- Does a value start like the values of a level? A level needs a prefix for that. -/
def Level.starts (level : Level) (value : Text) : Bool :=
  match level.start with
  | .text start => !start.isEmpty && start.isPrefixOf value
  | _ => false

namespace LevelIndex

/-- The levels of a type, or of all, whose values a value starts like. -/
def starting (schemes : List Scheme) (type : Option LevelType) (value : Text) : List Candidate :=
  schemes.flatMap fun scheme =>
    (scheme.levels.filter fun level => type.all (level.type = ·) && level.starts value).map
      fun level => ⟨scheme, level⟩

/-- The resolution of a value by a scan of all levels. -/
def scan (schemes : List Scheme) (type : Option LevelType) (value : Text) (hint : Scalar) :
    Except Error Candidate :=
  judge value hint (starting schemes type value)

variable {value : Text} {hint : Scalar}

/-! ## Asking again -/

section
variable {candidates : List Candidate} {chosen : Candidate}

/-- What is chosen from candidates is chosen from any of them that it is among. -/
theorem only_of_sublist (h : only value candidates = .ok chosen) {fewer : List Candidate}
    (hsub : fewer.Sublist candidates) (hmem : chosen ∈ fewer) :
    only value fewer = .ok chosen := by
  -- of a single candidate no more than itself is left
  have hsingle {left : List Candidate} (hleft : left.Sublist [chosen]) (hin : chosen ∈ left) :
      left = [chosen] := by
    rcases List.sublist_singleton.mp hleft with rfl | rfl
    · cases hin
    · rfl
  rcases only_cases h with hone | hone
  · rw [hsingle (hone ▸ hsub) hmem]
    rfl
  · have hchosen : chosen ∈ candidates.filter (·.accepts value) :=
      hone ▸ List.mem_singleton_self chosen
    have haccepts : chosen.accepts value = true := (List.mem_filter.mp hchosen).2
    exact only_of_filter (hsingle (hone ▸ hsub.filter _) (List.mem_filter.mpr ⟨hmem, haccepts⟩))

/-- The candidates of the tag length of one that is left are left. -/
theorem filter_sublist_narrow {length : Option Int} (h : chosen ∈ narrow length candidates) :
    (candidates.filter (·.scheme.tagLength = chosen.scheme.tagLength)).Sublist
      (narrow length candidates) := by
  unfold narrow at h ⊢
  split at h
  · exact List.filter_sublist
  · split at h
    · next hany =>
      rw [if_pos hany]
      obtain rfl := of_decide_eq_true (List.mem_filter.mp h).2
      exact List.Sublist.refl _
    · next hany =>
      rw [if_neg hany]
      exact List.filter_sublist

theorem askedLength_ofInt (length : Int) :
    askedLength (.text (Text.ofInt length)) = .ok (some length) :=
  askedLength_of_integer (Numeral.readInteger?_ofInt length)

/-- Candidates that come to one of them come to it again if its tag length is asked for. -/
theorem judge_again (h : judge value hint candidates = .ok chosen) :
    judge value (.text (Text.ofInt chosen.scheme.tagLength)) candidates = .ok chosen := by
  unfold judge at h ⊢
  split at h
  · cases h
  · next hsome =>
    rw [if_neg hsome, askedLength_ofInt]
    obtain ⟨length, -, honly⟩ := bind_eq_ok_iff.mp h
    have hleft : chosen ∈ narrow length candidates := mem_of_only honly
    have hmem : chosen ∈ candidates := (narrow_sublist length candidates).subset hleft
    have hagain : chosen ∈ candidates.filter (·.scheme.tagLength = chosen.scheme.tagLength) :=
      List.mem_filter.mpr ⟨hmem, decide_eq_true rfl⟩
    change only value (narrow (some chosen.scheme.tagLength) candidates) = .ok chosen
    rw [narrow_of_mem hagain]
    exact only_of_sublist honly (filter_sublist_narrow hleft) hagain

end

/-! ## Candidates in another order -/

variable {related : Candidate → Candidate → Prop} {candidates candidates' : List Candidate}

/-- The order of the candidates shows in the list of an ambiguity only. -/
theorem parallel_only (h : Reordered related candidates candidates')
    (haccepts : ∀ a b, related a b → a.accepts value = b.accepts value)
    (hname : ∀ a b, related a b → a.name = b.name) :
    Parallel related (only value candidates) (only value candidates') := by
  rcases h.shapes with ⟨rfl, rfl⟩ | ⟨a, b, rfl, rfl, hab⟩ | ⟨a, a', rest, b, b', rest', rfl, rfl⟩
  · exact .error (.refl _)
  · exact .ok hab
  · have hleft := h.filter haccepts
    simp only [only]
    rcases hleft.shapes with ⟨hc, hd⟩ | ⟨c, d, hc, hd, hcd⟩ | ⟨c, c', left, d, d', left', hc, hd⟩ <;>
      simp only [hc, hd]
    · exact .error (.refl _)
    · exact .ok hcd
    · rw [hc, hd] at hleft
      exact .error (.levels value (hleft.map_perm hname))

/-- What candidates come to does not depend on their order. -/
theorem parallel_judge (h : Reordered related candidates candidates')
    (hlength : ∀ a b, related a b → a.scheme.tagLength = b.scheme.tagLength)
    (haccepts : ∀ a b, related a b → a.accepts value = b.accepts value)
    (hname : ∀ a b, related a b → a.name = b.name) :
    Parallel related (judge value hint candidates) (judge value hint candidates') := by
  unfold judge
  rw [h.isEmpty_eq]
  split
  · exact .error (.refl _)
  · -- the hint does not depend on the candidates, and an empty selection by length is dropped in both
    refine Parallel.refl.bind fun length _ heq => ?_
    subst heq
    refine parallel_only ?_ haccepts hname
    cases length with
    | none => exact h
    | some length =>
      have hexact : Reordered related (candidates.filter (·.scheme.tagLength = length))
          (candidates'.filter (·.scheme.tagLength = length)) :=
        h.filter fun a b hab => by rw [hlength a b hab]
      simp only [narrow, any_eq_not_isEmpty_filter, hexact.isEmpty_eq]
      split
      · exact hexact
      · exact h

/-! ## What the trees find -/

/-- The types that a search for a level of a type, or of all, goes through. -/
def typesOf (type : Option LevelType) : List LevelType := type.elim LevelType.all ([·])

theorem searched_map_name (type : Option LevelType) :
    searched (type.map LevelType.name) = .ok (typesOf type) := by
  cases type <;> simp [searched, typesOf]

/-- Candidates are sorted by their types. -/
theorem perm_flatMap_type (candidates : List Candidate) :
    (LevelType.all.flatMap fun type => candidates.filter (·.level.type = type)).Perm
      candidates := by
  have hnodup : LevelType.all.Nodup := by decide
  have hall : candidates.filter (·.level.type ∈ LevelType.all) = candidates := by
    simp [LevelType.mem_all]
  have hgroups := flatMap_filter_perm (fun candidate : Candidate => candidate.level.type) hnodup
    candidates
  rwa [hall] at hgroups

variable {schemes : List Scheme}

/-- The entries of a tree whose prefix a value has are the levels that it starts like. -/
theorem filter_entries (hstarts : ∀ scheme ∈ schemes, ∀ level ∈ scheme.levels,
    level.start ≠ .text []) (type : LevelType) :
    ((entries schemes type).filter fun entry => entry.1.isPrefixOf value).map Prod.snd =
      starting schemes (some type) value := by
  rw [entries, starting, List.filter_flatMap, List.map_flatMap]
  refine List.flatMap_congr fun scheme hscheme => ?_
  rw [List.filter_filterMap, List.map_filterMap, ← List.filterMap_eq_map, List.filterMap_filter]
  refine List.filterMap_congr fun level hlevel => ?_
  by_cases htype : level.type = type
  · cases hstart : level.start with
    | text start =>
      have hne : start ≠ [] := fun heq => hstarts scheme hscheme level hlevel (heq ▸ hstart)
      by_cases hprefix : start <+: value <;>
        simp [htype, Level.starts, hstart, Scalar.text?, hne, hprefix]
    | _ => simp [htype, Level.starts, hstart, Scalar.text?]
  · simp [htype]

/-- The candidates for a value are the levels that it starts like. -/
theorem candidates_perm_starting (hstarts : ∀ scheme ∈ schemes, ∀ level ∈ scheme.levels,
    level.start ≠ .text []) (type : Option LevelType) (value : Text) :
    ((ofSchemes schemes).candidates (typesOf type) value).Perm (starting schemes type value) := by
  have hfound (type : LevelType) : (((ofSchemes schemes).tree type).search value).Perm
      (starting schemes (some type) value) := by
    rw [tree_ofSchemes, ← filter_entries hstarts type]
    exact PrefixTree.search_ofList _ _
  cases type with
  | some type => simpa [candidates, typesOf] using hfound type
  | none =>
    refine (List.Perm.flatMap_left _ fun type _ => hfound type).trans ?_
    have hsplit (type : LevelType) : starting schemes (some type) value =
        (starting schemes none value).filter (·.level.type = type) := by
      simp [starting, List.filter_flatMap, List.filter_map, List.filter_filter, Function.comp_def]
    simp only [hsplit]
    exact perm_flatMap_type _

/-- Trees and a scan come to the same, up to the order in an ambiguity. -/
theorem parallel_scan (hstarts : ∀ scheme ∈ schemes, ∀ level ∈ scheme.levels,
    level.start ≠ .text []) (type : Option LevelType) (value : Text) (hint : Scalar) :
    Parallel Eq ((ofSchemes schemes).resolve value hint (type.map LevelType.name)).outcome
      (scan schemes type value hint) := by
  rw [resolve_outcome, searched_map_name]
  refine parallel_judge (.of_perm (candidates_perm_starting hstarts type value)) ?_ ?_ ?_
  all_goals
    rintro a _ rfl
    rfl

theorem eq_ofSchemes_of_build {index : LevelIndex} (h : build schemes = .ok index) :
    index = ofSchemes schemes := by
  obtain ⟨-, -, h⟩ := bind_eq_ok_iff.mp h
  exact (Except.ok.inj h).symm

end LevelIndex

/-- A resolution is stable under its own answer: whatever tag length was asked for, asking
    for the one that it came to leads to the same level. -/
theorem resolve_again {index : LevelIndex} {value : Text} {hint : Scalar} {level : Option Text}
    {chosen : Candidate} (h : (index.resolve value hint level).outcome = .ok chosen) :
    (index.resolve value (.text (Text.ofInt chosen.scheme.tagLength)) level).outcome =
      .ok chosen := by
  rw [LevelIndex.resolve_outcome] at h ⊢
  obtain ⟨types, htypes, hjudge⟩ := bind_eq_ok_iff.mp h
  rw [htypes]
  exact LevelIndex.judge_again hjudge

/-- Two schemes have a prefix of the value, none has the tag length that is asked for first,
    and the pattern of one of them matches. -/
theorem resolve_again_tied :
    ∃ first second index chosen,
      (Builtin.scheme "A-3" 3 "1" [Builtin.level .binary "01"
        [Builtin.option "1" "^01[01]$" "''" []] []]).build = .ok first ∧
      (Builtin.scheme "B-4" 4 "1" [Builtin.level .binary "0"
        [Builtin.option "1" "^0[01]*$" "''" []] []]).build = .ok second ∧
      LevelIndex.build [first, second] = .ok index ∧
      (index.resolve "0110" (.integer 96) none).outcome = .ok chosen ∧
      (index.resolve "0110" (.text (Text.ofInt chosen.scheme.tagLength)) none).outcome =
        .ok chosen := by
  obtain ⟨⟨first, second, index, chosen⟩, h⟩ : ∃ built, (do
      let first ← (Builtin.scheme "A-3" 3 "1" [Builtin.level .binary "01"
        [Builtin.option "1" "^01[01]$" "''" []] []]).build
      let second ← (Builtin.scheme "B-4" 4 "1" [Builtin.level .binary "0"
        [Builtin.option "1" "^0[01]*$" "''" []] []]).build
      let index ← LevelIndex.build [first, second]
      let chosen ← (index.resolve "0110" (.integer 96) none).outcome
      pure (first, second, index, chosen)) = Except.ok built :=
    exists_eq_ok_of_isSome (by decide +kernel)
  obtain ⟨_, hfirst, h⟩ := bind_eq_ok_iff.mp h
  obtain ⟨_, hsecond, h⟩ := bind_eq_ok_iff.mp h
  obtain ⟨_, hindex, h⟩ := bind_eq_ok_iff.mp h
  obtain ⟨_, hchosen, h⟩ := bind_eq_ok_iff.mp h
  cases h
  exact ⟨first, second, index, chosen, hfirst, hsecond, hindex, hchosen, resolve_again hchosen⟩

end EpcTag
