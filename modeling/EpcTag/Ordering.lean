-- SUMMARY: Stable sorting of short lists.

/-!
# Stable sorting

Lists of rules and schemes are short and are sorted once, when they are loaded,
so insertion serves: every element is inserted in front of the first element
that it need not follow. Elements that neither need precede the other keep
their order.
-/

namespace EpcTag

/-- The list with `x` inserted in front of the first element that does not come
    before it. -/
def insertStable {α : Type} (before : α → α → Bool) (x : α) : List α → List α
  | [] => [x]
  | y :: rest => if before y x then y :: insertStable before x rest else x :: y :: rest

/-- The list in ascending order, equal elements in the order in which they came. -/
def sortStable {α : Type} (before : α → α → Bool) : List α → List α
  | [] => []
  | x :: rest => insertStable before x (sortStable before rest)

variable {α : Type} (before : α → α → Bool)

theorem insertStable_perm (x : α) (xs : List α) : (insertStable before x xs).Perm (x :: xs) := by
  induction xs with
  | nil => exact List.Perm.refl _
  | cons y rest ih =>
    simp only [insertStable]
    split
    · exact (ih.cons y).trans (List.Perm.swap x y rest)
    · exact List.Perm.refl _

/-- Sorting keeps the elements. -/
theorem sortStable_perm (xs : List α) : (sortStable before xs).Perm xs := by
  induction xs with
  | nil => exact List.Perm.refl _
  | cons x rest ih => exact (insertStable_perm before x _).trans (ih.cons x)

theorem insertStable_map {β : Type} (make : β → α) (x : β) (xs : List β) :
    insertStable before (make x) (xs.map make) =
      (insertStable (fun a b => before (make a) (make b)) x xs).map make := by
  induction xs with
  | nil => rfl
  | cons y rest ih =>
    simp only [List.map_cons, insertStable]
    split
    · rw [ih, List.map_cons]
    · rfl

/-- To sort what is made from elements is to sort these. -/
theorem sortStable_map {β : Type} (make : β → α) (xs : List β) :
    sortStable before (xs.map make) =
      (sortStable (fun a b => before (make a) (make b)) xs).map make := by
  induction xs with
  | nil => rfl
  | cons x rest ih => rw [List.map_cons, sortStable, ih, insertStable_map, sortStable]

section Places

variable {κ : Type} [LE κ] [LT κ] [DecidableLT κ] [Std.IsLinearOrder κ] [Std.LawfulOrderLT κ]

theorem insertStable_pairwise (place : α → κ) (x : α) {xs : List α}
    (h : xs.Pairwise (place · ≤ place ·)) :
    (insertStable (fun a b => place a < place b) x xs).Pairwise (place · ≤ place ·) := by
  induction xs with
  | nil => exact List.pairwise_singleton _ x
  | cons y rest ih =>
    obtain ⟨hy, hrest⟩ := List.pairwise_cons.mp h
    simp only [insertStable, decide_eq_true_eq]
    split
    · next hlt =>
      refine List.pairwise_cons.mpr ⟨fun z hz => ?_, ih hrest⟩
      rcases List.mem_cons.mp ((insertStable_perm _ x rest).mem_iff.mp hz) with rfl | hz
      · exact Std.le_of_lt hlt
      · exact hy z hz
    · next hle =>
      have hxy : place x ≤ place y := Std.not_lt.mp hle
      refine List.pairwise_cons.mpr ⟨fun z hz => ?_, h⟩
      rcases List.mem_cons.mp hz with rfl | hz
      · exact hxy
      · exact Std.le_trans hxy (hy z hz)

/-- A list sorted by places in a linear order is in ascending order. -/
theorem sortStable_pairwise (place : α → κ) (xs : List α) :
    (sortStable (fun a b => place a < place b) xs).Pairwise (place · ≤ place ·) := by
  induction xs with
  | nil => exact List.Pairwise.nil
  | cons x rest ih => exact insertStable_pairwise place x ih

end Places

@[simp] theorem mem_sortStable {x : α} {xs : List α} : x ∈ sortStable before xs ↔ x ∈ xs :=
  (sortStable_perm before xs).mem_iff

/-- An element goes behind all that come before it. -/
theorem insertStable_append (x : α) {front : List α} (h : ∀ y ∈ front, before y x = true)
    (back : List α) : insertStable before x (front ++ back) = front ++ insertStable before x back := by
  induction front with
  | nil => rfl
  | cons y front ih =>
    rw [List.cons_append, insertStable, if_pos (h y List.mem_cons_self),
      ih fun z hz => h z (List.mem_cons_of_mem y hz), List.cons_append]

/-- An element goes in front of a list in which nothing comes before it. -/
theorem insertStable_of_not_before (x : α) {back : List α} (h : ∀ y ∈ back, before y x = false) :
    insertStable before x back = x :: back := by
  cases back with
  | nil => rfl
  | cons y back => rw [insertStable, h y List.mem_cons_self, if_neg Bool.false_ne_true]

/-- A new element changes no group but its own. -/
theorem flatMap_filter_cons {κ : Type} [DecidableEq κ] (key : α → κ) {keys : List κ} {x : α}
    (h : ∀ k ∈ keys, key x ≠ k) (xs : List α) :
    (keys.flatMap fun k => (x :: xs).filter (key · = k)) =
      keys.flatMap fun k => xs.filter (key · = k) := by
  rw [List.flatMap_def, List.flatMap_def]
  congr 1
  refine List.map_congr_left fun k hk => ?_
  rw [List.filter_cons_of_neg]
  simpa using h k hk

/-- The groups of different keys hold the elements with these keys, each once. -/
theorem flatMap_filter_perm {κ : Type} [DecidableEq κ] (key : α → κ) {keys : List κ}
    (h : keys.Nodup) (xs : List α) :
    (keys.flatMap fun k => xs.filter (key · = k)).Perm (xs.filter (key · ∈ keys)) := by
  induction keys with
  | nil => simp
  | cons k keys ih =>
    obtain ⟨hk, hkeys⟩ := List.nodup_cons.mp h
    have hown : (xs.filter (key · ∈ k :: keys)).filter (key · = k) = xs.filter (key · = k) := by
      rw [List.filter_filter]
      refine List.filter_congr fun x _ => ?_
      by_cases hx : key x = k <;> simp [hx]
    have hothers : (xs.filter (key · ∈ k :: keys)).filter (fun x => !decide (key x = k)) =
        xs.filter (key · ∈ keys) := by
      rw [List.filter_filter]
      refine List.filter_congr fun x _ => ?_
      by_cases hx : key x = k <;> simp [hx, hk]
    have hsplit := List.filter_append_perm (key · = k) (xs.filter (key · ∈ k :: keys))
    rw [hown, hothers] at hsplit
    exact ((ih hkeys).append_left _).trans hsplit

/-- Sorting by a place gathers the elements of each key, in the order in which they came:
    the keys, each with its own place, follow one another in the order of their places. -/
theorem sortStable_eq_flatMap {κ : Type} [DecidableEq κ] (key : α → κ) (place : κ → Nat)
    {keys : List κ} (hkeys : keys.Pairwise (place · < place ·)) {xs : List α}
    (hxs : ∀ x ∈ xs, key x ∈ keys) :
    sortStable (fun a b => place (key a) < place (key b)) xs =
      keys.flatMap fun k => xs.filter (key · = k) := by
  induction xs with
  | nil => simp [sortStable]
  | cons x xs ih =>
    -- the keys in front of that of the new element, and those behind it
    obtain ⟨front, back, rfl⟩ := List.append_of_mem (hxs x List.mem_cons_self)
    obtain ⟨-, hbehind, hfront⟩ := List.pairwise_append.mp hkeys
    obtain ⟨hback, -⟩ := List.pairwise_cons.mp hbehind
    have hkey {keys : List κ} {y : α} (hy : y ∈ keys.flatMap fun k => xs.filter (key · = k)) :
        key y ∈ keys := by
      obtain ⟨k, hk, hmem⟩ := List.mem_flatMap.mp hy
      rwa [of_decide_eq_true (List.mem_filter.mp hmem).2]
    have hbefore : ∀ y ∈ front.flatMap fun k => xs.filter (key · = k),
        decide (place (key y) < place (key x)) = true := fun y hy =>
      decide_eq_true (hfront _ (hkey hy) _ List.mem_cons_self)
    have hafter : ∀ y ∈ (key x :: back).flatMap fun k => xs.filter (key · = k),
        decide (place (key y) < place (key x)) = false := by
      intro y hy
      rcases List.mem_cons.mp (hkey hy) with heq | hmem
      · simp [heq]
      · exact decide_eq_false (Nat.not_lt_of_gt (hback _ hmem))
    have hfrontKeys : ∀ k ∈ front, key x ≠ k := by
      rintro k hk rfl
      exact Nat.lt_irrefl _ (hfront _ hk _ List.mem_cons_self)
    have hbackKeys : ∀ k ∈ back, key x ≠ k := by
      rintro k hk rfl
      exact Nat.lt_irrefl _ (hback _ hk)
    have hown : ((x :: xs).filter fun y => key y = key x) =
        x :: xs.filter fun y => key y = key x := by simp
    rw [sortStable, ih fun y hy => hxs y (List.mem_cons_of_mem x hy), List.flatMap_append,
      insertStable_append _ x hbefore, insertStable_of_not_before _ x hafter, List.flatMap_append,
      List.flatMap_cons, List.flatMap_cons, flatMap_filter_cons key hfrontKeys,
      flatMap_filter_cons key hbackKeys, hown, List.cons_append]

end EpcTag
