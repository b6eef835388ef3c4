-- SUMMARY: What a prefix tree holds under each key, and that it answers as a scan of its entries does: a search, and the longest key that starts a text.
import EpcTag.Ordering
import EpcTag.PrefixTree
import Mathlib.Tactic

/-!
# Prefix trees

Insertion changes what a tree holds under one key, so a tree of entries holds under
each key the values of the entries that have it. A search visits the keys that the text
starts with, shorter ones first, so it finds what a stable sort of their entries by
length lists. The longest of these keys is the one beyond which no key that the text
starts with has values.
-/

namespace EpcTag.PrefixTree

variable {α : Type}

/-! ## Keys -/

/-- The values under a key. -/
def valuesAt : PrefixTree α → Text → List α
  | tree, [] => tree.values
  | tree, c :: key =>
    match tree.child? c with
    | some child => child.valuesAt key
    | none => []

@[simp] theorem valuesAt_nil (tree : PrefixTree α) : tree.valuesAt [] = tree.values := by
  cases tree
  rfl

theorem valuesAt_cons_of_some {tree child : PrefixTree α} {c : Char}
    (h : tree.child? c = some child) (key : Text) :
    tree.valuesAt (c :: key) = child.valuesAt key := by
  rw [valuesAt, h]

theorem valuesAt_cons_of_none {tree : PrefixTree α} {c : Char} (h : tree.child? c = none)
    (key : Text) : tree.valuesAt (c :: key) = [] := by
  rw [valuesAt, h]

@[simp] theorem valuesAt_empty (key : Text) : (empty : PrefixTree α).valuesAt key = [] := by
  cases key <;> rfl

/-- A character without a tree has the values of the empty one. -/
theorem valuesAt_cons (tree : PrefixTree α) (c : Char) (key : Text) :
    tree.valuesAt (c :: key) = ((tree.child? c).getD empty).valuesAt key := by
  cases h : tree.child? c with
  | none => rw [valuesAt_cons_of_none h, Option.getD_none, valuesAt_empty]
  | some child => rw [valuesAt_cons_of_some h, Option.getD_some]

theorem values_insert_cons (tree : PrefixTree α) (c : Char) (key : Text) (value : α) :
    (tree.insert (c :: key) value).values = tree.values := by
  cases tree
  rfl

theorem child?_insert_cons (tree : PrefixTree α) (c d : Char) (key : Text) (value : α) :
    (tree.insert (c :: key) value).child? d =
      if d = c then some (((tree.child? c).getD empty).insert key value) else tree.child? d := by
  obtain ⟨values, children⟩ := tree
  exact lookup_updateChild c d (insert key value) children

/-- Insertion changes what is under one key. -/
theorem valuesAt_insert (tree : PrefixTree α) (key other : Text) (value : α) :
    (tree.insert key value).valuesAt other =
      if other = key then tree.valuesAt key ++ [value] else tree.valuesAt other := by
  induction key generalizing tree other with
  | nil =>
    obtain ⟨values, children⟩ := tree
    cases other with
    | nil => rfl
    | cons d other => rfl
  | cons c key ih =>
    cases other with
    | nil => rw [valuesAt_nil, values_insert_cons, if_neg (List.cons_ne_nil c key).symm, valuesAt_nil]
    | cons d other =>
      rw [valuesAt_cons, child?_insert_cons]
      by_cases hd : d = c
      · subst hd
        rw [if_pos rfl, Option.getD_some, ih, valuesAt_cons, valuesAt_cons]
        simp only [List.cons.injEq, true_and]
      · rw [if_neg hd, if_neg fun h => hd (List.cons.inj h).1, valuesAt_cons]

/-- A tree of entries holds under a key the values of the entries that have it, in their
    order. -/
theorem valuesAt_ofList (entries : List (Text × α)) (key : Text) :
    (ofList entries).valuesAt key = (entries.filter fun entry => entry.1 = key).map Prod.snd := by
  induction entries using List.reverseRecOn with
  | nil => exact valuesAt_empty key
  | append_singleton entries entry ih =>
    have hlast : ofList (entries ++ [entry]) = (ofList entries).insert entry.1 entry.2 := by
      simp [ofList]
    rw [hlast, valuesAt_insert, List.filter_append, List.map_append, ← ih]
    by_cases hkey : key = entry.1
    · subst hkey
      simp
    · simp [hkey, Ne.symm hkey]

/-! ## Searches -/

/-- A search meets the beginnings of the text, the shortest first. -/
theorem search_eq_flatMap (tree : PrefixTree α) (text : Text) :
    tree.search text = text.inits.flatMap tree.valuesAt := by
  induction text generalizing tree with
  | nil => simp
  | cons c text ih =>
    rw [search, List.inits_cons, List.flatMap_cons, valuesAt_nil, List.flatMap_map]
    congr 1
    cases hchild : tree.child? c with
    | none =>
      refine (List.flatMap_eq_nil_iff.mpr fun key _ => ?_).symm
      exact valuesAt_cons_of_none hchild key
    | some child =>
      refine (ih child).trans (List.flatMap_congr fun key _ => ?_)
      exact (valuesAt_cons_of_some hchild key).symm

/-- The entries whose keys a text starts with. -/
def starting (entries : List (Text × α)) (text : Text) : List (Text × α) :=
  entries.filter fun entry => entry.1.isPrefixOf text

/-- The values that a scan of the entries finds: those of a shorter key first, and those of
    one key in the order of the entries. -/
def scan (entries : List (Text × α)) (text : Text) : List α :=
  (sortStable (fun a b => a.1.length < b.1.length) (starting entries text)).map Prod.snd

theorem mem_starting_iff {entries : List (Text × α)} {text : Text} {entry : Text × α} :
    entry ∈ starting entries text ↔ entry ∈ entries ∧ entry.1 <+: text := by
  rw [starting, List.mem_filter, List.isPrefixOf_iff_prefix]

theorem pairwise_inits (text : Text) :
    text.inits.Pairwise fun a b => a.length < b.length := by
  induction text with
  | nil => exact List.pairwise_singleton _ _
  | cons c text ih =>
    rw [List.inits_cons, List.pairwise_cons, List.pairwise_map]
    refine ⟨fun key hkey => ?_, ih.imp fun h => Nat.succ_lt_succ h⟩
    obtain ⟨rest, -, rfl⟩ := List.mem_map.mp hkey
    exact Nat.succ_pos _

/-- A search of a tree of entries is a scan of the entries. -/
theorem search_ofList_eq_scan (entries : List (Text × α)) (text : Text) :
    (ofList entries).search text = scan entries text := by
  -- the search collects the values key by key, from the shortest start of the text on
  have hgroup (key : Text) (hkey : key ∈ text.inits) :
      (starting entries text).filter (·.1 = key) = entries.filter (·.1 = key) := by
    rw [starting, List.filter_filter]
    refine List.filter_congr fun entry _ => ?_
    by_cases heq : entry.1 = key
    · simp [heq, (List.mem_inits key text).mp hkey]
    · simp [heq]
  have hkeys : ∀ entry ∈ starting entries text, entry.1 ∈ text.inits := fun entry hentry =>
    (List.mem_inits _ _).mpr (mem_starting_iff.mp hentry).2
  calc (ofList entries).search text
      = text.inits.flatMap fun key => (entries.filter (·.1 = key)).map Prod.snd := by
        rw [search_eq_flatMap]
        exact List.flatMap_congr fun key _ => valuesAt_ofList entries key
    _ = (text.inits.flatMap fun key => (starting entries text).filter (·.1 = key)).map Prod.snd := by
        rw [List.map_flatMap]
        exact List.flatMap_congr fun key hkey => by rw [hgroup key hkey]
    _ = scan entries text := by
        rw [scan, sortStable_eq_flatMap Prod.fst List.length (pairwise_inits text) hkeys]

/-- A search finds the entries whose keys the text starts with. -/
theorem search_ofList (entries : List (Text × α)) (text : Text) :
    ((ofList entries).search text).Perm
      ((entries.filter fun entry => entry.1.isPrefixOf text).map Prod.snd) := by
  rw [search_ofList_eq_scan]
  exact (sortStable_perm _ _).map _

/-! ## The longest key -/

/-- Without values under a longer key the best values so far are the answer. -/
theorem longestOr_of_none {tree : PrefixTree α} {text : Text}
    (hnone : ∀ c key, c :: key <+: text → tree.valuesAt (c :: key) = []) (best : List α) :
    tree.longestOr best text = best := by
  induction text generalizing tree best with
  | nil => cases tree; rfl
  | cons c text ih =>
    rw [longestOr]
    cases hchild : tree.child? c with
    | none => rfl
    | some child =>
      have hbelow (key : Text) (hkey : key <+: text) : child.valuesAt key = [] := by
        rw [← valuesAt_cons_of_some hchild]
        exact hnone c key ((List.prefix_cons_inj c).mpr hkey)
      have hvalues : child.values = [] := by
        rw [← valuesAt_nil]
        exact hbelow [] List.nil_prefix
      simp only [hvalues, List.isEmpty_nil, if_true]
      exact ih (fun d key hkey => hbelow (d :: key) hkey) best

/-- The values under the longest key that has some are the answer, whatever the best
    values so far are. -/
theorem longestOr_of_longest {tree : PrefixTree α} {text key : Text} {c : Char}
    (hstart : c :: key <+: text) (hvalues : tree.valuesAt (c :: key) ≠ [])
    (hlonger : ∀ other, other <+: text → (c :: key).length < other.length →
      tree.valuesAt other = []) (best : List α) :
    tree.longestOr best text = tree.valuesAt (c :: key) := by
  induction text generalizing tree c key best with
  | nil => exact absurd hstart (by simp)
  | cons d text ih =>
    obtain ⟨rfl, htail⟩ := List.cons_prefix_cons.mp hstart
    rw [longestOr]
    cases hchild : tree.child? c with
    | none => exact absurd (valuesAt_cons_of_none hchild key) hvalues
    | some child =>
      rw [valuesAt_cons_of_some hchild] at hvalues ⊢
      have hbelow (other : Text) (hother : other <+: text) (hlen : key.length < other.length) :
          child.valuesAt other = [] := by
        rw [← valuesAt_cons_of_some hchild]
        exact hlonger (c :: other) ((List.prefix_cons_inj c).mpr hother)
          (Nat.succ_lt_succ hlen)
      -- at the end of the key nothing below has values; before it, the best so far do not matter
      cases key with
      | nil =>
        rw [valuesAt_nil] at hvalues ⊢
        simp only [List.isEmpty_iff, hvalues, if_false]
        exact longestOr_of_none (fun e key hkey => hbelow (e :: key) hkey (Nat.succ_pos _)) _
      | cons e key => exact ih htail hvalues hbelow _

/-- The longest key that starts a text and has values gives the answer. -/
theorem longest_of_longest {tree : PrefixTree α} {text key : Text} (hstart : key <+: text)
    (hvalues : tree.valuesAt key ≠ [])
    (hlonger : ∀ other, other <+: text → key.length < other.length → tree.valuesAt other = []) :
    tree.longest text = tree.valuesAt key := by
  rw [longest]
  cases key with
  | nil =>
    rw [valuesAt_nil]
    exact longestOr_of_none (fun c key hkey => hlonger (c :: key) hkey (Nat.succ_pos _)) _
  | cons c key => exact longestOr_of_longest hstart hvalues hlonger _

/-- A text that starts with no key that has values has no answer. -/
theorem longest_of_none {tree : PrefixTree α} {text : Text}
    (hnone : ∀ key, key <+: text → tree.valuesAt key = []) : tree.longest text = [] := by
  rw [longest, longestOr_of_none fun c key hkey => hnone (c :: key) hkey, ← valuesAt_nil]
  exact hnone [] List.nil_prefix

/-- The values that a scan of the entries finds under the longest key that the text starts
    with, in the order of the entries. -/
def scanLongest (entries : List (Text × α)) (text : Text) : List α :=
  ((starting entries text).filter fun entry =>
    (starting entries text).all (·.1.length ≤ entry.1.length)).map Prod.snd

/-- Under a longest key are the entries that no other one exceeds. -/
theorem scanLongest_eq {entries : List (Text × α)} {text : Text} {longest : Text × α}
    (hmem : longest ∈ starting entries text)
    (hlongest : ∀ entry ∈ starting entries text, entry.1.length ≤ longest.1.length) :
    scanLongest entries text = (entries.filter (·.1 = longest.1)).map Prod.snd := by
  have hstart : longest.1 <+: text := (mem_starting_iff.mp hmem).2
  rw [scanLongest]
  congr 1
  conv => lhs; rw [starting, List.filter_filter]
  refine List.filter_congr fun entry hentry => ?_
  rw [Bool.eq_iff_iff, Bool.and_eq_true, List.all_eq_true, decide_eq_true_eq,
    List.isPrefixOf_iff_prefix]
  constructor
  · rintro ⟨hall, hprefix⟩
    have hle := hlongest entry (mem_starting_iff.mpr ⟨hentry, hprefix⟩)
    have hge : longest.1.length ≤ entry.1.length := of_decide_eq_true (hall longest hmem)
    exact (List.prefix_of_prefix_length_le hprefix hstart hle).eq_of_length
      (Nat.le_antisymm hle hge)
  · intro heq
    exact ⟨fun other hother => decide_eq_true (heq ▸ hlongest other hother), heq ▸ hstart⟩

theorem longest_ofList_eq_scan (entries : List (Text × α)) (text : Text) :
    (ofList entries).longest text = scanLongest entries text := by
  -- under a key that the text starts with are only entries that are found
  have hnone {key : Text} (hkey : key <+: text)
      (hfree : ∀ entry ∈ starting entries text, entry.1 ≠ key) :
      (ofList entries).valuesAt key = [] := by
    rw [valuesAt_ofList, List.map_eq_nil_iff, List.filter_eq_nil_iff]
    intro entry hentry heq
    obtain rfl : entry.1 = key := of_decide_eq_true heq
    exact hfree entry (mem_starting_iff.mpr ⟨hentry, hkey⟩) rfl
  cases hmax : (starting entries text).argmax fun entry => entry.1.length with
  | none =>
    have hempty : starting entries text = [] := List.argmax_eq_none.mp hmax
    rw [scanLongest, hempty, longest_of_none fun key hkey => hnone hkey (by simp [hempty])]
    rfl
  | some entry =>
    have hmem : entry ∈ starting entries text := List.argmax_mem hmax
    have hlongest : ∀ other ∈ starting entries text, other.1.length ≤ entry.1.length :=
      fun other hother => List.le_of_mem_argmax (f := fun entry => entry.1.length) hother hmax
    obtain ⟨hentry, hstart⟩ := mem_starting_iff.mp hmem
    have hvalues : (ofList entries).valuesAt entry.1 ≠ [] := by
      rw [valuesAt_ofList]
      exact List.ne_nil_of_mem (List.mem_map_of_mem (List.mem_filter.mpr ⟨hentry, by simp⟩))
    rw [scanLongest_eq hmem hlongest, ← valuesAt_ofList]
    refine longest_of_longest hstart hvalues fun other hother hlonger => hnone hother ?_
    rintro found hfound rfl
    exact absurd (hlongest found hfound) (Nat.not_le_of_gt hlonger)

/-- After any row of insertions a tree answers as a scan of the inserted entries does: a
    search finds the values of all keys that the text starts with, those of a shorter key
    first and those of one key as they were inserted, and the longest key gives its values,
    if there is one. -/
theorem ofList_eq_scan (entries : List (Text × α)) (text : Text) :
    (ofList entries).search text = scan entries text ∧
      (ofList entries).longest text = scanLongest entries text :=
  ⟨search_ofList_eq_scan entries text, longest_ofList_eq_scan entries text⟩

example : (ofList [("01", 1), ("0", 2), ("01", 3), ("011", 4)]).search "010" = [2, 1, 3] := by
  decide

end EpcTag.PrefixTree
