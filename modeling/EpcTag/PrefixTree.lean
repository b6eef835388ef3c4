-- SUMMARY: Trees that find all registered beginnings of a text.
import EpcTag.Text.Basic

/-!
# Prefix trees

A prefix tree keeps values under keys. Searching a text finds the values of
every key that the text starts with, shorter keys first, and the values of one
key in the order in which they were inserted. `entries` lists what a tree holds.
-/

namespace EpcTag

/-- The values under the empty key, and a tree for each first character of the
    other keys. -/
inductive PrefixTree (α : Type) where
  | node (values : List α) (children : List (Char × PrefixTree α))

namespace PrefixTree

variable {α : Type}

/-- The tree without values. -/
def empty : PrefixTree α := .node [] []

instance : Inhabited (PrefixTree α) := ⟨empty⟩

/-- The values under the empty key. -/
def values : PrefixTree α → List α
  | .node values _ => values

/-- The tree of the keys that start with a character. -/
def child? : PrefixTree α → Char → Option (PrefixTree α)
  | .node _ children, c => children.lookup c

/-- The list in which the tree of a character is changed; a character without a
    tree gets one that was empty before. -/
def updateChild (c : Char) (change : PrefixTree α → PrefixTree α) :
    List (Char × PrefixTree α) → List (Char × PrefixTree α)
  | [] => [(c, change empty)]
  | (d, child) :: rest =>
    if d = c then (d, change child) :: rest else (d, child) :: updateChild c change rest

/-- The tree that also holds a value under a key. -/
def insert : Text → α → PrefixTree α → PrefixTree α
  | [], value, .node values children => .node (values ++ [value]) children
  | c :: key, value, .node values children =>
    .node values (updateChild c (insert key value) children)

/-- The values of every key that the text starts with. -/
def search : PrefixTree α → Text → List α
  | tree, [] => tree.values
  | tree, c :: text =>
    tree.values ++ match tree.child? c with
      | some child => child.search text
      | none => []

/-- The values of the longest key that the text starts with; the values of the
    empty key are the answer unless a longer key has some. -/
def longestOr (best : List α) : PrefixTree α → Text → List α
  | _, [] => best
  | tree, c :: text =>
    match tree.child? c with
    | some child => child.longestOr (if child.values.isEmpty then best else child.values) text
    | none => best

/-- The values of the longest key that the text starts with. -/
def longest (tree : PrefixTree α) (text : Text) : List α := tree.longestOr tree.values text

/-- The tree of the given keys and values, inserted in their order. -/
def ofList (entries : List (Text × α)) : PrefixTree α :=
  entries.foldl (fun tree (key, value) => tree.insert key value) empty

@[simp] theorem values_node (values : List α) (children : List (Char × PrefixTree α)) :
    (node values children).values = values := rfl

@[simp] theorem search_nil (tree : PrefixTree α) : tree.search [] = tree.values := by
  cases tree; rfl

@[simp] theorem search_empty (text : Text) : (empty : PrefixTree α).search text = [] := by
  cases text <;> rfl

theorem lookup_updateChild (c d : Char) (change : PrefixTree α → PrefixTree α)
    (children : List (Char × PrefixTree α)) :
    (updateChild c change children).lookup d =
      if d = c then some (change ((children.lookup c).getD empty)) else children.lookup d := by
  induction children with
  | nil =>
    by_cases h : d = c
    · simp [updateChild, h]
    · have : (d == c) = false := by simpa using h
      simp [updateChild, List.lookup_cons, h, this]
  | cons entry rest ih =>
    obtain ⟨e, child⟩ := entry
    simp only [updateChild]
    by_cases hec : e = c
    · subst hec
      by_cases h : d = e
      · simp [h]
      · have : (d == e) = false := by simpa using h
        simp [List.lookup_cons, h, this]
    · rw [if_neg hec]
      have hce : (c == e) = false := by simpa using Ne.symm hec
      by_cases hde : d = e
      · subst hde
        simp [hec]
      · have : (d == e) = false := by simpa using hde
        simp [List.lookup_cons, this, hce, ih]

end PrefixTree

end EpcTag
