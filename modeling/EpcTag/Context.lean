-- SUMMARY: Pairs of names and values, and the context of a conversion.
import EpcTag.Scalar

/-!
# Pairs

A list of pairs holds one value for each of the names it has. Giving a name a
value replaces the value it had and keeps the names in the order in which they
first came. The context of a conversion is such a list: it holds the fields of
the input, the parameters and what the rules derive from them. Names and values
of a context are scalars, because a definition may name a derived field by any
scalar and a table may answer with any; only names that are texts are ever asked
for by a pattern, a grammar or a parameter.
-/

namespace EpcTag

/-- Names with their values, no name twice. -/
abbrev Pairs (κ α : Type) := List (κ × α)

namespace Pairs

variable {κ α : Type} [DecidableEq κ]

/-- The value of a name. -/
def get? (pairs : Pairs κ α) (name : κ) : Option α := pairs.lookup name

/-- The pairs in which `name` has `value` and all other names are as before. -/
def insert (pairs : Pairs κ α) (name : κ) (value : α) : Pairs κ α :=
  match pairs with
  | [] => [(name, value)]
  | (key, old) :: rest =>
    if key = name then (key, value) :: rest else (key, old) :: insert rest name value

/-- The pairs in which the names of `values` have the values given there; of two
    values for one name the later counts. -/
def insertAll (pairs : Pairs κ α) (values : List (κ × α)) : Pairs κ α :=
  values.foldl (fun pairs (name, value) => pairs.insert name value) pairs

@[simp] theorem get?_nil (name : κ) : get? ([] : Pairs κ α) name = none := rfl

theorem get?_cons (key name : κ) (value : α) (rest : Pairs κ α) :
    get? ((key, value) :: rest) name = if name = key then some value else get? rest name := by
  simp only [get?, List.lookup_cons]
  by_cases h : name = key
  · simp [h]
  · have : (name == key) = false := by simpa using h
    simp [h, this]

@[simp] theorem get?_insert_self (pairs : Pairs κ α) (name : κ) (value : α) :
    (pairs.insert name value).get? name = some value := by
  induction pairs with
  | nil => simp [insert, get?_cons]
  | cons entry rest ih =>
    obtain ⟨key, old⟩ := entry
    simp only [insert]
    split
    · next h => simp [get?_cons, h]
    · next h => simp [get?_cons, ih, Ne.symm h]

theorem get?_insert_of_ne {pairs : Pairs κ α} {name other : κ} (value : α)
    (h : other ≠ name) : (pairs.insert name value).get? other = pairs.get? other := by
  induction pairs with
  | nil => simp [insert, get?_cons, h]
  | cons entry rest ih =>
    obtain ⟨key, old⟩ := entry
    simp only [insert]
    split
    · next hk => simp [get?_cons, hk, h]
    · next hk => simp [get?_cons, ih]

theorem insertAll_append (pairs : Pairs κ α) (earlier later : List (κ × α)) :
    pairs.insertAll (earlier ++ later) = (pairs.insertAll earlier).insertAll later :=
  List.foldl_append

theorem get?_insertAll_of_not_mem {values : List (κ × α)} {name : κ}
    (h : name ∉ values.map Prod.fst) (pairs : Pairs κ α) :
    (pairs.insertAll values).get? name = pairs.get? name := by
  induction values generalizing pairs with
  | nil => rfl
  | cons entry values ih =>
    obtain ⟨key, value⟩ := entry
    rw [List.map_cons, List.mem_cons, not_or] at h
    exact (ih h.2 _).trans (get?_insert_of_ne value h.1)

end Pairs

/-- The named values of a conversion. -/
abbrev Context := Pairs Scalar Scalar

namespace Context

/-- The context in which names have texts. -/
def ofTexts (pairs : Pairs Text Text) : Context :=
  pairs.map fun (name, value) => (.text name, .text value)

/-- The value of a field. -/
def field? (context : Context) (name : Text) : Option Scalar := context.get? (.text name)

end Context

end EpcTag
