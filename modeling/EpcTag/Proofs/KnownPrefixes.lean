-- SUMMARY: The known company prefixes, in whatever order they were added, and the length of the longest one that starts some digits.
import EpcTag.Proofs.CompanyPrefix
import EpcTag.Proofs.PrefixTree

/-!
# Known company prefixes

A company prefix becomes known by itself or with its index. After any row of additions
the tree holds each known prefix under itself, so the length that is inferred for some
digits is that of the longest known prefix that starts them, and neither the order of
the additions nor their repetition matters.
-/

namespace EpcTag.CompanyPrefixTable

/-- A call that adds a company prefix to a table, by itself or with its index. -/
inductive Addition where
  | known (companyPrefix : Text)
  | indexed (index : Scalar) (companyPrefix : Text)

/-- The company prefix that an addition makes known. An index that is no integer adds
    nothing. -/
def Addition.added? : Addition → Option Text
  | .known companyPrefix => some companyPrefix
  | .indexed index companyPrefix => (entryOf? (index, companyPrefix)).map Prod.snd

/-- The table after an addition. One that fails leaves it as it is. -/
def afterAddition (table : CompanyPrefixTable) : Addition → CompanyPrefixTable
  | .known companyPrefix => table.addKnown companyPrefix
  | .indexed index companyPrefix => table.attempt (index, companyPrefix)

/-- The table after a row of additions. -/
def afterAdditions (additions : List Addition) : CompanyPrefixTable :=
  additions.foldl afterAddition {}

/-- The longest of some company prefixes that starts some digits. -/
structure Longest (prefixes : List Text) (digits companyPrefix : Text) : Prop where
  known : companyPrefix ∈ prefixes
  start : companyPrefix <+: digits
  longest : ∀ other ∈ prefixes, other <+: digits → other.length ≤ companyPrefix.length

/-- An addition puts its company prefix under itself. -/
theorem known_afterAddition (table : CompanyPrefixTable) (addition : Addition) :
    (table.afterAddition addition).known =
      addition.added?.toList.foldl (fun tree added => tree.insert added added) table.known := by
  cases addition with
  | known companyPrefix => rfl
  | indexed index companyPrefix =>
    cases hindex : normalIndex index with
    | error error =>
      rw [afterAddition, attempt_of_error hindex, Addition.added?, entryOf?, hindex]
      rfl
    | ok normal =>
      rw [afterAddition, attempt_of_ok hindex, Addition.added?, entryOf?, hindex]
      rfl

/-- The tree holds the company prefixes of all additions. -/
theorem known_afterAdditions (additions : List Addition) :
    (afterAdditions additions).known = PrefixTree.ofList
      ((additions.filterMap Addition.added?).map fun added => (added, added)) := by
  induction additions using List.reverseRecOn with
  | nil => rfl
  | append_singleton additions last ih =>
    have hsplit : afterAdditions (additions ++ [last]) =
        (afterAdditions additions).afterAddition last := by
      simp [afterAdditions]
    rw [hsplit, known_afterAddition, ih, List.filterMap_append, List.map_append]
    cases hlast : last.added? <;> simp [hlast, PrefixTree.ofList]

/-- The length that is inferred is that of the longest known company prefix. -/
theorem prefixLength?_afterAdditions {additions : List Addition} {digits companyPrefix : Text}
    (h : Longest (additions.filterMap Addition.added?) digits companyPrefix) :
    (afterAdditions additions).prefixLength? digits = some companyPrefix.length := by
  obtain ⟨hknown, hstart, hlongest⟩ := h
  rw [prefixLength?, known_afterAdditions, PrefixTree.longest_ofList_eq_scan]
  generalize additions.filterMap Addition.added? = prefixes at hknown hlongest ⊢
  have hmem : (companyPrefix, companyPrefix) ∈
      PrefixTree.starting (prefixes.map fun added => (added, added)) digits :=
    PrefixTree.mem_starting_iff.mpr ⟨List.mem_map_of_mem hknown, hstart⟩
  rw [PrefixTree.scanLongest_eq hmem fun entry hentry => ?_]
  · -- what is found are the company prefixes that are the longest one
    have hfound : ((prefixes.map fun added => (added, added)).filter
        (·.1 = companyPrefix)).map Prod.snd = prefixes.filter (· = companyPrefix) := by
      rw [List.filter_map, List.map_map]
      exact List.map_id _
    have hsome : (prefixes.find? (· = companyPrefix)).isSome = true :=
      List.find?_isSome.mpr ⟨companyPrefix, hknown, decide_eq_true rfl⟩
    obtain ⟨first, hfirst⟩ := Option.isSome_iff_exists.mp hsome
    obtain rfl : first = companyPrefix := by simpa using List.find?_some hfirst
    rw [hfound, List.head?_filter, hfirst]
    rfl
  · obtain ⟨hentry, hprefix⟩ := PrefixTree.mem_starting_iff.mp hentry
    obtain ⟨added, hadded, rfl⟩ := List.mem_map.mp hentry
    exact hlongest added hadded hprefix

end EpcTag.CompanyPrefixTable
