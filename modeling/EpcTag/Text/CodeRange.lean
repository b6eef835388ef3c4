-- SUMMARY: Sets of characters given as ascending ranges of code points.

/-!
# Code ranges

A Unicode property is held as the ascending list of the ranges of code points
that have it. Looking a character up walks the list and stops at the first
range that lies above it.
-/

namespace EpcTag

/-- Ranges of code points, both ends included, in ascending order. -/
abbrev CodeRanges := List (Nat × Nat)

/-- Is `code` in one of the ranges? -/
def CodeRanges.has : CodeRanges → Nat → Bool
  | [], _ => false
  | (low, high) :: rest, code =>
    if code < low then false
    else if code ≤ high then true
    else CodeRanges.has rest code

@[simp] theorem CodeRanges.has_nil (code : Nat) : CodeRanges.has [] code = false := rfl

/-- A character that a list of ranges has lies in one of its ranges. -/
theorem CodeRanges.exists_of_has {ranges : CodeRanges} {code : Nat} (h : ranges.has code = true) :
    ∃ r ∈ ranges, r.1 ≤ code ∧ code ≤ r.2 := by
  induction ranges with
  | nil => simp at h
  | cons r rest ih =>
    obtain ⟨low, high⟩ := r
    simp only [CodeRanges.has] at h
    split at h
    · simp at h
    · split at h
      · exact ⟨(low, high), by simp, by simp; omega⟩
      · obtain ⟨r, hr, hc⟩ := ih h
        exact ⟨r, by simp [hr], hc⟩

end EpcTag
