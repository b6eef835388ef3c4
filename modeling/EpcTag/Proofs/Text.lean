-- SUMMARY: Cuts of texts: slices at natural places, splits at marks, and trims that remove nothing.
import EpcTag.Text.Basic
import Mathlib.Data.List.TakeWhile
import Mathlib.Tactic

/-!
# Cuts of texts

A slice whose places are not negative is a `take` and a `drop`, a text without
a mark is its own single part, and a text whose ends are not trimmed stays as
it is.
-/

namespace EpcTag.Text

/-! ## Slices -/

@[simp] theorem place_natCast (length index : Nat) : place length (index : Int) = min index length := by
  simp [place]

theorem sliceFrom_natCast (text : Text) (start : Nat) :
    sliceFrom text (start : Int) = text.drop start := by
  rw [sliceFrom, place_natCast]
  by_cases h : start ≤ text.length
  · rw [Nat.min_eq_left h]
  · rw [Nat.min_eq_right (by omega), List.drop_length, List.drop_of_length_le (by omega)]

theorem slice_natCast (text : Text) (start count : Nat) :
    slice text (start : Int) ((start : Int) + (count : Int)) = (text.drop start).take count := by
  rw [slice, ← Int.natCast_add, place_natCast, place_natCast, List.take_drop]
  by_cases h : start ≤ text.length
  · rw [Nat.min_eq_left h]
    by_cases h' : start + count ≤ text.length
    · rw [Nat.min_eq_left h']
    · rw [Nat.min_eq_right (by omega), List.take_length, List.take_of_length_le (by omega)]
  · rw [Nat.min_eq_right (by omega), Nat.min_eq_right (by omega), List.take_length,
      List.drop_length, List.take_of_length_le (by omega), List.drop_of_length_le (by omega)]

/-! ## Marks -/

theorem splitAll_of_not_mem {mark : Char} {text : Text} (h : mark ∉ text) :
    splitAll mark text = [text] := by
  induction text with
  | nil => rfl
  | cons c text ih =>
    simp only [List.mem_cons, not_or] at h
    rw [splitAll, if_neg (Ne.symm h.1), ih h.2]

theorem splitAll_append {mark : Char} {before : Text} (h : mark ∉ before) (after : Text) :
    splitAll mark (before ++ mark :: after) = before :: splitAll mark after := by
  induction before with
  | nil => simp [splitAll]
  | cons c before ih =>
    simp only [List.mem_cons, not_or] at h
    rw [List.cons_append, splitAll, if_neg (Ne.symm h.1), ih h.2]

theorem splitFirst_of_not_mem {mark : Char} {text : Text} (h : mark ∉ text) :
    splitFirst mark text = none := by
  induction text with
  | nil => rfl
  | cons c text ih =>
    simp only [List.mem_cons, not_or] at h
    rw [splitFirst, if_neg (Ne.symm h.1), ih h.2]
    rfl

theorem splitFirst_append {mark : Char} {before : Text} (h : mark ∉ before) (after : Text) :
    splitFirst mark (before ++ mark :: after) = some (before, after) := by
  induction before with
  | nil => simp [splitFirst]
  | cons c before ih =>
    simp only [List.mem_cons, not_or] at h
    rw [List.cons_append, splitFirst, if_neg (Ne.symm h.1), ih h.2]
    rfl

/-- A text is cut at its first mark in one way only. -/
theorem eq_of_append_mark {mark : Char} {before before' after after' : Text} (h : mark ∉ before)
    (h' : mark ∉ before') (heq : before ++ mark :: after = before' ++ mark :: after') :
    before = before' ∧ after = after' := by
  have hsplit := congrArg (splitFirst mark) heq
  rw [splitFirst_append h, splitFirst_append h'] at hsplit
  exact Prod.mk.inj (Option.some.inj hsplit)

/-- No part between marks has a mark. -/
theorem not_mem_of_mem_splitAll {mark : Char} {text part : Text} (h : part ∈ splitAll mark text) :
    mark ∉ part := by
  induction text generalizing part with
  | nil =>
    obtain rfl : part = [] := by simpa [splitAll] using h
    simp
  | cons c text ih =>
    rw [splitAll] at h
    split at h
    · rcases List.mem_cons.mp h with rfl | h
      · simp
      · exact ih h
    · next hc =>
      split at h
      · obtain rfl : part = [c] := by simpa using h
        simpa using Ne.symm hc
      · next first parts hparts =>
        rcases List.mem_cons.mp h with rfl | h
        · have hfirst := @ih first (by simp [hparts])
          simp [hfirst, Ne.symm hc]
        · exact ih (by simp [hparts, h])

/-- A text is a part without a mark, or such a part, a mark and a text. -/
theorem induct_marks (mark : Char) {P : Text → Prop} (single : ∀ part, mark ∉ part → P part)
    (more : ∀ part rest, mark ∉ part → P rest → P (part ++ mark :: rest)) (text : Text) :
    P text := by
  induction hlength : text.length using Nat.strong_induction_on generalizing text with
  | _ length ih =>
    by_cases hmark : mark ∈ text
    · obtain ⟨part, rest, rfl, hpart⟩ := List.eq_append_cons_of_mem hmark
      refine more part rest hpart (ih rest.length ?_ rest rfl)
      rw [← hlength, List.length_append, List.length_cons]
      omega
    · exact single text hmark

/-- A text starts with its first part, and the mark and the other parts follow. -/
theorem splitAll_eq_cons_iff {mark : Char} {text part : Text} {parts : List Text} :
    splitAll mark text = part :: parts ↔
      mark ∉ part ∧ (parts = [] ∧ text = part ∨
        ∃ rest, splitAll mark rest = parts ∧ text = part ++ mark :: rest) := by
  constructor
  · intro h
    have hpart : mark ∉ part := not_mem_of_mem_splitAll (h ▸ List.mem_cons_self)
    refine ⟨hpart, ?_⟩
    by_cases hmem : mark ∈ text
    · obtain ⟨first, rest, rfl, hfirst⟩ := List.eq_append_cons_of_mem hmem
      rw [splitAll_append hfirst] at h
      obtain ⟨rfl, rfl⟩ := List.cons.inj h
      exact .inr ⟨rest, rfl, rfl⟩
    · rw [splitAll_of_not_mem hmem] at h
      obtain ⟨rfl, rfl⟩ := List.cons.inj h
      exact .inl ⟨rfl, rfl⟩
  · rintro ⟨hpart, ⟨rfl, rfl⟩ | ⟨rest, rfl, rfl⟩⟩
    · exact splitAll_of_not_mem hpart
    · exact splitAll_append hpart rest

theorem splitFirst_eq_some {mark : Char} {text before after : Text}
    (h : splitFirst mark text = some (before, after)) : text = before ++ mark :: after := by
  induction text generalizing before with
  | nil => cases h
  | cons c text ih =>
    rw [splitFirst] at h
    split at h
    · next hc =>
      cases h
      rw [hc]
      rfl
    · obtain ⟨⟨first, rest⟩, hsplit, heq⟩ := Option.map_eq_some_iff.mp h
      cases heq
      rw [ih hsplit]
      rfl

theorem afterLast_of_not_mem {mark : Char} {text : Text} (h : mark ∉ text) :
    afterLast mark text = text := by
  have htake : text.reverse.takeWhile (· ≠ mark) = text.reverse := by
    refine List.takeWhile_eq_self_iff.mpr fun c hc => ?_
    simpa using fun heq : c = mark => h (heq ▸ List.mem_reverse.mp hc)
  rw [afterLast, htake, List.reverse_reverse]

theorem afterLast_append (mark : Char) (before after : Text) :
    afterLast mark (before ++ mark :: after) = afterLast mark after := by
  have hsplit : (before ++ mark :: after).reverse =
      after.reverse ++ mark :: before.reverse := by simp
  rw [afterLast, afterLast, hsplit, List.takeWhile_append]
  split
  · next hall =>
    rw [(List.takeWhile_prefix _).eq_of_length hall]
    simp
  · rfl

/-- A text ends with what comes after its last mark. -/
theorem exists_afterLast {mark : Char} {text : Text} (h : mark ∈ text) :
    ∃ before, text = before ++ mark :: afterLast mark text ∧ mark ∉ afterLast mark text := by
  obtain ⟨after, before, hsplit, hafter⟩ := List.eq_append_cons_of_mem (List.mem_reverse.mpr h)
  have htext : text = before.reverse ++ mark :: after.reverse := by
    have hreverse := congrArg List.reverse hsplit
    rw [List.reverse_reverse] at hreverse
    rw [hreverse]
    simp
  have hlast : afterLast mark text = after.reverse := by
    rw [htext, afterLast_append, afterLast_of_not_mem (by simpa using hafter)]
  rw [hlast]
  exact ⟨before.reverse, htext, by simpa using hafter⟩

theorem zeroFill_of_le {width : Nat} {text : Text} (hne : text ≠ []) (h : width ≤ text.length) :
    zeroFill width text = text := by
  cases text with
  | nil => exact absurd rfl hne
  | cons c rest =>
    have hzeros : width - (c :: rest).length = 0 := by omega
    simp only [zeroFill, hzeros, List.replicate_zero, List.nil_append, ite_self]

/-! ## Trims -/

theorem dropWhile_eq_self {p : Char → Bool} {text : Text} (h : ∀ c ∈ text, p c = false) :
    text.dropWhile p = text := by
  cases text with
  | nil => rfl
  | cons c text => simp [h c (by simp)]

theorem trimBy_eq_self {p : Char → Bool} {text : Text} (h : ∀ c ∈ text, p c = false) :
    trimBy p text = text := by
  rw [trimBy, dropWhile_eq_self h, dropWhileEnd, dropWhile_eq_self (by simpa using h),
    List.reverse_reverse]

end EpcTag.Text
