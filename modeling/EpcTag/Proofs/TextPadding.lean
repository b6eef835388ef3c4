-- SUMMARY: Padding with one character, and how padding and stripping undo each other.
import EpcTag.Padding
import EpcTag.Proofs.Blanks

/-!
# Text padding

Read from its edge inwards, a padded text is a run of the pad character and then the text
itself. Stripping takes off such a run, so it gives the text back if that does not begin with
the pad character. The other way round it is enough to know how long the text was: what
stripping takes off is a run of one character, and a text that is nothing else keeps one of
them, so filling up to the old length puts back as many as were taken off.
-/

namespace EpcTag

namespace Edge

/-- The characters of a text, from an edge inwards. -/
def inward : Edge → Text → Text
  | .left, text => text
  | .right, text => text.reverse

theorem inward_injective (edge : Edge) : Function.Injective edge.inward := by
  cases edge with
  | left => exact Function.injective_id
  | right => exact List.reverse_injective

@[simp] theorem length_inward (edge : Edge) (text : Text) :
    (edge.inward text).length = text.length := by
  cases edge with
  | left => rfl
  | right => exact List.length_reverse

@[simp] theorem mem_inward {edge : Edge} {text : Text} {c : Char} :
    c ∈ edge.inward text ↔ c ∈ text := by
  cases edge with
  | left => rfl
  | right => exact List.mem_reverse

@[simp] theorem inward_nil (edge : Edge) : edge.inward [] = [] := by
  cases edge <;> rfl

@[simp] theorem inward_singleton (edge : Edge) (c : Char) : edge.inward [c] = [c] := by
  cases edge <;> rfl

end Edge

namespace Padding

variable {edge : Edge} {c : Char} {text : Text}

theorem contains_singleton (c : Char) : [c].contains = (· == c) := by
  funext d
  rw [Bool.eq_iff_iff]
  simp

/-- From its edge inwards, a padded text is a run of the pad character before the text. -/
theorem inward_pad (edge : Edge) (c : Char) (text : Text) (length : Int) :
    edge.inward (pad text (some edge) (some [c]) (some length)) =
      List.replicate (length - text.length).toNat c ++ edge.inward text := by
  cases edge with
  | left => simp only [pad, Text.join, Edge.inward, List.flatten_replicate_singleton]
  | right =>
    simp only [pad, Text.join, Edge.inward, List.flatten_replicate_singleton, List.reverse_append,
      List.reverse_replicate]

/-- One pad character stays of a text that has no others. -/
theorem strip_of_eq (hne : text ≠ []) (h : ∀ d ∈ text, d = c) :
    strip text (some edge) (some [c]) = [c] :=
  if_pos ⟨hne, by simpa using h⟩

/-- From its edge inwards, a text with other characters is stripped up to the first of them. -/
theorem inward_strip (h : ∃ d ∈ text, d ≠ c) :
    edge.inward (strip text (some edge) (some [c])) = (edge.inward text).dropWhile (· == c) := by
  have hother : ¬(text ≠ [] ∧ text.all [c].contains = true) := by
    rintro ⟨-, hall⟩
    obtain ⟨d, hd, hne⟩ := h
    exact hne (by simpa using List.all_eq_true.mp hall d hd)
  cases edge with
  | left =>
    rw [strip, if_neg hother, contains_singleton]
    rfl
  | right =>
    rw [strip, if_neg hother, contains_singleton]
    exact List.reverse_reverse _

/-- A text is what stripping leaves of it, behind as many pad characters as were taken off. -/
theorem inward_eq_replicate_append (edge : Edge) (c : Char) (text : Text) :
    edge.inward text =
      List.replicate (text.length - (strip text (some edge) (some [c])).length) c ++
        edge.inward (strip text (some edge) (some [c])) := by
  by_cases hother : ∃ d ∈ text, d ≠ c
  · have hrun : (edge.inward text).takeWhile (· == c) =
        List.replicate ((edge.inward text).takeWhile (· == c)).length c :=
      List.eq_replicate_iff.mpr ⟨rfl, fun d hd => by simpa using List.mem_takeWhile_imp hd⟩
    have hsplit : (edge.inward text).takeWhile (· == c) ++
        edge.inward (strip text (some edge) (some [c])) = edge.inward text := by
      rw [inward_strip hother]
      exact List.takeWhile_append_dropWhile
    have hlength := congrArg List.length hsplit
    rw [List.length_append, Edge.length_inward, Edge.length_inward] at hlength
    rw [← hlength, Nat.add_sub_cancel, ← hrun, hsplit]
  · -- stripping leaves one character of a text that is nothing but pad characters
    have hpads : ∀ d ∈ text, d = c := by simpa using hother
    cases text with
    | nil => cases edge <;> rfl
    | cons d rest =>
      have hsome : d :: rest ≠ [] := List.cons_ne_nil d rest
      rw [strip_of_eq hsome hpads, Edge.inward_singleton, List.length_singleton,
        List.length_cons, Nat.add_sub_cancel, ← List.replicate_succ']
      exact List.eq_replicate_iff.mpr ⟨by simp, fun e he => hpads e (Edge.mem_inward.mp he)⟩

/-! ## There and back -/

/-- Padding fills a text up to the length asked for, and cuts nothing off. -/
theorem length_pad (edge : Edge) (c : Char) (text : Text) (length : Int) :
    ((pad text (some edge) (some [c]) (some length)).length : Int) =
      max (text.length : Int) length := by
  rw [← Edge.length_inward edge, inward_pad, List.length_append, List.length_replicate,
    Edge.length_inward]
  omega

/-- Stripping takes off what padding put in front of a text that does not begin with the pad
    character. -/
theorem strip_pad (hne : text ≠ []) (hstart : (edge.inward text).head? ≠ some c)
    (length : Int) :
    strip (pad text (some edge) (some [c]) (some length)) (some edge) (some [c]) = text := by
  have hsome : edge.inward text ≠ [] := fun hnil =>
    hne (edge.inward_injective (hnil.trans (Edge.inward_nil edge).symm))
  obtain ⟨d, rest, htext⟩ := List.exists_cons_of_ne_nil hsome
  have hd : d ≠ c := fun heq => hstart (by rw [htext, heq, List.head?_cons])
  have hmem : d ∈ pad text (some edge) (some [c]) (some length) := by
    rw [← Edge.mem_inward, inward_pad, htext]
    simp
  apply edge.inward_injective
  rw [inward_strip ⟨d, hmem, hd⟩, inward_pad, htext]
  refine Text.dropWhile_append_of_stop (fun e he => ?_) fun e he => ?_
  · simpa using List.eq_of_mem_replicate he
  · obtain rfl : d = e := by simpa using he
    simpa using hd

/-- Padding puts back what stripping took off. -/
theorem pad_strip (edge : Edge) (c : Char) (text : Text) :
    pad (strip text (some edge) (some [c])) (some edge) (some [c]) (some text.length) = text := by
  apply edge.inward_injective
  rw [inward_pad, Int.toNat_sub, ← inward_eq_replicate_append]

/-- What is left of a text begins with the pad character only if it is nothing else. -/
theorem strip_eq_of_head? (h : (edge.inward (strip text (some edge) (some [c]))).head? = some c) :
    strip text (some edge) (some [c]) = [c] := by
  by_cases hother : ∃ d ∈ text, d ≠ c
  · rw [inward_strip hother] at h
    have hstop := List.head?_dropWhile_not (· == c) (edge.inward text)
    rw [h] at hstop
    simp at hstop
  · have hpads : ∀ d ∈ text, d = c := by simpa using hother
    refine strip_of_eq ?_ hpads
    -- of the empty text nothing is left that could begin with the pad character
    rintro rfl
    cases edge <;> cases h

/-- A text that does not begin with the pad character, read from the edge, comes back from any
    padding of it, and every text comes back from what stripping leaves of it. -/
theorem strip_pad_pad_strip (edge : Edge) (c : Char) :
    (∀ (text : Text) (length : Int), text ≠ [] → (edge.inward text).head? ≠ some c →
        strip (pad text (some edge) (some [c]) (some length)) (some edge) (some [c]) = text ∧
          ((pad text (some edge) (some [c]) (some length)).length : Int) =
            max (text.length : Int) length) ∧
      ∀ text : Text,
        pad (strip text (some edge) (some [c])) (some edge) (some [c]) (some text.length) = text ∧
          ((edge.inward (strip text (some edge) (some [c]))).head? = some c →
            strip text (some edge) (some [c]) = [c]) :=
  ⟨fun text length hne hstart => ⟨strip_pad hne hstart length, length_pad edge c text length⟩,
    fun text => ⟨pad_strip edge c text, strip_eq_of_head?⟩⟩

/-- A text that begins with the pad character ends with another one, and a text of pads. -/
theorem strip_pad_pad_strip_zeros :
    strip (pad "007" (some .right) (some ['0']) (some 5)) (some .right) (some ['0']) =
        "007".toList ∧
      pad (strip "000" (some .right) (some ['0'])) (some .right) (some ['0']) (some 3) =
        "000".toList :=
  ⟨((strip_pad_pad_strip .right '0').1 "007" 5 (by decide) (by decide)).1,
    ((strip_pad_pad_strip .right '0').2 "000").1⟩

end Padding

end EpcTag
