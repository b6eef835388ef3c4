-- SUMMARY: Texts separated by points, and what a dotted template reads from another one's text.
import EpcTag.Proofs.TagScheme

/-!
# Dotted texts

In a URI the fields are separated by points. Only the last field may have points
of its own, so whatever reads a URI finds the same fields before the last one.
-/

namespace EpcTag

/-! ## Texts -/

/-- Texts that are separated by points can be told apart, if only the last one has
    points. -/
theorem Text.exists_of_joinWith_eq {texts values : List Text} {ending : Text} (hne : texts ≠ [])
    (hlen : texts.length = values.length) (htexts : ∀ text ∈ texts.dropLast, '.' ∉ text)
    (hvalues : ∀ value ∈ values.dropLast, '.' ∉ value)
    (heq : joinWith ['.'] texts = joinWith ['.'] values ++ ending) :
    ∃ front last, texts = front ++ [last ++ ending] ∧ values = front ++ [last] := by
  induction texts generalizing values with
  | nil => exact absurd rfl hne
  | cons text texts ih =>
    cases values with
    | nil => simp at hlen
    | cons value values =>
      cases texts with
      | nil =>
        obtain rfl : values = [] := by simpa using hlen.symm
        exact ⟨[], value, congrArg ([·]) heq, rfl⟩
      | cons next texts =>
        cases values with
        | nil => simp at hlen
        | cons nextValue values =>
          -- neither of the first two is the last one, so both end at the first point
          have hdot : '.' ∉ text := htexts text (by simp)
          have hdot' : '.' ∉ value := hvalues value (by simp)
          have heq : text ++ '.' :: joinWith ['.'] (next :: texts) =
              value ++ '.' :: (joinWith ['.'] (nextValue :: values) ++ ending) := by
            simpa [joinWith] using heq
          obtain ⟨rfl, hrest⟩ := eq_of_append_mark hdot hdot' heq
          obtain ⟨front, last, htext, hvalue⟩ := ih (by simp) (by simpa using hlen)
            (fun other hother => htexts other (by simp [hother]))
            (fun other hother => hvalues other (by simp [hother])) hrest
          exact ⟨text :: front, last, by rw [htext]; rfl, by rw [hvalue]; rfl⟩

/-- What holds of all partners of the elements before the last one. -/
theorem forall_dropLast_of_forall₂ {α β : Type} {R : α → β → Prop} {P : β → Prop} {as : List α}
    {bs : List β} (h : List.Forall₂ R as bs) (hstep : ∀ a ∈ as.dropLast, ∀ b, R a b → P b) :
    ∀ b ∈ bs.dropLast, P b := by
  induction h with
  | nil => simp
  | @cons a b as bs hab hrest ih =>
    cases hrest with
    | nil => simp
    | @cons nextA nextB as bs hnext hrest =>
      intro other hother
      rcases List.mem_cons.mp hother with rfl | hother
      · exact hstep a (by simp) _ hab
      · exact ih (fun c hc => hstep c (List.mem_cons_of_mem _ hc)) other hother

/-! ## Slots and codings -/

namespace Slot

/-- The texts of the slot have no points. -/
def dotless : Slot → Bool
  | .one class_ | .exactly class_ _ | .between class_ _ _ => !class_.has '.'
  | .number => true

theorem not_mem_of_dotless {slot : Slot} {text : Text} (h : slot.dotless = true)
    (hfits : slot.Fits text) : '.' ∉ text := by
  intro hmem
  cases slot with
  | one class_ => simp [dotless, List.all_eq_true.mp hfits.2 _ hmem] at h
  | exactly class_ count => simp [dotless, List.all_eq_true.mp hfits.2 _ hmem] at h
  | between class_ least most => simp [dotless, List.all_eq_true.mp hfits.2 _ hmem] at h
  | number => exact absurd (List.all_eq_true.mp hfits.2 _ hmem) (by decide)

end Slot

/-- The texts that bits decode to have no points. -/
def Coding.dotless : Coding → Bool
  | .number _ _ => true
  | .packed form => !form.class_.has '.'

theorem Coding.not_mem_of_dotless {coding : Coding} {text : Text} (h : coding.dotless = true)
    (hdecodable : coding.Decodable text) : '.' ∉ text := by
  intro hmem
  cases coding with
  | number form width => exact absurd (digits_of_decodable hdecodable _ hmem) (by decide)
  | packed form =>
    rcases hdecodable with hadmits | ⟨-, rfl⟩
    · simp [dotless, List.all_eq_true.mp hadmits.2.1 _ hmem] at h
    · cases hmem

/-- Only the last text that bits decode to has points. -/
theorem Part.not_mem_of_decode {parts : List Part} {texts : List Text}
    (hparts : ∀ part ∈ parts.dropLast, part.coding.dotless = true)
    (hdecode : Part.Decode parts texts) : ∀ text ∈ texts.dropLast, '.' ∉ text :=
  forall_dropLast_of_forall₂ hdecode fun part hpart _ =>
    Coding.not_mem_of_dotless (hparts part hpart)

/-- Only the last text in a URI has points. -/
theorem Part.not_mem_of_fits {parts : List Part} {values : List Text}
    (hparts : ∀ part ∈ parts.dropLast, part.slot.dotless = true)
    (hfits : List.Forall₂ Slot.Fits (parts.map Part.slot) values) :
    ∀ value ∈ values.dropLast, '.' ∉ value :=
  forall_dropLast_of_forall₂ (List.forall₂_map_left_iff.mp hfits) fun part hpart _ =>
    Slot.not_mem_of_dotless (hparts part hpart)

/-! ## Templates -/

namespace Template

theorem slots_dotted (parts : List Part) : (dotted parts).slots = parts.map Part.slot := by
  induction parts with
  | nil => rfl
  | cons part parts ih =>
    cases parts with
    | nil => rfl
    | cons next parts => exact congrArg (part.slot :: ·) ih

theorem text_dotted {parts : List Part} {texts : List Text} (hlen : parts.length = texts.length) :
    (dotted parts).text texts = Text.joinWith ['.'] texts := by
  induction parts generalizing texts with
  | nil =>
    obtain rfl : texts = [] := List.length_eq_zero_iff.mp hlen.symm
    rfl
  | cons part parts ih =>
    cases texts with
    | nil => simp at hlen
    | cons text texts =>
      have hlen : parts.length = texts.length := by simpa using hlen
      cases parts with
      | nil =>
        obtain rfl : texts = [] := List.length_eq_zero_iff.mp hlen.symm
        simp [dotted, Text.joinWith]
      | cons next parts =>
        cases texts with
        | nil => simp at hlen
        | cons nextText texts =>
          change text ++ (['.'] ++ (dotted (next :: parts)).text (nextText :: texts)) =
            text ++ ['.'] ++ Text.joinWith ['.'] (nextText :: texts)
          rw [ih hlen, List.append_assoc]

/-- What a dotted template reads from the text of another one with the same start are
    the same texts, but for a line end behind the last one. -/
theorem exists_of_read?_dotted {start : Text} {parts others : List Part}
    {texts values : List Text} (hne : texts ≠ []) (hlen : parts.length = texts.length)
    (hsame : others.length = texts.length)
    (hsep : separated (.literal start :: dotted others) = true)
    (htexts : ∀ text ∈ texts.dropLast, '.' ∉ text)
    (hslots : ∀ part ∈ others.dropLast, part.slot.dotless = true)
    (hread : read? (.literal start :: dotted others)
      (text (.literal start :: dotted parts) texts) = some values) :
    List.Forall₂ Slot.Fits (others.map Part.slot) values ∧
      ∃ front last ending, (ending = [] ∨ ending = ['\n']) ∧
        texts = front ++ [last ++ ending] ∧ values = front ++ [last] := by
  obtain ⟨hfits, ending, hending, htext⟩ := (read?_eq_some_iff hsep).mp hread
  change List.Forall₂ Slot.Fits (dotted others).slots values at hfits
  rw [slots_dotted] at hfits
  have hvalues : others.length = values.length := by
    simpa using hfits.length_eq
  rw [text_literal, text_literal, List.append_assoc, List.append_cancel_left_eq,
    text_dotted hlen, text_dotted hvalues] at htext
  obtain ⟨front, last, hfront, hlast⟩ := Text.exists_of_joinWith_eq hne (by omega) htexts
    (Part.not_mem_of_fits hslots hfits) htext
  exact ⟨hfits, front, last, ending, hending, hfront, hlast⟩

end Template

end EpcTag
