-- SUMMARY: Unescaping undoes escaping, and a template of plain literals is escaped field by field.
import EpcTag.UriEscape
import EpcTag.Proofs.Template

/-!
# Escapes and templates

Unescaping an escaped text gives the text back, whatever follows it. The fields
of a URI are escaped one by one, but as its literals hold no reserved character,
that is the same as to escape the whole URI.
-/

namespace EpcTag

namespace UriEscape

/-- The codes of the reserved characters stand for them. -/
theorem escapeChar_cases (c : Char) :
    (∃ high low, escapeChar c = ['%', high, low] ∧ decode? high low = some c) ∨
      (escapeChar c = [c] ∧ c ≠ '%') := by
  rw [escapeChar]
  cases h : reserved.lookup c with
  | none =>
    refine .inr ⟨rfl, ?_⟩
    rintro rfl
    exact absurd h (by decide)
  | some code =>
    left
    have hmem : (c, code) ∈ reserved := by
      obtain ⟨before, after, hsplit, -⟩ := List.lookup_eq_some_iff.mp h
      rw [hsplit]
      simp
    have hall : ∀ entry ∈ reserved, ∃ high low, entry.2 = [high, low] ∧
        decode? high low = some entry.1 := by
      intro entry hentry
      simp only [reserved, List.mem_cons, List.not_mem_nil, or_false] at hentry
      rcases hentry with rfl | rfl | rfl | rfl | rfl | rfl | rfl | rfl <;>
        exact ⟨_, _, rfl, by decide⟩
    obtain ⟨high, low, hcode, hdecode⟩ := hall _ hmem
    exact ⟨high, low, congrArg (List.cons '%') hcode, hdecode⟩

theorem unescape_cons {c : Char} (h : c ≠ '%') (rest : Text) :
    unescape (c :: rest) = c :: unescape rest := by
  rw [unescape]
  rintro high low rest' hc
  exact absurd hc h

/-- A text without percent signs is unescaped to itself, whatever follows it. -/
theorem unescape_append_of_not_mem {text : Text} (h : '%' ∉ text) (rest : Text) :
    unescape (text ++ rest) = text ++ unescape rest := by
  induction text with
  | nil => rfl
  | cons c text ih =>
    rw [List.mem_cons, not_or] at h
    rw [List.cons_append, unescape_cons (Ne.symm h.1), ih h.2]
    rfl

/-- An escaped text is unescaped to itself, whatever follows it. -/
theorem unescape_escape_append (text rest : Text) :
    unescape (escape text ++ rest) = text ++ unescape rest := by
  induction text with
  | nil => rfl
  | cons c text ih =>
    rw [escape_cons, List.append_assoc]
    rcases escapeChar_cases c with ⟨high, low, hescape, hdecode⟩ | ⟨hescape, hne⟩
    · rw [hescape]
      change unescape ('%' :: high :: low :: (escape text ++ rest)) = _
      rw [unescape, hdecode]
      exact congrArg (List.cons c) ih
    · rw [hescape]
      change unescape (c :: (escape text ++ rest)) = _
      rw [unescape_cons hne, ih]
      rfl

theorem unescape_escape (text : Text) : unescape (escape text) = text := by
  simpa [unescape] using unescape_escape_append text []

/-- A text without reserved characters. -/
def Plain (text : Text) : Prop := ∀ c ∈ text, reserved.lookup c = none

instance (text : Text) : Decidable (Plain text) := List.decidableBAll _ text

theorem escape_of_plain {text : Text} (h : Plain text) : escape text = text := by
  induction text with
  | nil => rfl
  | cons c text ih =>
    rw [escape_cons, ih fun d hd => h d (by simp [hd]), escapeChar, h c (by simp)]
    rfl

/-- No digit is reserved. -/
theorem plain_of_digits {text : Text} (h : Numeral.Digits 10 text) : Plain text := by
  have hnone : ∀ entry ∈ reserved,
      ¬ ('0'.toNat ≤ entry.1.toNat ∧ entry.1.toNat < '0'.toNat + 10) := by decide
  intro c hc
  refine List.lookup_eq_none_iff.mpr fun entry hentry => ?_
  rw [bne_iff_ne]
  rintro rfl
  exact hnone entry hentry (h _ hc)

theorem escape_of_digits {text : Text} (h : Numeral.Digits 10 text) : escape text = text :=
  escape_of_plain (plain_of_digits h)

/-- Escapes have no points. -/
theorem not_mem_escape {text : Text} (h : '.' ∉ text) : '.' ∉ escape text := by
  have hcodes : ∀ entry ∈ reserved, '.' ∉ entry.2 := by decide
  intro hmem
  obtain ⟨c, hc, hmem⟩ := List.mem_flatMap.mp hmem
  rw [escapeChar] at hmem
  cases hlookup : reserved.lookup c with
  | none =>
    rw [hlookup] at hmem
    exact h (List.mem_singleton.mp hmem ▸ hc)
  | some code =>
    rw [hlookup] at hmem
    obtain ⟨before, after, hsplit, -⟩ := List.lookup_eq_some_iff.mp hlookup
    rcases List.mem_cons.mp hmem with hpercent | hmem
    · exact absurd hpercent (by decide)
    · exact hcodes (c, code) (by rw [hsplit]; simp) hmem

/-- The last part of an escaped text is the escaped last part. -/
theorem unescape_afterLast (text : Text) :
    unescape (Text.afterLast '.' (escape text)) = Text.afterLast '.' text := by
  by_cases hdot : '.' ∈ text
  · obtain ⟨before, htext, hafter⟩ := Text.exists_afterLast hdot
    have hescape : escape text = escape before ++ '.' :: escape (Text.afterLast '.' text) := by
      conv_lhs => rw [htext, escape_append, escape_cons]
      rfl
    rw [hescape, Text.afterLast_append, Text.afterLast_of_not_mem (not_mem_escape hafter),
      unescape_escape]
  · rw [Text.afterLast_of_not_mem (not_mem_escape hdot), Text.afterLast_of_not_mem hdot,
      unescape_escape]

/-! ## Line ends -/

theorem unescape_eq_nil_iff {text : Text} : unescape text = [] ↔ text = [] := by
  fun_cases unescape text <;> simp

/-- A code that stands for a reserved character does not end a line, nor does the character. -/
theorem ne_lineEnd_of_decode? {high low c : Char} (h : decode? high low = some c) :
    low ≠ '\n' ∧ c ≠ '\n' := by
  have hall : ∀ entry ∈ reserved, entry.2.getLast? ≠ some '\n' ∧ entry.1 ≠ '\n' := by decide
  obtain ⟨entry, hfound, rfl⟩ := Option.map_eq_some_iff.mp h
  obtain ⟨hcode, hchar⟩ := hall entry (List.mem_of_find?_eq_some hfound)
  refine ⟨?_, hchar⟩
  rintro rfl
  have hsame : entry.2 = [high.toUpper, '\n'.toUpper] := eq_of_beq (List.find?_some hfound :)
  exact hcode (hsame ▸ rfl)

/-- No escape stands for a line end. -/
theorem getLast?_unescape_iff {text : Text} :
    (unescape text).getLast? = some '\n' ↔ text.getLast? = some '\n' := by
  -- a character in front that is no line end does not matter
  have hcons {c : Char} (hc : c ≠ '\n') (rest : Text) :
      (c :: rest).getLast? = some '\n' ↔ rest.getLast? = some '\n' := by
    cases rest with
    | nil => simp [hc]
    | cons d rest => rw [List.getLast?_cons_cons]
  fun_induction unescape text with
  | case1 high low rest c hdecode ih =>
    obtain ⟨hlow, hc⟩ := ne_lineEnd_of_decode? hdecode
    rw [hcons hc, hcons (by decide), List.getLast?_cons_cons, hcons hlow]
    exact ih
  | case2 high low rest hdecode ih => exact (hcons (by decide) _).trans (ih.trans (hcons (by decide) _).symm)
  | case3 c rest hescape ih =>
    cases rest with
    | nil => rfl
    | cons d rest =>
      obtain ⟨first, others, hfirst⟩ := List.exists_cons_of_ne_nil
        (unescape_eq_nil_iff.not.mpr (List.cons_ne_nil d rest))
      rw [hfirst] at ih ⊢
      rw [List.getLast?_cons_cons, List.getLast?_cons_cons]
      exact ih
  | case4 => rfl

end UriEscape

namespace Template

/-- The literals of a template have no reserved characters. -/
def PlainLiterals : Template → Prop
  | [] => True
  | .literal text :: rest => UriEscape.Plain text ∧ PlainLiterals rest
  | .field _ _ :: rest => PlainLiterals rest

instance : (template : Template) → Decidable (PlainLiterals template)
  | [] => inferInstanceAs (Decidable True)
  | .literal text :: rest =>
    have := instDecidablePlainLiterals rest
    inferInstanceAs (Decidable (UriEscape.Plain text ∧ PlainLiterals rest))
  | .field _ _ :: rest => instDecidablePlainLiterals rest

/-- To escape the fields is to escape the text. -/
theorem text_map_escape {template : Template} (h : template.PlainLiterals) (values : List Text) :
    template.text (values.map UriEscape.escape) = UriEscape.escape (template.text values) := by
  induction template generalizing values with
  | nil => simp
  | cons piece rest ih =>
    cases piece with
    | literal start =>
      rw [text_literal, text_literal, UriEscape.escape_append, ih h.2,
        UriEscape.escape_of_plain h.1]
    | field name slot =>
      cases values with
      | nil => exact ih h []
      | cons value values =>
        rw [List.map_cons, text_field, text_field, UriEscape.escape_append, ih h]

end Template

end EpcTag
