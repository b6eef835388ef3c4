-- SUMMARY: Blanks at the ends of texts: what a trim takes off, and where a run of characters ends.
import EpcTag.Text.Blank
import EpcTag.Text.Word
import EpcTag.Proofs.Text

/-!
# Blanks

A trim takes off a margin of blanks and leaves a text that has none at its ends, so a text
is its trimmed text between two margins. A run of characters ends before the first one that
does not belong to it; no blank belongs to a word.
-/

namespace EpcTag.Text

variable {p : Char → Bool} {mark : Char} {run rest text margin before after : Text}

/-! ## Runs -/

theorem dropWhile_append_of_stop (hrun : ∀ c ∈ run, p c = true)
    (hstop : ∀ c ∈ rest.head?, p c = false) : (run ++ rest).dropWhile p = rest := by
  rw [List.dropWhile_append_of_pos hrun]
  cases rest with
  | nil => rfl
  | cons c rest => exact List.dropWhile_cons_of_neg (by simp [hstop c rfl])

theorem takeWhile_append_of_stop (hrun : ∀ c ∈ run, p c = true)
    (hstop : ∀ c ∈ rest.head?, p c = false) : (run ++ rest).takeWhile p = run := by
  rw [List.takeWhile_append_of_pos hrun]
  cases rest with
  | nil => exact List.append_nil run
  | cons c rest => rw [List.takeWhile_cons_of_neg (by simp [hstop c rfl]), List.append_nil]

theorem dropWhileEnd_append_of_stop {c : Char} (hrun : ∀ c ∈ run, p c = true)
    (hstop : p c = false) (text : Text) : dropWhileEnd p (text ++ c :: run) = text ++ [c] := by
  have hreverse : (text ++ c :: run).reverse = run.reverse ++ (c :: text.reverse) := by simp
  rw [dropWhileEnd, hreverse, dropWhile_append_of_stop (by simpa using hrun) (by simpa using hstop)]
  simp

/-- What is dropped at the end of a text. -/
theorem exists_dropWhileEnd (p : Char → Bool) (text : Text) :
    ∃ run, (∀ c ∈ run, p c = true) ∧ text = dropWhileEnd p text ++ run := by
  refine ⟨(text.reverse.takeWhile p).reverse, fun c hc => ?_, ?_⟩
  · exact List.mem_takeWhile_imp (List.mem_reverse.mp hc)
  · rw [dropWhileEnd, ← List.reverse_append, List.takeWhile_append_dropWhile,
      List.reverse_reverse]

/-! ## Margins -/

/-- A text of blanks. -/
def Blank (text : Text) : Prop := ∀ c ∈ text, isBlank c = true

instance (text : Text) : Decidable (Blank text) := List.decidableBAll _ text

theorem Blank.not_mem (h : Blank text) {c : Char} (hc : isBlank c = false) : c ∉ text :=
  fun hmem => Bool.false_ne_true (hc.symm.trans (h c hmem))

theorem Blank.append (hbefore : Blank before) (hafter : Blank after) : Blank (before ++ after) :=
  List.forall_mem_append.mpr ⟨hbefore, hafter⟩

theorem trimStart_append (h : Blank margin) (text : Text) :
    trimStart (margin ++ text) = trimStart text :=
  List.dropWhile_append_of_pos h

theorem trimStart_of_blank (h : Blank text) : trimStart text = [] :=
  List.dropWhile_eq_nil_iff.mpr h

/-- A trim stops at the first visible character. -/
theorem trimStart_visible (hmargin : Blank margin) {c : Char} (hc : isBlank c = false)
    (rest : Text) : trimStart (margin ++ c :: rest) = c :: rest :=
  dropWhile_append_of_stop hmargin (by simpa using hc)

/-- What is trimmed at the start of a text. -/
theorem exists_trimStart (text : Text) :
    ∃ margin, Blank margin ∧ text = margin ++ trimStart text :=
  ⟨text.takeWhile isBlank, fun _ hc => List.mem_takeWhile_imp hc,
    List.takeWhile_append_dropWhile.symm⟩

/-- What is left of a text does not start with a blank. -/
theorem isBlank_of_mem_head?_trimStart {c : Char} (h : c ∈ (trimStart text).head?) :
    isBlank c = false := by
  have hstop := List.head?_dropWhile_not isBlank text
  rw [show (text.dropWhile isBlank).head? = some c from h] at hstop
  simpa using hstop

/-- A text is its trimmed text between two margins. -/
theorem exists_trim (text : Text) :
    ∃ before after, Blank before ∧ Blank after ∧ text = before ++ (trim text ++ after) := by
  obtain ⟨before, hbefore, htext⟩ := exists_trimStart text
  obtain ⟨after, hafter, hstart⟩ := exists_dropWhileEnd isBlank (trimStart text)
  exact ⟨before, after, hbefore, hafter, htext.trans (congrArg (before ++ ·) hstart)⟩

theorem isBlank_of_mem_head?_trim {c : Char} (h : c ∈ (trim text).head?) : isBlank c = false := by
  obtain ⟨run, -, hstart⟩ := exists_dropWhileEnd isBlank (trimStart text)
  have hhead : c ∈ (trimStart text).head? := by
    rw [hstart, List.head?_append,
      show (dropWhileEnd isBlank (trimStart text)).head? = some c from h]
    rfl
  exact isBlank_of_mem_head?_trimStart hhead

theorem trim_of_blank (h : Blank text) : trim text = [] := by
  rw [trim, trimBy, show text.dropWhile isBlank = [] from trimStart_of_blank h]
  rfl

theorem trim_append (hbefore : Blank before) (hafter : Blank after) (text : Text) :
    trim (before ++ (text ++ after)) = trim text := by
  have hstart : trimStart (before ++ (text ++ after)) =
      if (trimStart text).isEmpty then [] else trimStart text ++ after := by
    rw [trimStart_append hbefore, trimStart, List.dropWhile_append,
      show after.dropWhile isBlank = [] from trimStart_of_blank hafter]
    rfl
  have hreverse : ∀ c ∈ after.reverse, isBlank c = true :=
    fun c hc => hafter c (List.mem_reverse.mp hc)
  have hend : dropWhileEnd isBlank (trimStart text ++ after) =
      dropWhileEnd isBlank (trimStart text) := by
    rw [dropWhileEnd, List.reverse_append, List.dropWhile_append_of_pos hreverse]
    rfl
  change dropWhileEnd isBlank (trimStart _) = dropWhileEnd isBlank (trimStart text)
  rw [hstart]
  split
  · next hempty => rw [List.isEmpty_iff.mp hempty]
  · exact hend

theorem trim_append_left (h : Blank margin) (text : Text) : trim (margin ++ text) = trim text := by
  simpa using trim_append h (List.forall_mem_nil _) text

theorem trim_append_right (h : Blank margin) (text : Text) : trim (text ++ margin) = trim text :=
  trim_append (List.forall_mem_nil _) h text

theorem trim_trimStart (text : Text) : trim (trimStart text) = trim text := by
  obtain ⟨margin, hmargin, htext⟩ := exists_trimStart text
  have htrim := trim_append hmargin (List.forall_mem_nil _) (trimStart text)
  rw [List.append_nil, ← htext] at htrim
  exact htrim.symm

theorem trim_trim (text : Text) : trim (trim text) = trim text := by
  obtain ⟨before, after, hbefore, hafter, htext⟩ := exists_trim text
  have htrim := trim_append hbefore hafter (trim text)
  rw [← htext] at htrim
  exact htrim.symm

theorem mem_of_mem_trim {c : Char} (h : c ∈ trim text) : c ∈ text := by
  obtain ⟨before, after, -, -, htext⟩ := exists_trim text
  rw [htext]
  simp [h]

theorem trim_eq_nil_iff : trim text = [] ↔ Blank text := by
  refine ⟨fun h => ?_, trim_of_blank⟩
  obtain ⟨before, after, hbefore, hafter, htext⟩ := exists_trim text
  rw [htext, h]
  exact hbefore.append hafter

/-- A trim takes off the margin in front of a visible character and nothing behind it. -/
theorem head?_trim (hmargin : Blank margin) {c : Char} (hc : isBlank c = false) (rest : Text) :
    (trim (margin ++ c :: rest)).head? = some c := by
  obtain ⟨run, hrun, htext⟩ := exists_dropWhileEnd isBlank (c :: rest)
  have htrim : trim (margin ++ c :: rest) = dropWhileEnd isBlank (c :: rest) := by
    rw [trim, trimBy, show (margin ++ c :: rest).dropWhile isBlank = c :: rest from
      trimStart_visible hmargin hc rest]
  rw [htrim]
  cases hkept : dropWhileEnd isBlank (c :: rest) with
  | nil =>
    rw [hkept, List.nil_append] at htext
    have hblank := hrun c (htext ▸ List.mem_cons_self)
    exact absurd (hc.symm.trans hblank) (by decide)
  | cons d kept =>
    rw [hkept] at htext
    rw [(List.cons.inj htext).1]
    rfl

/-! ## Parts -/

/-- The margins of a text are margins of its first and its last part. -/
theorem map_trim_splitAll (hmark : isBlank mark = false) (hbefore : Blank before)
    (hafter : Blank after) :
    (splitAll mark (before ++ (text ++ after))).map trim = (splitAll mark text).map trim := by
  -- on the right, from mark to mark up to the last part
  have hright (text : Text) :
      (splitAll mark (text ++ after)).map trim = (splitAll mark text).map trim := by
    induction text using induct_marks mark with
    | single part hpart =>
      have hmem : mark ∉ part ++ after := by simp [hpart, hafter.not_mem hmark]
      rw [splitAll_of_not_mem hmem, splitAll_of_not_mem hpart, List.map_singleton,
        List.map_singleton, trim_append_right hafter]
    | more part rest hpart ih =>
      rw [List.append_assoc, List.cons_append, splitAll_append hpart, splitAll_append hpart,
        List.map_cons, List.map_cons, ih]
  -- on the left, only the first part is concerned
  have hleft (text : Text) :
      (splitAll mark (before ++ text)).map trim = (splitAll mark text).map trim := by
    have hnot := hbefore.not_mem hmark
    by_cases hmem : mark ∈ text
    · obtain ⟨part, rest, rfl, hpart⟩ := List.eq_append_cons_of_mem hmem
      have hmem' : mark ∉ before ++ part := by simp [hnot, hpart]
      rw [← List.append_assoc, splitAll_append hmem', splitAll_append hpart, List.map_cons,
        List.map_cons, trim_append_left hbefore]
    · have hmem' : mark ∉ before ++ text := by simp [hnot, hmem]
      rw [splitAll_of_not_mem hmem', splitAll_of_not_mem hmem, List.map_singleton,
        List.map_singleton, trim_append_left hbefore]
  rw [hleft, hright]

theorem map_trim_splitAll_trim (hmark : isBlank mark = false) (text : Text) :
    (splitAll mark (trim text)).map trim = (splitAll mark text).map trim := by
  obtain ⟨before, after, hbefore, hafter, htext⟩ := exists_trim text
  conv_rhs => rw [htext]
  exact (map_trim_splitAll hmark hbefore hafter).symm

/-! ## Words -/

/-- A run of word characters. -/
structure Word (text : Text) : Prop where
  ne_nil : text ≠ []
  isWord : ∀ c ∈ text, isWord c = true

/-- The codes of the blanks. -/
def blankCodes : List Nat :=
  [0x09, 0x0A, 0x0B, 0x0C, 0x0D, 0x1C, 0x1D, 0x1E, 0x1F, 0x20, 0x85, 0xA0, 0x1680, 0x2000, 0x2001,
   0x2002, 0x2003, 0x2004, 0x2005, 0x2006, 0x2007, 0x2008, 0x2009, 0x200A, 0x2028, 0x2029, 0x202F,
   0x205F, 0x3000]

theorem mem_blankCodes {c : Char} (h : isBlank c = true) : c.toNat ∈ blankCodes := by
  simp only [isBlank, isSeparatorControl, Bool.or_eq_true, Bool.and_eq_true, decide_eq_true_eq,
    beq_iff_eq] at h
  simp only [blankCodes, List.mem_cons, List.not_mem_nil, or_false]
  omega

/-- No blank belongs to a word. -/
theorem isWord_of_isBlank {c : Char} (h : isBlank c = true) : isWord c = false := by
  have hcodes : ∀ code ∈ blankCodes, isWord (Char.ofNat code) = false := by decide +kernel
  have hword := hcodes c.toNat (mem_blankCodes h)
  rwa [Char.ofNat_toNat] at hword

theorem Word.isBlank (h : Word text) {c : Char} (hc : c ∈ text) : Text.isBlank c = false := by
  by_contra hblank
  have hnot := isWord_of_isBlank (Bool.not_eq_false _ ▸ hblank)
  exact Bool.false_ne_true (hnot.symm.trans (h.isWord c hc))

end EpcTag.Text
