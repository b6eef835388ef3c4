-- SUMMARY: The natural order of names with ASCII digits: a linear order of their keys, in which any list of names can be put.
import EpcTag.NaturalOrder
import EpcTag.Proofs.Building
import EpcTag.Proofs.Numeral
import Mathlib.Data.Char
import Mathlib.Data.List.Lex
import Mathlib.Data.Sum.Order
import Mathlib.Logic.Relation

/-!
# Natural order

A name is cut at its runs of ASCII digits, so that text and numbers take turns in its
key. Two keys therefore have pieces of one kind at each place, and pieces of one kind are
in a linear order: keys are compared like words. A key forgets nothing of its name but the
zeros in front of its numbers: written out, it is the name after all of these have been
dropped, one by one. All this hangs on the digits being ASCII. A digit of another script
stays in the text around it, and such a text may count as a number.
-/

namespace EpcTag

/-! ## Pieces in order -/

namespace NamePiece

def isText : NamePiece → Bool
  | .text _ => true
  | .number _ => false

/-- Pieces among texts and numbers, of which all texts come first. -/
def place : NamePiece → Lex (Text ⊕ Int)
  | .text part => toLex (.inl part)
  | .number value => toLex (.inr value)

theorem place_injective : Function.Injective place := by
  rintro (_ | _) (_ | _) h <;> cases h <;> rfl

/-- Texts are ordered by code points and numbers by value. -/
instance : LinearOrder NamePiece := LinearOrder.lift' place place_injective

@[simp] theorem text_lt_text {s t : Text} : NamePiece.text s < .text t ↔ s < t :=
  Sum.Lex.inl_lt_inl_iff

@[simp] theorem number_lt_number {m n : Int} : NamePiece.number m < .number n ↔ m < n :=
  Sum.Lex.inr_lt_inr_iff

end NamePiece

namespace NaturalOrder

section Keys

variable {key key' : List NamePiece}

theorem textBefore_eq (s t : Text) : textBefore s t = decide (s < t) := by
  induction s generalizing t with
  | nil => cases t <;> simp [textBefore]
  | cons c s ih =>
    cases t with
    | nil => simp [textBefore]
    | cons d t =>
      rw [textBefore, ih]
      split
      · next heq => simp [heq]
      · next hne =>
        have hlt : c < d ↔ c.toNat < d.toNat := UInt32.lt_iff_toNat_lt
        simp [List.cons_lt_cons_iff, hne, hlt]

theorem before?_text (s t : Text) : before? (.text s :: key) (.text t :: key') =
    if s = t then before? key key' else some (decide (s < t)) := by
  simp [before?, textBefore_eq]

theorem before?_number (m n : Int) : before? (.number m :: key) (.number n :: key') =
    if m = n then before? key key' else some (decide (m < n)) := by
  simp [before?]

/-- Keys with pieces of one kind at each place are compared piece by piece, without fail. -/
theorem before?_eq (h : ∀ (place : Nat) (a b : NamePiece), key[place]? = some a →
      key'[place]? = some b → a.isText = b.isText) :
    before? key key' = some (decide (key < key')) := by
  induction key generalizing key' with
  | nil => cases key' <;> simp [before?]
  | cons a key ih =>
    cases key' with
    | nil => simp [before?]
    | cons b key' =>
      have hkind : a.isText = b.isText := h 0 a b rfl rfl
      have hrest : before? key key' = some (decide (key < key')) :=
        ih fun place => h (place + 1)
      match a, b, hkind with
      | .text s, .text t, _ =>
        rw [before?_text, hrest]
        split
        · next heq => simp [heq]
        · next hne => simp [List.cons_lt_cons_iff, hne]
      | .number m, .number n, _ =>
        rw [before?_number, hrest]
        split
        · next heq => simp [heq]
        · next hne => simp [List.cons_lt_cons_iff, hne]

end Keys

/-! ## Cutting a name -/

/-- A text without ASCII digits. -/
def NoDigits (text : Text) : Prop := ∀ c ∈ text, Text.isAsciiDigit c = false

/-- A text that starts with no digit. -/
def StartsFree (text : Text) : Prop := ∀ c ∈ text.head?, Text.isAsciiDigit c = false

/-- A text that ends with no digit. -/
def EndsFree (text : Text) : Prop := ∀ c ∈ text.getLast?, Text.isAsciiDigit c = false

/-- A name is cut into runs: text and digits take turns, and digits that stand together are
    in one run. -/
inductive Cut : Text → List Text → Prop
  | text {part : Text} (hpart : NoDigits part) : Cut part [part]
  | number {part digits rest : Text} {parts : List Text} (hpart : NoDigits part)
      (hdigits : Numeral.isDecimal digits = true) (hnext : StartsFree rest)
      (hrest : Cut rest parts) : Cut (part ++ (digits ++ rest)) (part :: digits :: parts)

variable {c : Char} {part digits rest before name name' : Text} {parts more : List Text}

theorem NoDigits.startsFree (h : NoDigits part) : StartsFree part :=
  fun c hc => h c (List.mem_of_mem_head? hc)

theorem NoDigits.endsFree (h : NoDigits part) : EndsFree part :=
  fun c hc => h c (List.mem_of_mem_getLast? hc)

theorem isDecimal_cons : Numeral.isDecimal (c :: digits) = true ↔
    Text.isAsciiDigit c = true ∧ digits.all Text.isAsciiDigit = true := by
  simp [Numeral.isDecimal]

theorem NoDigits.not_isDecimal (h : NoDigits part) : Numeral.isDecimal part = false := by
  cases part with
  | nil => rfl
  | cons c part =>
    have hc : Text.isAsciiDigit c = false := h c List.mem_cons_self
    simp [Numeral.isDecimal, hc]

theorem not_startsFree_append (hdigits : Numeral.isDecimal digits = true) (rest : Text) :
    ¬StartsFree (digits ++ rest) := by
  intro hstart
  cases digits with
  | nil => cases hdigits
  | cons c digits =>
    have hc := (isDecimal_cons.mp hdigits).1
    rw [hstart c rfl] at hc
    cases hc

theorem not_endsFree_append (hdigits : Numeral.isDecimal digits = true) (before : Text) :
    ¬EndsFree (before ++ digits) := by
  intro hend
  have hne : digits ≠ [] := by
    rintro rfl
    cases hdigits
  have hlast : digits.getLast hne ∈ (before ++ digits).getLast? := by
    rw [List.getLast?_append_of_ne_nil _ hne]
    exact List.getLast?_eq_some_getLast hne
  have hdigit : Text.isAsciiDigit (digits.getLast hne) = true :=
    List.all_eq_true.mp (Bool.and_eq_true_iff.mp hdigits).2 _ (List.getLast_mem hne)
  rw [hend _ hlast] at hdigit
  cases hdigit

/-- A name that starts with a digit starts with a run of digits. -/
theorem exists_digits_append (hc : Text.isAsciiDigit c = true) (name : Text) :
    ∃ digits rest, c :: name = digits ++ rest ∧ Numeral.isDecimal digits = true ∧
      StartsFree rest := by
  refine ⟨c :: name.takeWhile Text.isAsciiDigit, name.dropWhile Text.isAsciiDigit, ?_,
    isDecimal_cons.mpr ⟨hc, List.all_takeWhile⟩, fun d hd => ?_⟩
  · rw [List.cons_append, List.takeWhile_append_dropWhile]
  · have hstop := List.head?_dropWhile_not Text.isAsciiDigit name
    rw [Option.mem_def.mp hd] at hstop
    exact hstop

/-- Every name can be cut. -/
theorem exists_cut (name : Text) : ∃ parts, Cut name parts := by
  induction name with
  | nil => exact ⟨_, .text (List.forall_mem_nil _)⟩
  | cons c name ih =>
    obtain ⟨parts, hcut⟩ := ih
    cases hc : Text.isAsciiDigit c with
    | false =>
      -- the character joins the text in front
      cases hcut with
      | text hpart => exact ⟨_, .text (List.forall_mem_cons.mpr ⟨hc, hpart⟩)⟩
      | number hpart hdigits hnext hrest =>
        exact ⟨_, .number (List.forall_mem_cons.mpr ⟨hc, hpart⟩) hdigits hnext hrest⟩
    | true =>
      have hdigit : Numeral.isDecimal [c] = true := isDecimal_cons.mpr ⟨hc, rfl⟩
      cases hcut with
      | text hpart =>
        exact ⟨_, .number (List.forall_mem_nil _) hdigit hpart.startsFree (.text hpart)⟩
      | @number part digits rest parts hpart hdigits hnext hrest =>
        cases part with
        | nil =>
          have hmore : Numeral.isDecimal (c :: digits) = true :=
            isDecimal_cons.mpr ⟨hc, (Bool.and_eq_true_iff.mp hdigits).2⟩
          exact ⟨_, .number (List.forall_mem_nil _) hmore hnext hrest⟩
        | cons d part =>
          have hstart : StartsFree (d :: part ++ (digits ++ rest)) := by
            rintro e ⟨⟩
            exact hpart d List.mem_cons_self
          exact ⟨_, .number (List.forall_mem_nil _) hdigit hstart
            (.number hpart hdigits hnext hrest)⟩

theorem runs_append_of_noDigits (hpart : NoDigits part) {first : Text}
    (hname : runs name = first :: more) :
    runs (part ++ name) = (part ++ first) :: more := by
  induction part with
  | nil => exact hname
  | cons c part ih =>
    obtain ⟨hc, hpart⟩ := List.forall_mem_cons.mp hpart
    simp [runs, hc, ih hpart]

theorem runs_ne_nil (name : Text) : runs name ≠ [] := by
  cases name with
  | nil => simp [runs]
  | cons c name =>
    rw [runs]
    split
    · simp
    · split
      · split <;> simp
      · simp

theorem runs_digit_cons (hc : Text.isAsciiDigit c = true) (hnext : StartsFree rest) :
    runs (c :: rest) = [] :: [c] :: runs rest := by
  cases rest with
  | nil => simp [runs, hc]
  | cons d rest =>
    have hd : Text.isAsciiDigit d = false := hnext d rfl
    obtain ⟨first, others, hrest⟩ := List.exists_cons_of_ne_nil (runs_ne_nil rest)
    have hruns : runs (d :: rest) = (d :: first) :: others := by
      simp [runs, hd, hrest]
    rw [runs, hruns]
    simp [hc]

/-- Digits at the start of a name are a run, behind an empty text. -/
theorem runs_digits_append (hdigits : Numeral.isDecimal digits = true) (hnext : StartsFree rest) :
    runs (digits ++ rest) = [] :: digits :: runs rest := by
  induction digits with
  | nil => cases hdigits
  | cons c digits ih =>
    obtain ⟨hc, hall⟩ := isDecimal_cons.mp hdigits
    cases digits with
    | nil => exact runs_digit_cons hc hnext
    | cons d digits =>
      have hmore : Numeral.isDecimal (d :: digits) = true := by simpa [Numeral.isDecimal] using hall
      rw [List.cons_append, runs, ih hmore]
      simp [hc]

theorem Cut.runs_eq (h : Cut name parts) : runs name = parts := by
  induction h with
  | @text part hpart =>
    have hcut : runs (part ++ []) = [part ++ []] := runs_append_of_noDigits hpart rfl
    rwa [List.append_nil] at hcut
  | number hpart hdigits hnext hrest ih =>
    rw [runs_append_of_noDigits hpart (runs_digits_append hdigits hnext), ih, List.append_nil]

theorem cut_runs (name : Text) : Cut name (runs name) := by
  obtain ⟨parts, hcut⟩ := exists_cut name
  rwa [hcut.runs_eq]

/-- Behind a text that does not end with a digit, the runs go on with a new run of digits. -/
theorem Cut.append (h : Cut before parts) (hend : EndsFree before)
    (hdigits : Numeral.isDecimal digits = true) (hnext : StartsFree rest) (hrest : Cut rest more) :
    Cut (before ++ (digits ++ rest)) (parts ++ digits :: more) := by
  induction h with
  | text hpart => exact .number hpart hdigits hnext hrest
  | @number part digits' rest' parts hpart hdigits' hnext' _ ih =>
    -- what is behind the digits in front is not empty, as that would end with a digit
    have hne : rest' ≠ [] := by
      rintro rfl
      rw [List.append_nil] at hend
      exact not_endsFree_append hdigits' part hend
    have hend' : EndsFree rest' := by
      intro c hc
      refine hend c ?_
      rwa [← List.append_assoc, List.getLast?_append_of_ne_nil _ hne]
    have hstart : StartsFree (rest' ++ (digits ++ rest)) := by
      intro c hc
      refine hnext' c ?_
      rwa [List.head?_append_of_ne_nil _ hne] at hc
    rw [List.append_assoc, List.append_assoc]
    exact .number hpart hdigits' hstart (ih hend')

/-! ## Keys -/

/-- A run of digits as its value, and any other run as it is. -/
def pieceOf (run : Text) : NamePiece :=
  if Numeral.isDecimal run then .number (Numeral.value 10 run) else .text run

/-- The key of a name in which only ASCII digits have a digit value. -/
def key (name : Text) : List NamePiece := (runs name).map pieceOf

/-- A name whose characters with a digit value are all ASCII digits. -/
def AsciiNumbered (name : Text) : Prop :=
  ∀ c ∈ name, Text.hasDigitValue c = true → Text.isAsciiDigit c = true

instance (name : Text) : Decidable (AsciiNumbered name) := List.decidableBAll _ name

theorem hasDigitValue_of_isAsciiDigit (hc : Text.isAsciiDigit c = true) :
    Text.hasDigitValue c = true := by
  have hbounds := (Numeral.isAsciiDigit_iff c).mp hc
  have h0 : '0'.toNat = 48 := rfl
  have hdigit : Text.decimalDigit? c = some (c.toNat - 48) := by
    rw [Text.decimalDigit?, if_pos (by omega), if_pos hc]
  rw [Text.hasDigitValue, hdigit]
  rfl

theorem pieceOf_text (hpart : NoDigits part) : pieceOf part = .text part := by
  rw [pieceOf, hpart.not_isDecimal, if_neg Bool.false_ne_true]

theorem pieceOf_digits (hdigits : Numeral.isDecimal digits = true) :
    pieceOf digits = .number (Numeral.value 10 digits) := if_pos hdigits

theorem piece_text (hpart : NoDigits part) (hascii : AsciiNumbered part) :
    piece part = .ok (.text part) := by
  rw [piece, if_neg]
  rintro ⟨hne, hall⟩
  obtain ⟨c, part, rfl⟩ := List.exists_cons_of_ne_nil hne
  have hc := hascii c List.mem_cons_self (List.all_eq_true.mp hall c List.mem_cons_self)
  rw [hpart c List.mem_cons_self] at hc
  cases hc

theorem piece_digits (hdigits : Numeral.isDecimal digits = true) :
    piece digits = .ok (.number (Numeral.value 10 digits)) := by
  obtain ⟨hne, hten⟩ := (Numeral.isDecimal_iff digits).mp hdigits
  have hall : digits.all Text.hasDigitValue = true := List.all_eq_true.mpr fun c hc =>
    hasDigitValue_of_isAsciiDigit ((Numeral.isAsciiDigit_iff c).mpr (hten c hc))
  rw [piece, if_pos ⟨hne, hall⟩, Numeral.readInteger?_digits le_rfl hne hten]

theorem Cut.mapM_piece (h : Cut name parts) (hascii : AsciiNumbered name) :
    parts.mapM piece = .ok (parts.map pieceOf) := by
  induction h with
  | text hpart =>
    rw [List.mapM_cons, piece_text hpart hascii, List.map_singleton, pieceOf_text hpart]
    rfl
  | number hpart hdigits hnext hrest ih =>
    have hfirst : AsciiNumbered _ := fun c hc => hascii c (List.mem_append_left _ hc)
    have hlast : AsciiNumbered _ := fun c hc =>
      hascii c (List.mem_append_right _ (List.mem_append_right _ hc))
    rw [List.mapM_cons, List.mapM_cons, piece_text hpart hfirst, piece_digits hdigits, ih hlast,
      List.map_cons, List.map_cons, pieceOf_text hpart, pieceOf_digits hdigits]
    rfl

/-- The pieces of such a name are its key. -/
theorem pieces_eq (h : AsciiNumbered name) : pieces name = .ok (key name) :=
  (cut_runs name).mapM_piece h

theorem Cut.isText_iff (h : Cut name parts) {place : Nat} {piece : NamePiece}
    (hpiece : (parts.map pieceOf)[place]? = some piece) : piece.isText = true ↔ Even place := by
  induction h generalizing place with
  | text hpart =>
    cases place with
    | zero =>
      cases hpiece
      simp [pieceOf_text hpart, NamePiece.isText]
    | succ place => cases hpiece
  | number hpart hdigits hnext hrest ih =>
    match place with
    | 0 =>
      cases hpiece
      simp [pieceOf_text hpart, NamePiece.isText]
    | 1 =>
      cases hpiece
      simp [pieceOf_digits hdigits, NamePiece.isText]
    | place + 2 => rw [ih hpiece, Nat.even_add, iff_true_right even_two]

/-- Texts are at the even places of a key, and numbers at the odd ones. -/
theorem isText_iff_even {place : Nat} {piece : NamePiece} (h : (key name)[place]? = some piece) :
    piece.isText = true ↔ Even place := (cut_runs name).isText_iff h

/-- Keys are compared as in their linear order. -/
theorem before?_key (name name' : Text) :
    before? (key name) (key name') = some (decide (key name < key name')) :=
  before?_eq fun _ _ _ h h' =>
    Bool.eq_iff_iff.mpr ((isText_iff_even h).trans (isText_iff_even h').symm)

example : before? (key "SGTIN-64") (key "SGTIN-198") = some true := by decide

/-! ## Leading zeros -/

/-- The second name is the first one without a zero that starts a run of digits and has
    another digit behind it. -/
inductive DropsZero : Text → Text → Prop
  | intro {before after : Text} {digit : Char} (hend : EndsFree before)
      (hdigit : Text.isAsciiDigit digit = true) :
      DropsZero (before ++ '0' :: digit :: after) (before ++ digit :: after)

theorem value_zero_cons (digits : Text) :
    Numeral.value 10 ('0' :: digits) = Numeral.value 10 digits :=
  Numeral.value_replicate_zero 10 1 digits

/-- A zero in front of a number does not show in the key. -/
theorem DropsZero.key_eq (h : DropsZero name name') : key name = key name' := by
  obtain @⟨before, after, digit, hend, hdigit⟩ := h
  obtain ⟨digits, rest, hafter, hdigits, hnext⟩ := exists_digits_append hdigit after
  have hzero : Numeral.isDecimal ('0' :: digits) = true :=
    isDecimal_cons.mpr ⟨rfl, (Bool.and_eq_true_iff.mp hdigits).2⟩
  have hcut := (cut_runs before).append hend hdigits hnext (cut_runs rest)
  have hcut' := (cut_runs before).append hend hzero hnext (cut_runs rest)
  rw [List.cons_append] at hcut'
  rw [key, key, hafter, hcut.runs_eq, hcut'.runs_eq, List.map_append, List.map_append,
    List.map_cons, List.map_cons, pieceOf_digits hdigits, pieceOf_digits hzero, value_zero_cons]

/-- How a key is written, with no zeros in front of its numbers. -/
def written (key : List NamePiece) : Text :=
  key.flatMap fun
    | .text part => part
    | .number value => Text.ofInt value

theorem eqvGen_ofNat_value (hend : EndsFree before) (hdigits : Numeral.isDecimal digits = true)
    (rest : Text) : Relation.EqvGen DropsZero (before ++ (digits ++ rest))
      (before ++ (Text.ofNat (Numeral.value 10 digits) ++ rest)) := by
  induction digits with
  | nil => cases hdigits
  | cons c digits ih =>
    obtain ⟨hne, hten⟩ := (Numeral.isDecimal_iff _).mp hdigits
    -- a zero is dropped as long as a digit follows it
    by_cases hlead : c = '0' ∧ digits ≠ []
    · obtain ⟨rfl, hmore⟩ := hlead
      obtain ⟨d, digits, rfl⟩ := List.exists_cons_of_ne_nil hmore
      have hrest : Numeral.isDecimal (d :: digits) = true := by
        simpa [Numeral.isDecimal] using (isDecimal_cons.mp hdigits).2
      rw [value_zero_cons]
      exact .trans _ _ _ (.rel _ _ (.intro hend (isDecimal_cons.mp hrest).1)) (ih hrest)
    · have hzero : Numeral.NoLeadingZero (c :: digits) := by
        by_cases hc : c = '0'
        · left
          simpa [hc] using hlead
        · right
          simpa using hc
      rw [Text.ofNat, Numeral.toDigits_value (by decide) le_rfl hne hten hzero]
      exact .refl _

/-- Dropping zeros leads to how the key of a name is written. The induction goes from the
    left, with what is already written in front. -/
theorem Cut.eqvGen_written (h : Cut name parts) (before : Text)
    (hapart : EndsFree before ∨ StartsFree name) :
    Relation.EqvGen DropsZero (before ++ name) (before ++ written (parts.map pieceOf)) := by
  induction h generalizing before with
  | text hpart =>
    simp only [List.map_singleton, pieceOf_text hpart, written, List.flatMap_singleton]
    exact .refl _
  | @number part digits rest parts hpart hdigits hnext _ ih =>
    -- no digit stands in front of the number: the part has none, and without a part it is what
      -- is already written that ends free
    have hend : EndsFree (before ++ part) := by
      by_cases hnil : part = []
      · subst hnil
        rw [List.append_nil]
        exact hapart.resolve_right (not_startsFree_append hdigits rest)
      · intro c hc
        rw [List.getLast?_append_of_ne_nil _ hnil] at hc
        exact hpart.endsFree c hc
    have hnumber := eqvGen_ofNat_value hend hdigits rest
    have hrest := ih (before ++ part ++ Text.ofNat (Numeral.value 10 digits)) (.inr hnext)
    have hwritten : written ((part :: digits :: parts).map pieceOf) =
        part ++ (Text.ofNat (Numeral.value 10 digits) ++ written (parts.map pieceOf)) := by
      simp only [List.map_cons, pieceOf_text hpart, pieceOf_digits hdigits, written,
        List.flatMap_cons]
      rfl
    rw [hwritten]
    simp only [List.append_assoc] at hnumber hrest ⊢
    exact .trans _ _ _ hnumber hrest

theorem eqvGen_written_key (name : Text) :
    Relation.EqvGen DropsZero name (written (key name)) :=
  (cut_runs name).eqvGen_written [] (.inl fun _ hc => nomatch hc)

/-- Names have one key if they differ in nothing but zeros in front of their numbers. -/
theorem key_eq_iff : key name = key name' ↔ Relation.EqvGen DropsZero name name' := by
  constructor
  · intro hkey
    have hname := eqvGen_written_key name
    rw [hkey] at hname
    exact .trans _ _ _ hname (.symm _ _ (eqvGen_written_key name'))
  · intro h
    induction h with
    | rel _ _ hstep => exact hstep.key_eq
    | refl _ => rfl
    | symm _ _ _ ih => exact ih.symm
    | trans _ _ _ _ _ ih ih' => exact ih.trans ih'

/-! ## Sorting -/

variable {α : Type} {elements shuffled : List α}

theorem comparable_keys (names : List Text) : comparable (names.map key) = true := by
  induction names with
  | nil => rfl
  | cons name names ih => simp [comparable, before?_key, ih]

/-- The elements in ascending order of the keys of their names. -/
def byKey (name : α → Text) (elements : List α) : List α :=
  sortStable (fun a b => key (name a) < key (name b)) elements

theorem byKey_perm (name : α → Text) (elements : List α) :
    (byKey name elements).Perm elements := sortStable_perm _ elements

theorem byKey_ascending (name : α → Text) (elements : List α) :
    ((byKey name elements).map (key ∘ name)).Pairwise (· ≤ ·) :=
  List.pairwise_map.mpr (sortStable_pairwise (key ∘ name) elements)

/-- In whatever order elements come, their keys are in the same order in the end. -/
theorem map_key_byKey_eq_of_perm (name : α → Text) (h : shuffled.Perm elements) :
    (byKey name shuffled).map (key ∘ name) = (byKey name elements).map (key ∘ name) := by
  have hperm := (byKey_perm name shuffled).trans (h.trans (byKey_perm name elements).symm)
  exact (hperm.map _).eq_of_pairwise (fun _ _ _ _ => le_antisymm) (byKey_ascending name shuffled)
    (byKey_ascending name elements)

/-- Sorting by names is sorting by keys, which does not fail. -/
theorem sortBy_eq {name : α → Text} (h : ∀ x ∈ elements, AsciiNumbered (name x)) :
    sortBy name elements = .ok (byKey name elements) := by
  have hkeyed : (elements.mapM fun x => do pure (← pieces (name x), x)) =
      .ok (elements.map fun x => (key (name x), x)) := by
    refine mapM_eq_ok_map fun x hx => ?_
    rw [pieces_eq (h x hx)]
    rfl
  have hcomparable : comparable ((elements.map fun x => (key (name x), x)).map (·.1)) = true := by
    have hkeys : (elements.map fun x => (key (name x), x)).map (·.1) =
        (elements.map name).map key := by
      rw [List.map_map, List.map_map]
      rfl
    rw [hkeys]
    exact comparable_keys (elements.map name)
  rw [sortBy, hkeyed]
  change (if comparable ((elements.map fun x => (key (name x), x)).map (·.1)) then _ else _) = _
  rw [if_pos hcomparable, sortStable_map, List.map_map]
  simp only [before?_key, Option.getD_some, Function.comp_def, List.map_id']
  rfl

end NaturalOrder

end EpcTag
