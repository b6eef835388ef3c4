-- SUMMARY: Templates: literals and fields that a pattern matches and a grammar renders, read without backtracking.
import EpcTag.Grammar
import EpcTag.Proofs.Matching

/-!
# Templates

The options of the built-in schemes describe their values twice: by a pattern,
which takes a value apart, and by a grammar, which puts one together. Both come
from one template, a list of literals and fields. A template whose fields end
where what follows begins is read from left to right without any choice, and
what it reads is exactly what it writes, up to a line end behind the value.
-/

namespace EpcTag

open Pattern (IsNumber Refuses State)

/-! ## Slots -/

/-- The texts that a field of a template can have. -/
inductive Slot where
  /-- One character of a class. -/
  | one (class_ : CharClass)
  /-- A fixed number of characters of a class. -/
  | exactly (class_ : CharClass) (count : Nat)
  /-- At least `least` and at most `most` characters of a class. -/
  | between (class_ : CharClass) (least : Nat) (most : Option Nat)
  /-- A decimal number without leading zeros. -/
  | number
  deriving DecidableEq, Repr

namespace Slot

/-- The pattern inside the group of a field. -/
def inner : Slot → Pattern
  | .one class_ => .seq (.one class_) .empty
  | .exactly class_ count => .seq (.repeated (.one class_) count (some count)) .empty
  | .between class_ least most => .seq (.repeated (.one class_) least most) .empty
  | .number => Pattern.number

/-- Can a character make a text of the slot longer? -/
def extends? : Slot → Char → Bool
  | .one _ | .exactly _ _ => fun _ => false
  | .between class_ _ _ => class_.has
  | .number => Text.isAsciiDigit

def Fits : Slot → Text → Prop
  | .one class_, text => text.length = 1 ∧ text.all class_.has
  | .exactly class_ count, text => text.length = count ∧ text.all class_.has
  | .between class_ least most, text =>
    (least ≤ text.length ∧ most.all (text.length ≤ ·)) ∧ text.all class_.has
  | .number, text => IsNumber text ∧ text.all Text.isAsciiDigit

/-- The number of characters that a slot takes of a text. -/
def taken : Slot → Text → Option Nat
  | .one class_, text => if 1 ≤ (text.takeWhile class_.has).length then some 1 else none
  | .exactly class_ count, text =>
    if count ≤ (text.takeWhile class_.has).length then some count else none
  | .between class_ least most, text =>
    let run := text.takeWhile class_.has
    if least ≤ run.length ∧ most.all (run.length ≤ ·) then some run.length else none
  | .number, text =>
    let run := text.takeWhile Text.isAsciiDigit
    if IsNumber run then some run.length else none

/-- Do all texts of a slot have one length? -/
def fixed : Slot → Bool
  | .one _ | .exactly _ _ => true
  | _ => false

theorem extends?_of_fixed {slot : Slot} (h : slot.fixed = true) (c : Char) :
    slot.extends? c = false := by
  cases slot with
  | one class_ => rfl
  | «exactly» class_ count => rfl
  | between class_ least most => simp [fixed] at h
  | number => simp [fixed] at h

/-- The bounds of a slot leave room for a text. -/
def valid : Slot → Bool
  | .between _ least most => most.all (least ≤ ·)
  | _ => true

theorem le_length_takeWhile_iff {p : Char → Bool} {count : Nat} {text : Text} :
    count ≤ (text.takeWhile p).length ↔ count ≤ text.length ∧ (text.take count).all p = true := by
  induction count generalizing text with
  | zero => simp
  | succ count ih =>
    cases text with
    | nil => simp
    | cons c text =>
      by_cases hc : p c = true
      · simp [hc, ih]
      · simp [hc]

/-- A run ends where the text ends or goes on with another character. -/
theorem length_takeWhile_eq_iff (p : Char → Bool) (count : Nat) (text : Text) :
    (text.takeWhile p).length = count ↔
      (count ≤ text.length ∧ (text.take count).all p = true) ∧
        ∀ c, (text.drop count).head? = some c → p c = false := by
  rw [← le_length_takeWhile_iff]
  induction count generalizing text with
  | zero =>
    cases text with
    | nil => simp
    | cons c text => by_cases hc : p c = true <;> simp [hc]
  | succ count ih =>
    cases text with
    | nil => simp
    | cons c text =>
      by_cases hc : p c = true
      · simpa [hc] using ih text
      · simp [hc]

/-- The search for a text of a slot finds the one text that the slot takes, if what
    follows refuses the characters that make it longer. -/
theorem search_inner {α : Type} {slot : Slot} (hvalid : slot.valid = true)
    {k : State → Option α} (hk : Refuses k slot.extends?) (state : State) :
    slot.inner.search state k = (slot.taken state.rest).bind fun count => k (state.moved count) := by
  cases slot with
  | one class_ =>
    rw [inner, Pattern.search_seq, taken]
    simp only [Pattern.search_empty]
    cases hrest : state.rest with
    | nil =>
      rw [Pattern.search_one_of_not_has (by simp [hrest])]
      rfl
    | cons c rest =>
      by_cases hc : class_.has c = true
      · rw [Pattern.search_one_of_has hrest hc]
        simp [hc]
      · rw [Pattern.search_one_of_not_has (by simpa [hrest] using hc)]
        simp [hc]
  | «exactly» class_ count =>
    rw [inner, Pattern.search_seq, taken]
    simp only [Pattern.search_empty]
    rw [Pattern.search_repeated_exactly, State.run]
    split <;> rfl
  | between class_ least most =>
    rw [inner, Pattern.search_seq, taken]
    simp only [Pattern.search_empty]
    rw [Pattern.search_repeated_one hk _ hvalid, State.run]
    split <;> rfl
  | number =>
    rw [inner, taken, Pattern.search_number hk, State.run]
    have : Pattern.digitClass.has = Text.isAsciiDigit := funext Pattern.has_digitClass
    rw [this]
    split <;> rfl

/-- Taking a fixed number of characters. -/
private theorem fixed_taken_iff (p : Char → Bool) (text : Text) (number count : Nat) :
    (if number ≤ (text.takeWhile p).length then some number else none) = some count ↔
      count ≤ text.length ∧ (text.take count).length = number ∧ (text.take count).all p = true := by
  rw [List.length_take]
  constructor
  · intro h
    split at h
    · next hrun =>
      cases h
      obtain ⟨hle, hall⟩ := le_length_takeWhile_iff.mp hrun
      exact ⟨hle, by omega, hall⟩
    · simp at h
  · rintro ⟨hle, hlen, hall⟩
    have hcount : count = number := by omega
    subst hcount
    rw [if_pos (le_length_takeWhile_iff.mpr ⟨hle, hall⟩)]

/-- Taking a whole run that has a property. -/
private theorem run_taken_iff {p : Char → Bool} {P : Text → Prop} [DecidablePred P] {text : Text}
    {count : Nat} :
    (if P (text.takeWhile p) then some (text.takeWhile p).length else none) = some count ↔
      count ≤ text.length ∧ (P (text.take count) ∧ (text.take count).all p = true) ∧
        ∀ c, (text.drop count).head? = some c → p c = false := by
  have hiff := length_takeWhile_eq_iff p count text
  have htake (hlen : (text.takeWhile p).length = count) : text.takeWhile p = text.take count := by
    rw [← hlen, ← List.prefix_iff_eq_take]
    exact List.takeWhile_prefix p
  constructor
  · intro h
    split at h
    · next hP =>
      have hlen : (text.takeWhile p).length = count := Option.some.inj h
      obtain ⟨⟨hle, hall⟩, hend⟩ := hiff.mp hlen
      exact ⟨hle, ⟨htake hlen ▸ hP, hall⟩, hend⟩
    · simp at h
  · rintro ⟨hle, ⟨hP, hall⟩, hend⟩
    have hlen : (text.takeWhile p).length = count := hiff.mpr ⟨⟨hle, hall⟩, hend⟩
    rw [if_pos (htake hlen ▸ hP), hlen]

/-- A slot takes a text that fits it and that the rest does not make longer. -/
theorem taken_eq_some_iff {slot : Slot} {text : Text} {count : Nat} :
    slot.taken text = some count ↔
      count ≤ text.length ∧ slot.Fits (text.take count) ∧
        ∀ c, (text.drop count).head? = some c → slot.extends? c = false := by
  cases slot with
  | one class_ =>
    have := fixed_taken_iff class_.has text 1 count
    simpa [taken, Fits, extends?] using this
  | «exactly» class_ number =>
    have := fixed_taken_iff class_.has text number count
    simpa [taken, Fits, extends?] using this
  | between class_ least most =>
    exact run_taken_iff (P := fun run => least ≤ run.length ∧ most.all (run.length ≤ ·) = true)
  | number => exact run_taken_iff

end Slot

/-! ## Templates -/

/-- A piece of a template. -/
inductive TemplatePiece where
  | literal (text : Text)
  | field (name : Text) (slot : Slot)
  deriving DecidableEq, Repr

abbrev Template := List TemplatePiece

namespace Template

/-- The names of the fields. -/
def names : Template → List Text
  | [] => []
  | .literal _ :: rest => names rest
  | .field name _ :: rest => name :: names rest

/-- The slots of the fields. -/
def slots : Template → List Slot
  | [] => []
  | .literal _ :: rest => slots rest
  | .field _ slot :: rest => slot :: slots rest

/-- The pieces of the grammar. -/
def pieces : Template → List GrammarPiece
  | [] => []
  | .literal text :: rest => .literal text :: pieces rest
  | .field name _ :: rest => .field name :: pieces rest

/-- The pattern behind the start of the text. The fields are captured by groups in
    ascending order, the first by the group of the given number. -/
def items : Nat → Template → Pattern
  | _, [] => .seq .finish .empty
  | number, .literal text :: rest =>
    text.foldr (fun c pattern => .seq (.char c) pattern) (items number rest)
  | number, .field _ slot :: rest => .seq (.group number slot.inner) (items (number + 1) rest)

/-- The pattern of a template. -/
def pattern (template : Template) : Pattern := .seq .start (items 1 template)

/-- The text of a template whose fields have the given texts. -/
def text : Template → List Text → Text
  | [], _ => []
  | .literal text :: rest, values => text ++ Template.text rest values
  | .field _ _ :: rest, value :: values => value ++ Template.text rest values
  | .field _ _ :: rest, [] => Template.text rest []

/-- The texts of the fields in a text of the template. -/
def read? : Template → Text → Option (List Text)
  | [], text => if text = [] ∨ text = ['\n'] then some [] else none
  | .literal start :: rest, text =>
    if start.isPrefixOf text then read? rest (text.drop start.length) else none
  | .field _ slot :: rest, text => do
    let count ← slot.taken text
    let values ← read? rest (text.drop count)
    pure (text.take count :: values)

/-- What comes behind a slot cannot make the text of the slot longer. -/
def ends (slot : Slot) : Template → Bool
  | [] => !slot.extends? '\n'
  | .literal (c :: _) :: _ => !slot.extends? c
  | _ => slot.fixed

/-- All fields end where what follows begins. -/
def separated : Template → Bool
  | [] => true
  | .literal _ :: rest => separated rest
  | .field _ slot :: rest => slot.valid && ends slot rest && separated rest

/-- The captures of groups in ascending order, the first with the given number,
    behind earlier captures. -/
def captured : Nat → List Text → List (Nat × Text) → List (Nat × Text)
  | _, [], captures => captures
  | number, value :: values, captures => captured (number + 1) values ((number, value) :: captures)

theorem length_slots (template : Template) :
    List.length (slots template) = List.length (names template) := by
  induction template with
  | nil => rfl
  | cons piece rest ih =>
    cases piece with
    | literal start => exact ih
    | field name slot => exact congrArg (· + 1) ih

theorem names_append (a b : Template) : names (a ++ b) = names a ++ names b := by
  induction a with
  | nil => rfl
  | cons piece rest ih =>
    cases piece with
    | literal start => exact ih
    | field name slot => exact congrArg (name :: ·) ih

theorem slots_append (a b : Template) : slots (a ++ b) = slots a ++ slots b := by
  induction a with
  | nil => rfl
  | cons piece rest ih =>
    cases piece with
    | literal start => exact ih
    | field name slot => exact congrArg (slot :: ·) ih

@[simp] theorem text_nil (values : List Text) : text [] values = [] := by cases values <;> rfl

@[simp] theorem text_literal (start : Text) (rest : Template) (values : List Text) :
    text (.literal start :: rest) values = start ++ rest.text values := by cases values <;> rfl

@[simp] theorem text_field (name value : Text) (slot : Slot) (rest : Template)
    (values : List Text) :
    text (.field name slot :: rest) (value :: values) = value ++ rest.text values := rfl

/-- The literals of a template, one after the other. -/
def literals : Template → Text
  | [] => []
  | .literal text :: rest => text ++ literals rest
  | .field _ _ :: rest => literals rest

/-- A text of a template consists of the literals and the texts of the fields. -/
theorem text_perm {template : Template} {values : List Text}
    (hlen : values.length = List.length template.slots) :
    (template.text values).Perm (template.literals ++ values.flatten) := by
  induction template generalizing values with
  | nil =>
    obtain rfl : values = [] := List.length_eq_zero_iff.mp hlen
    exact .refl _
  | cons piece rest ih =>
    cases piece with
    | literal start =>
      rw [text_literal, literals, List.append_assoc]
      exact (ih hlen).append_left start
    | field name slot =>
      cases values with
      | nil => simp [slots] at hlen
      | cons value values =>
        rw [text_field, literals, List.flatten_cons]
        have hrest := (ih (by simpa [slots] using hlen)).append_left value
        exact hrest.trans (List.perm_append_comm_assoc _ _ _)

/-! ## Reading -/

/-- Behind a field of a template, nothing is read that makes the field longer. -/
theorem read?_of_extends {slot : Slot} {rest : Template} (h : ends slot rest = true) {c : Char}
    {text : Text} (hc : slot.extends? c = true) : rest.read? (c :: text) = none := by
  have hfixed : slot.fixed ≠ true := by
    intro hfixed
    rw [Slot.extends?_of_fixed hfixed] at hc
    exact Bool.false_ne_true hc
  cases rest with
  | nil =>
    have hne : c ≠ '\n' := by
      rintro rfl
      simp [ends, hc] at h
    simp [read?, hne]
  | cons piece rest =>
    cases piece with
    | field name next => exact absurd h hfixed
    | literal start =>
      cases start with
      | nil => exact absurd h hfixed
      | cons d start =>
        have hne : d ≠ c := by
          rintro rfl
          simp [ends, hc] at h
        simp [read?, hne]

/-- What a separated template reads is exactly what it writes, and a line end may
    follow. -/
theorem read?_eq_some_iff {template : Template} (hsep : template.separated = true) {text : Text}
    {values : List Text} :
    template.read? text = some values ↔
      List.Forall₂ Slot.Fits template.slots values ∧
        ∃ ending, (ending = [] ∨ ending = ['\n']) ∧ text = template.text values ++ ending := by
  induction template generalizing text values with
  | nil =>
    cases values with
    | nil =>
      simp only [read?, slots, List.Forall₂.nil, true_and, text_nil, List.nil_append]
      constructor
      · intro h
        split at h
        · next hend => exact ⟨text, hend, rfl⟩
        · simp at h
      · rintro ⟨ending, hending, rfl⟩
        exact if_pos hending
    | cons value values => simp [read?, slots]
  | cons piece rest ih =>
    cases piece with
    | literal start =>
      have ih := @ih hsep (text.drop start.length) values
      simp only [read?, slots, text_literal]
      constructor
      · intro h
        split at h
        · next hstart =>
          obtain ⟨after, rfl⟩ := List.isPrefixOf_iff_prefix.mp hstart
          rw [List.drop_left] at ih h
          obtain ⟨hfits, ending, hending, rfl⟩ := ih.mp h
          exact ⟨hfits, ending, hending, by simp⟩
        · simp at h
      · rintro ⟨hfits, ending, hending, rfl⟩
        have hstart : start.isPrefixOf (start ++ Template.text rest values ++ ending) = true := by
          simp [List.isPrefixOf_iff_prefix, List.append_assoc]
        rw [if_pos hstart]
        refine ih.mpr ⟨hfits, ending, hending, by simp⟩
    | field name slot =>
      simp only [separated, Bool.and_eq_true] at hsep
      obtain ⟨⟨-, hends⟩, hrest⟩ := hsep
      simp only [read?, slots, Option.bind_eq_bind, Option.bind_eq_some_iff, Option.pure_def,
        Option.some.injEq]
      constructor
      · rintro ⟨count, hcount, values, hvalues, rfl⟩
        obtain ⟨hle, hfits, -⟩ := Slot.taken_eq_some_iff.mp hcount
        obtain ⟨hall, ending, hending, htext⟩ := (ih hrest).mp hvalues
        refine ⟨.cons hfits hall, ending, hending, ?_⟩
        rw [text_field, List.append_assoc, ← htext, List.take_append_drop]
      · rintro ⟨hall, ending, hending, rfl⟩
        obtain ⟨value, values, hfits, hrests, rfl⟩ := List.forall₂_cons_left_iff.mp hall
        rw [text_field, List.append_assoc]
        have hread : read? rest (Template.text rest values ++ ending) = some values :=
          (ih hrest).mpr ⟨hrests, ending, hending, rfl⟩
        refine ⟨value.length, ?_, values, by simpa using hread, by simp⟩
        refine Slot.taken_eq_some_iff.mpr ⟨by simp, by simpa using hfits, ?_⟩
        -- what follows the field is read, so it does not make the field longer
        intro c hc
        rw [List.drop_left] at hc
        obtain ⟨after, hafter⟩ := List.head?_eq_some_iff.mp hc
        rw [hafter] at hread
        by_contra hext
        rw [read?_of_extends hends (by simpa using hext)] at hread
        exact absurd hread (by simp)

/-- A template reads the text that it writes. -/
theorem read?_text {template : Template} (hsep : template.separated = true) {values : List Text}
    (h : List.Forall₂ Slot.Fits template.slots values) :
    template.read? (template.text values) = some values :=
  (read?_eq_some_iff hsep).mpr ⟨h, [], .inl rfl, by simp⟩

/-! ## Clashes -/

/-- The class of the characters of a literal. -/
def charClass (c : Char) : CharClass := ⟨false, [⟨c, c⟩]⟩

/-- The classes of the first characters of a text, up to the first field without a
    fixed length. -/
def heads : Template → List CharClass
  | [] => []
  | .literal start :: rest => start.map charClass ++ heads rest
  | .field _ (.one class_) :: rest => class_ :: heads rest
  | .field _ (.exactly class_ count) :: rest => List.replicate count class_ ++ heads rest
  | .field _ _ :: _ => []

/-- A class of one character that is not in another class. -/
def excludes (a b : CharClass) : Bool :=
  match a with
  | ⟨false, [⟨low, high⟩]⟩ => low = high && !b.has low
  | _ => false

/-- Some character is a literal in one template and impossible in the other. -/
def clash (a b : Template) : Bool :=
  (List.zipWith (fun x y => excludes x y || excludes y x) (heads a) (heads b)).any id

theorem not_has_of_excludes {a b : CharClass} (h : excludes a b = true) {c : Char}
    (ha : a.has c = true) : b.has c = false := by
  unfold excludes at h
  split at h
  · next low high =>
    simp only [Bool.and_eq_true, decide_eq_true_eq, Bool.not_eq_true'] at h
    obtain ⟨rfl, hb⟩ := h
    rw [(Pattern.has_char low c).mp ha]
    exact hb
  · exact absurd h (by decide)

theorem forall₂_has_charClass (start : Text) :
    List.Forall₂ (fun class_ c => class_.has c = true) (start.map charClass) start := by
  induction start with
  | nil => exact .nil
  | cons c start ih => exact .cons ((Pattern.has_char c c).mpr rfl) ih

theorem forall₂_has_replicate {class_ : CharClass} {text : Text} {count : Nat}
    (hlen : text.length = count) (h : text.all class_.has = true) :
    List.Forall₂ (fun class_ c => class_.has c = true) (List.replicate count class_) text := by
  subst hlen
  induction text with
  | nil => exact .nil
  | cons c text ih =>
    simp only [List.all_cons, Bool.and_eq_true] at h
    exact .cons h.1 (ih h.2)

/-- A text that is read starts with characters of the classes. -/
theorem has_of_read? {template : Template} {text : Text} {values : List Text}
    (h : template.read? text = some values) :
    ∃ front back, text = front ++ back ∧
      List.Forall₂ (fun class_ c => class_.has c = true) (heads template) front := by
  induction template generalizing text values with
  | nil => exact ⟨[], text, rfl, .nil⟩
  | cons piece rest ih =>
    cases piece with
    | literal start =>
      simp only [read?] at h
      split at h
      · next hstart =>
        obtain ⟨after, rfl⟩ := List.isPrefixOf_iff_prefix.mp hstart
        rw [List.drop_left] at h
        obtain ⟨front, back, rfl, hfront⟩ := ih h
        refine ⟨start ++ front, back, by simp, ?_⟩
        exact List.rel_append (forall₂_has_charClass start) hfront
      · cases h
    | field name slot =>
      simp only [read?, Option.bind_eq_bind, Option.bind_eq_some_iff] at h
      obtain ⟨count, hcount, values, hvalues, -⟩ := h
      obtain ⟨-, hfits, -⟩ := Slot.taken_eq_some_iff.mp hcount
      obtain ⟨front, back, hsplit, hfront⟩ := ih hvalues
      have htext : text = text.take count ++ front ++ back := by
        rw [List.append_assoc, ← hsplit, List.take_append_drop]
      -- a slot of a fixed number of characters has heads; at any other one they end
      cases slot with
      | one class_ =>
        refine ⟨text.take count ++ front, back, htext, ?_⟩
        exact List.rel_append (forall₂_has_replicate hfits.1 hfits.2) hfront
      | «exactly» class_ number =>
        refine ⟨text.take count ++ front, back, htext, ?_⟩
        exact List.rel_append (forall₂_has_replicate hfits.1 hfits.2) hfront
      | between class_ least most => exact ⟨[], text, rfl, .nil⟩
      | number => exact ⟨[], text, rfl, .nil⟩

/-- Classes that one text starts with do not exclude each other. -/
theorem not_excludes_of_has {classes others : List CharClass} {front back front' back' : Text}
    (h : front ++ back = front' ++ back')
    (hfront : List.Forall₂ (fun class_ c => class_.has c = true) classes front)
    (hfront' : List.Forall₂ (fun class_ c => class_.has c = true) others front') :
    (List.zipWith (fun x y => excludes x y || excludes y x) classes others).any id = false := by
  induction hfront generalizing others front' with
  | nil => rfl
  | @cons x c classes front hx _ ih =>
    cases hfront' with
    | nil => rfl
    | @cons y d others front' hy hrest =>
      simp only [List.cons_append, List.cons.injEq] at h
      obtain ⟨rfl, h⟩ := h
      have hxy : excludes x y = false := by
        by_contra hne
        rw [not_has_of_excludes (by simpa using hne) hx] at hy
        exact Bool.false_ne_true hy
      have hyx : excludes y x = false := by
        by_contra hne
        rw [not_has_of_excludes (by simpa using hne) hy] at hx
        exact Bool.false_ne_true hx
      simp only [List.zipWith_cons_cons, List.any_cons, hxy, hyx, Bool.or_self, id_eq,
        Bool.false_or]
      exact ih h hrest

/-- No text is read by two templates that clash. -/
theorem read?_eq_none_of_clash {a b : Template} (hclash : clash a b = true) {text : Text}
    {values : List Text} (h : a.read? text = some values) : b.read? text = none := by
  by_contra hb
  obtain ⟨others, hothers⟩ := Option.ne_none_iff_exists'.mp hb
  obtain ⟨front, back, hsplit, hfront⟩ := has_of_read? h
  obtain ⟨front', back', hsplit', hfront'⟩ := has_of_read? hothers
  rw [clash, not_excludes_of_has (hsplit.symm.trans hsplit') hfront hfront'] at hclash
  exact Bool.false_ne_true hclash

/-! ## Matching -/

theorem search_literal {α : Type} (start : Text) (rest : Pattern) (state : State)
    (k : State → Option α) :
    (start.foldr (fun c pattern => Pattern.seq (.char c) pattern) rest).search state k =
      if start.isPrefixOf state.rest then rest.search (state.moved start.length) k else none := by
  induction start generalizing state with
  | nil => simp
  | cons c start ih =>
    rw [List.foldr_cons, Pattern.search_seq, Pattern.char]
    cases hrest : state.rest with
    | nil =>
      rw [Pattern.search_one_of_not_has (by simp [hrest])]
      simp
    | cons d after =>
      by_cases hd : c = d
      · subst hd
        rw [Pattern.search_one_of_has hrest ((Pattern.has_char c c).mpr rfl), ih,
          State.moved_moved, Nat.add_comm 1 start.length]
        simp [hrest]
      · rw [Pattern.search_one_of_not_has]
        · simp [hd]
        · intro e rest' he
          rw [hrest] at he
          cases he
          exact Bool.eq_false_iff.mpr fun h => hd ((Pattern.has_char c d).mp h).symm

theorem search_group {α : Type} (number : Nat) (inner : Pattern) (state : State)
    (k : State → Option α) :
    (Pattern.group number inner).search state k =
      inner.search state fun next => k (next.captured number state) := rfl

/-- What a state captures behind another one is what has been consumed in between. -/
theorem captured_moved (state : State) (number count : Nat) :
    (state.moved count).captured number state =
      { state.moved count with captures := (number, state.rest.take count) :: state.captures } := by
  simp only [State.captured, State.moved_rest, State.moved_captures, List.length_drop]
  by_cases h : count ≤ state.rest.length
  · rw [show state.rest.length - (state.rest.length - count) = count by omega]
  · rw [show state.rest.length - (state.rest.length - count) = state.rest.length by omega,
      List.take_of_length_le (Nat.le_refl _), List.take_of_length_le (by omega)]

/-- The search for the pattern of a template reads the text from left to right. -/
theorem search_items {α : Type} {template : Template} (hsep : template.separated = true)
    (number : Nat) (state : State) (k : List (Nat × Text) → Option α) :
    (template.items number).search state (fun next => k next.captures) =
      (template.read? state.rest).bind fun values => k (captured number values state.captures) := by
  induction template generalizing number state with
  | nil =>
    rw [items, Pattern.search_seq, read?, Pattern.search]
    simp only [Pattern.search_empty, State.atEnd]
    by_cases h : state.rest = [] ∨ state.rest = ['\n']
    · have hend : (state.rest.isEmpty || state.rest == ['\n']) = true := by simpa using h
      simp [h, hend, captured]
    · have hend : (state.rest.isEmpty || state.rest == ['\n']) = false := by simpa using h
      simp [h, hend]
  | cons piece rest ih =>
    cases piece with
    | literal start =>
      rw [items, search_literal, read?]
      split
      · exact ih hsep number (state.moved start.length)
      · rfl
    | field name slot =>
      simp only [separated, Bool.and_eq_true] at hsep
      obtain ⟨⟨hvalid, hends⟩, hrest⟩ := hsep
      -- what the slot could go on with, the rest of the template does not start with
      have hk : Refuses (fun next : State =>
          (items (number + 1) rest).search (next.captured number state) fun next =>
            k next.captures) slot.extends? := by
        intro next c after hafter hc
        have hread : read? rest (next.captured number state).rest = none := by
          rw [State.captured, hafter]
          exact read?_of_extends hends hc
        exact (ih hrest _ _).trans (by rw [hread]; rfl)
      rw [items, Pattern.search_seq, search_group, Slot.search_inner hvalid hk, read?]
      cases slot.taken state.rest with
      | none => rfl
      | some count =>
        simp only [Option.bind_some, Option.bind_eq_bind, captured_moved]
        rw [ih hrest]
        cases hread : read? rest (state.rest.drop count) with
        | none => simp [hread]
        | some values => simp [hread, captured]

/-- The pattern of a template matches what the template reads. -/
theorem matchStart?_pattern {template : Template} (hsep : template.separated = true)
    (text : Text) :
    template.pattern.matchStart? text =
      (template.read? text).map fun values => ⟨captured 1 values []⟩ := by
  have hsearch := search_items hsep 1 (.initial text) fun captures => some (Pattern.Match.mk captures)
  rw [Pattern.matchStart?, pattern, Pattern.search_seq, Pattern.search,
    if_pos (show (State.initial text).atStart = true from rfl), hsearch, State.initial]
  cases template.read? text <;> rfl

/-- The groups of a match hold the texts of the fields. -/
theorem lookup_captured (number : Nat) (values : List Text) (captures : List (Nat × Text))
    (place : Nat) (h : place < values.length) :
    (captured number values captures).lookup (number + place) = values[place]? := by
  -- later captures stand in front, so a capture of a smaller number stays visible
  have hearlier : ∀ (values : List Text) (number other : Nat) (captures : List (Nat × Text)),
      other < number →
        (captured number values captures).lookup other = captures.lookup other := by
    intro values
    induction values with
    | nil => intro number other captures _; rfl
    | cons value values ih =>
      intro number other captures hlt
      have hne : (other == number) = false := by simpa using hlt.ne
      rw [captured, ih _ _ _ (by omega), List.lookup_cons, hne]
  induction values generalizing number captures place with
  | nil => simp at h
  | cons value values ih =>
    rw [captured]
    cases place with
    | zero => rw [hearlier _ _ _ _ (by omega)]; simp
    | succ place =>
      rw [show number + (place + 1) = number + 1 + place by omega,
        ih (number + 1) _ place (by simpa using h), List.getElem?_cons_succ]

end Template

end EpcTag
