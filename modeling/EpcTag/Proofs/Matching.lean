-- SUMMARY: Search over runs of characters of one class: how far a repetition goes, and when it backtracks.
import EpcTag.Pattern.Basic
import EpcTag.Proofs.Numeral
import Mathlib.Data.List.TakeWhile

/-!
# Runs in a search

A repetition of a character class tries the longest run first and gives
characters back if what follows fails. Where what follows cannot start with a
character of the class, giving back is in vain, so the repetition matches the
whole run or nothing. The search then needs no backtracking at all.
-/

namespace EpcTag.Pattern

variable {α : Type}

namespace State

/-- The state in which `count` more characters have been consumed. -/
def moved (state : State) (count : Nat) : State :=
  { state with rest := state.rest.drop count, atStart := state.atStart && count == 0 }

@[simp] theorem moved_rest (state : State) (count : Nat) :
    (state.moved count).rest = state.rest.drop count := rfl

@[simp] theorem moved_captures (state : State) (count : Nat) :
    (state.moved count).captures = state.captures := rfl

@[simp] theorem moved_zero (state : State) : state.moved 0 = state := by
  simp [moved]

theorem moved_moved (state : State) (first second : Nat) :
    (state.moved first).moved second = state.moved (first + second) := by
  simp only [moved, List.drop_drop, State.mk.injEq, true_and, and_true]
  cases first <;> cases second <;> simp

end State

/-- The characters at the start of a state's text that are in a class. -/
def State.run (state : State) (class_ : CharClass) : Text := state.rest.takeWhile class_.has

/-- A continuation that fails wherever the text goes on with a character of a kind. -/
def Refuses (k : State → Option α) (kind : Char → Bool) : Prop :=
  ∀ state c rest, state.rest = c :: rest → kind c = true → k state = none

@[simp] theorem search_empty (state : State) (k : State → Option α) :
    empty.search state k = k state := rfl

theorem search_seq (first second : Pattern) (state : State) (k : State → Option α) :
    (seq first second).search state k = first.search state fun next => second.search next k := rfl

theorem search_alt (left right : Pattern) (state : State) (k : State → Option α) :
    (alt left right).search state k = (left.search state k).or (right.search state k) := by
  rw [search]
  cases left.search state k <;> rfl

/-! ## One class -/

theorem search_one_of_has {class_ : CharClass} {state : State} {c : Char} {rest : Text}
    (hrest : state.rest = c :: rest) (h : class_.has c = true) (k : State → Option α) :
    (one class_).search state k = k (state.moved 1) := by
  simp [search, hrest, h, State.moved]

/-- A class at the end of the text, or in front of another character, fails. -/
theorem search_one_of_not_has {class_ : CharClass} {state : State}
    (h : ∀ c rest, state.rest = c :: rest → class_.has c = false) (k : State → Option α) :
    (one class_).search state k = none := by
  unfold search
  split
  · rfl
  · next c rest hrest => rw [h c rest hrest]; simp

theorem exactly_one (class_ : CharClass) (count : Nat) (state : State) (k : State → Option α) :
    exactly (fun s j => (one class_).search s j) count state k =
      if count ≤ (state.run class_).length then k (state.moved count) else none := by
  induction count generalizing state with
  | zero => simp [exactly]
  | succ count ih =>
    cases hrest : state.rest with
    | nil =>
      rw [exactly, search_one_of_not_has (by simp [hrest])]
      simp [State.run, hrest]
    | cons c rest =>
      by_cases hc : class_.has c = true
      · rw [exactly, search_one_of_has hrest hc, ih, State.moved_moved, Nat.add_comm 1 count]
        simp [State.run, hrest, hc]
      · rw [exactly, search_one_of_not_has (by simpa [hrest] using hc)]
        simp [State.run, hrest, hc]

theorem atMost_zero (step : Step α) (fuel : Nat) (state : State) (k : State → Option α) :
    atMost step fuel (some 0) state k = k state := by
  cases fuel <;> rfl

/-- A row of at most `most` characters that what follows refuses is the whole run. -/
theorem atMost_one {class_ : CharClass} {k : State → Option α} (hk : Refuses k class_.has)
    {fuel : Nat} {state : State} (hfuel : state.rest.length < fuel) (most : Option Nat) :
    atMost (fun s j => (one class_).search s j) fuel most state k =
      if most.all ((state.run class_).length ≤ ·) then k (state.moved (state.run class_).length)
      else none := by
  -- on the fuel, of which there is always more than characters are left
  induction fuel generalizing state most with
  | zero => omega
  | succ fuel ih =>
    by_cases hmost : most = some 0
    · -- none may be taken: what follows is asked at once, and it refuses if the run goes on
      subst hmost
      rw [atMost_zero]
      cases hrest : state.rest with
      | nil => simp [State.run, hrest]
      | cons c rest =>
        by_cases hc : class_.has c = true
        · simp [State.run, hrest, hc, hk state c rest hrest hc]
        · simp [State.run, hrest, hc]
    · rw [atMost]
      swap
      · exact hmost
      cases hrest : state.rest with
      | nil =>
        rw [search_one_of_not_has (by simp [hrest])]
        simp [State.run, hrest]
      | cons c rest =>
        by_cases hc : class_.has c = true
        · -- one character is taken; if the others fail, so does giving this one back
          have hlen : (state.moved 1).rest.length < fuel := by
            simp [hrest] at hfuel ⊢
            omega
          have hshort : (state.moved 1).rest.length < state.rest.length := by simp [hrest]
          have hrun : (state.run class_).length = 1 + ((state.moved 1).run class_).length := by
            simp [State.run, hrest, hc, Nat.add_comm]
          have hall : (most.map (· - 1)).all (((state.moved 1).run class_).length ≤ ·) =
              most.all ((state.run class_).length ≤ ·) := by
            cases most with
            | none => rfl
            | some m =>
              have hm : m ≠ 0 := by simpa using hmost
              simp only [Option.map_some, Option.all_some, hrun]
              exact decide_eq_decide.mpr (by omega)
          rw [search_one_of_has hrest hc]
          simp only [hrest ▸ hshort, if_true]
          rw [ih hlen, hall, State.moved_moved, ← hrun, hk state c rest hrest hc]
          split <;> simp_all
        · rw [search_one_of_not_has (by simpa [hrest] using hc)]
          simp [State.run, hrest, hc]

/-- The run of a text goes on behind its first characters. -/
theorem length_takeWhile_drop {p : Char → Bool} {count : Nat} {text : Text}
    (h : count ≤ (text.takeWhile p).length) :
    (text.takeWhile p).length = count + ((text.drop count).takeWhile p).length := by
  induction count generalizing text with
  | zero => simp
  | succ count ih =>
    cases text with
    | nil => simp at h
    | cons c text =>
      by_cases hc : p c = true
      · simp only [List.takeWhile_cons, hc, if_true, List.length_cons] at h ⊢
        rw [ih (by omega), List.drop_succ_cons]
        omega
      · simp [hc] at h

/-- A repetition whose characters what follows refuses matches the whole run. -/
theorem search_repeated_one {class_ : CharClass} {k : State → Option α}
    (hk : Refuses k class_.has) (state : State) {least : Nat} {most : Option Nat}
    (hmost : most.all (least ≤ ·)) :
    (repeated (one class_) least most).search state k =
      if least ≤ (state.run class_).length ∧ most.all ((state.run class_).length ≤ ·) then
        k (state.moved (state.run class_).length)
      else none := by
  rw [search, exactly_one]
  by_cases hleast : least ≤ (state.run class_).length
  · have hrun : (state.run class_).length =
        least + ((state.moved least).run class_).length := length_takeWhile_drop hleast
    rw [if_pos hleast, atMost_one hk (by omega), State.moved_moved, ← hrun]
    have hall : (most.map (· - least)).all (((state.moved least).run class_).length ≤ ·) =
        most.all ((state.run class_).length ≤ ·) := by
      cases most with
      | none => rfl
      | some m =>
        have hm : least ≤ m := by simpa using hmost
        simp only [Option.map_some, Option.all_some, hrun]
        exact decide_eq_decide.mpr (by omega)
    simp [hall, hleast]
  · simp [hleast]

/-- A repetition of a fixed number of characters takes that many of the run. -/
theorem search_repeated_exactly (class_ : CharClass) (count : Nat) (state : State)
    (k : State → Option α) :
    (repeated (one class_) count (some count)).search state k =
      if count ≤ (state.run class_).length then k (state.moved count) else none := by
  rw [search, exactly_one]
  simp [atMost_zero]

/-! ## Decimal numbers -/

/-- The class of the ten digits. -/
def digitClass : CharClass := ⟨false, [⟨'0', '9'⟩]⟩

/-- The class of the digits besides zero. -/
def leadingDigitClass : CharClass := ⟨false, [⟨'1', '9'⟩]⟩

/-- The pattern of a decimal number without leading zeros. -/
def number : Pattern :=
  .alt (.seq (.char '0') .empty)
    (.seq (.one leadingDigitClass) (.seq (.repeated (.one digitClass) 0 none) .empty))

@[simp] theorem has_digitClass (c : Char) : digitClass.has c = Text.isAsciiDigit c := by
  simp [digitClass, CharClass.has, Text.isAsciiDigit]

/-- The characters of the class are the decimal digits. -/
theorem all_has_digitClass_iff (text : Text) :
    text.all digitClass.has = true ↔ Numeral.Digits 10 text := by
  rw [show digitClass.has = Text.isAsciiDigit from funext has_digitClass,
    Numeral.all_isAsciiDigit_iff]

theorem has_leadingDigitClass (c : Char) :
    leadingDigitClass.has c = true ↔ Text.isAsciiDigit c = true ∧ c ≠ '0' := by
  have h1 : '1'.val.toNat = 49 := rfl
  have h9 : '9'.val.toNat = 57 := rfl
  have h0 : '0'.toNat = 48 := rfl
  simp only [leadingDigitClass, CharClass.has, Numeral.isAsciiDigit_iff, ne_eq, List.any_cons,
    List.any_nil, Bool.or_false, Bool.bne_false, Bool.and_eq_true, decide_eq_true_eq, Char.le_def,
    UInt32.le_iff_toNat_le, ← Char.toNat_inj]
  change '1'.val.toNat ≤ c.toNat ∧ c.toNat ≤ '9'.val.toNat ↔ _
  omega

/-- The text is a decimal number without leading zeros, if it consists of digits. -/
def IsNumber (text : Text) : Prop := text ≠ [] ∧ Numeral.NoLeadingZero text

instance (text : Text) : Decidable (IsNumber text) :=
  inferInstanceAs (Decidable (text ≠ [] ∧ (text = ['0'] ∨ text.head? ≠ some '0')))

theorem has_char (c d : Char) : CharClass.has ⟨false, [⟨c, c⟩]⟩ d = true ↔ d = c := by
  simp only [CharClass.has, List.any_cons, List.any_nil, Bool.or_false, Bool.bne_false,
    Bool.and_eq_true, decide_eq_true_eq]
  constructor
  · rintro ⟨hle, hge⟩
    exact Char.le_antisymm hge hle
  · rintro rfl
    exact ⟨Char.le_refl _, Char.le_refl _⟩

/-- A number that no digit follows is the whole run of digits. -/
theorem search_number {k : State → Option α} (hk : Refuses k Text.isAsciiDigit)
    (state : State) :
    number.search state k =
      if IsNumber (state.run digitClass) then k (state.moved (state.run digitClass).length)
      else none := by
  have hk' : Refuses k digitClass.has := by simpa [Refuses] using hk
  rw [number, search_alt, search_seq, search_seq, char]
  simp only [search_empty, search_seq]
  cases hrest : state.rest with
  | nil =>
    rw [search_one_of_not_has (by simp [hrest]), search_one_of_not_has (by simp [hrest])]
    simp [State.run, hrest, IsNumber]
  | cons c rest =>
    by_cases hzero : c = '0'
    · -- a zero is the number, and a digit behind it is refused
      subst hzero
      have hnot : ∀ d rest', state.rest = d :: rest' → leadingDigitClass.has d = false := by
        rw [hrest]
        rintro d rest' ⟨⟩
        decide
      have hrun : state.run digitClass = '0' :: rest.takeWhile digitClass.has := by
        simp [State.run, hrest, Text.isAsciiDigit]
      rw [search_one_of_has hrest (by decide), search_one_of_not_has hnot, Option.or_none, hrun]
      cases rest with
      | nil => simp [IsNumber, Numeral.NoLeadingZero]
      | cons d more =>
        by_cases hd : Text.isAsciiDigit d = true
        · have hnone : k (state.moved 1) = none := hk _ d more (by simp [hrest]) hd
          rw [if_neg (by simp [IsNumber, Numeral.NoLeadingZero, hd]), hnone]
        · simp [IsNumber, Numeral.NoLeadingZero, hd]
    · -- the first alternative is out, and the second one takes a leading digit and the run after it
      have hleft : ∀ d rest', state.rest = d :: rest' →
          CharClass.has ⟨false, [⟨'0', '0'⟩]⟩ d = false := by
        rw [hrest]
        rintro d rest' ⟨⟩
        exact Bool.eq_false_iff.mpr fun h => hzero ((has_char _ _).mp h)
      rw [search_one_of_not_has hleft, Option.none_or]
      by_cases hc : Text.isAsciiDigit c = true
      · have hlead : leadingDigitClass.has c = true := (has_leadingDigitClass c).mpr ⟨hc, hzero⟩
        have hrun : state.run digitClass = c :: (state.moved 1).run digitClass := by
          simp [State.run, hrest, hc]
        have hnumber : IsNumber (state.run digitClass) := by
          simp [IsNumber, hrun, Numeral.NoLeadingZero, hzero]
        rw [search_one_of_has hrest hlead, search_repeated_one hk' _ rfl, if_pos (by simp),
          if_pos hnumber, State.moved_moved, hrun, List.length_cons, Nat.add_comm]
      · have hrun : state.run digitClass = [] := by simp [State.run, hrest, hc]
        have hnot : ∀ d rest', state.rest = d :: rest' → leadingDigitClass.has d = false := by
          rw [hrest]
          rintro d rest' ⟨⟩
          exact Bool.eq_false_iff.mpr fun h => hc ((has_leadingDigitClass c).mp h).1
        rw [search_one_of_not_has hnot]
        simp [hrun, IsNumber]

/-! ## Character sets -/

/-- The pattern of any number of characters of a class. -/
def star (class_ : CharClass) : Pattern := .seq (.repeated (.one class_) 0 none) .empty

/-- Behind a run stands what the run leaves of the text. -/
theorem drop_length_takeWhile (p : Char → Bool) (text : Text) :
    text.drop (text.takeWhile p).length = text.dropWhile p := by
  have h := @List.drop_left _ (text.takeWhile p) (text.dropWhile p)
  rwa [List.takeWhile_append_dropWhile] at h

/-- A starred class matches exactly the texts of its characters. -/
theorem matchesWhole_star (class_ : CharClass) (text : Text) :
    (star class_).matchesWhole text = text.all class_.has := by
  have hk : Refuses (fun state : State => if state.rest.isEmpty then some () else none)
      class_.has := by
    rintro state c rest hrest -
    simp [hrest]
  rw [matchesWhole, star, search_seq]
  simp only [search_empty]
  rw [search_repeated_one hk _ rfl, if_pos (by simp)]
  rw [State.moved_rest, State.run, State.initial, drop_length_takeWhile]
  by_cases h : ∀ c ∈ text, class_.has c = true
  · rw [List.dropWhile_eq_nil_iff.mpr h, List.all_eq_true.mpr h]
    rfl
  · have hne : text.dropWhile class_.has ≠ [] := fun hnil => h (List.dropWhile_eq_nil_iff.mp hnil)
    have hall : text.all class_.has = false :=
      Bool.eq_false_iff.mpr fun hall => h (List.all_eq_true.mp hall)
    simp [hne, hall]

end EpcTag.Pattern
