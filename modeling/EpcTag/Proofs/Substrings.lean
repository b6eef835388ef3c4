-- SUMMARY: The two forms of a substring call, with a length and without, and when they agree.
import EpcTag.Proofs.Rules

/-!
# Substrings

A substring call takes the rest of a text from a start on, or a piece of a given length from
it. A start that is negative counts from the end of the text. The end of the piece is the
sum of start and length, and it is read as a place in the same way, so it lies where the
length says as long as the sum counts from the same edge as the start does. A piece that
would reach the end of the text from a negative start has a sum that is not negative, is
counted from the front and mostly comes out empty.
-/

namespace EpcTag

namespace Text

variable {text : Text} {start : Int} {length total : Nat}

/-! ## Places -/

/-- The end of a piece lies where its length says: it counts from the front as the start
    does, or from the back as a start within the text does, or it lies at or behind the end
    of the text; or there is nothing to take. -/
def EndsInPlace (total : Nat) (start : Int) (length : Nat) : Prop :=
  0 ≤ start ∨ (-total ≤ start ∧ start + length < 0) ∨ total ≤ start + length ∨
    length = 0 ∨ total = 0

instance (total : Nat) (start : Int) (length : Nat) : Decidable (EndsInPlace total start length) :=
  inferInstanceAs (Decidable (_ ∨ _))

/-- A piece never comes out longer than its length. -/
theorem place_sub_place_le (total : Nat) (start : Int) (length : Nat) :
    place total (start + length) - place total start ≤ length := by
  unfold place
  split <;> split <;> omega

/-- A piece has as many characters as there are, up to its length, exactly if its end lies
    in place. -/
theorem place_sub_place_iff :
    min (place total (start + length) - place total start) (total - place total start) =
        min length (total - place total start) ↔
      EndsInPlace total start length := by
  unfold EndsInPlace place
  split <;> split <;> omega

/-! ## Pieces -/

theorem length_sliceFrom (text : Text) (start : Int) :
    (sliceFrom text start).length = text.length - place text.length start :=
  List.length_drop

theorem slice_eq_take (text : Text) (start stop : Int) :
    slice text start stop =
      (sliceFrom text start).take (place text.length stop - place text.length start) :=
  List.drop_take

/-- A piece starts as the rest from the same place does. -/
theorem slice_prefix (text : Text) (start : Int) (length : Nat) :
    slice text start (start + length) <+: (sliceFrom text start).take length := by
  rw [slice_eq_take]
  exact List.take_prefix_take_left (place_sub_place_le text.length start length)

theorem slice_eq_take_iff :
    slice text start (start + length) = (sliceFrom text start).take length ↔
      EndsInPlace text.length start length := by
  rw [slice_eq_take, List.take_eq_take_iff, length_sliceFrom, place_sub_place_iff]

end Text

/-! ## Calls -/

namespace RuleCall

variable {lookup : TableLookup} {context : Context} {value start count : RuleParam} {first : Int}
  {length : Nat}

/-- The two forms of a substring call have the same errors. Where they have results, the
    piece starts as the rest does, and it is as much of the rest as its length says exactly if
    its end lies in place. -/
theorem eval_substring_take_iff (hstart : start.integer context = .ok first)
    (hcount : count.integer context = .ok (length : Int)) :
    (∀ error, (RuleCall.substring value start (some count)).eval lookup context = .error error ↔
        (RuleCall.substring value start none).eval lookup context = .error error) ∧
      ∀ text, (value.value context).bind Scalar.operand = .ok text →
        ∃ rest piece,
          (RuleCall.substring value start none).eval lookup context = .ok (.text rest) ∧
          (RuleCall.substring value start (some count)).eval lookup context = .ok (.text piece) ∧
          rest = text.drop (Text.place text.length first) ∧
          piece <+: rest.take length ∧
          (piece = rest.take length ↔ Text.EndsInPlace text.length first length) := by
  rw [eval_substring_rest hstart, eval_substring_piece hstart hcount]
  constructor
  · intro error
    cases (value.value context).bind Scalar.operand with
    | error cause => rfl
    | ok text => constructor <;> (intro h; cases h)
  · intro text htext
    rw [htext]
    exact ⟨_, _, rfl, rfl, rfl, Text.slice_prefix text first length, Text.slice_eq_take_iff⟩

/-- Three of the last four digits. -/
theorem eval_substring_take_iff_lastFour :
    (RuleParam.literal "-4").integer [] = .ok (-4) ∧ (RuleParam.literal "3").integer [] = .ok 3 ∧
      Text.EndsInPlace 5 (-4) 3 ∧
      ∃ rest piece,
        (RuleCall.substring (.literal "12345") (.literal "-4") none).eval .empty [] =
          .ok (.text rest) ∧
        (RuleCall.substring (.literal "12345") (.literal "-4") (some (.literal "3"))).eval .empty [] =
          .ok (.text piece) ∧
        rest = "2345".toList ∧ piece = rest.take 3 := by
  have hstart : (RuleParam.literal "-4").integer [] = .ok (-4) := rfl
  have hcount : (RuleParam.literal "3").integer [] = .ok 3 := rfl
  have hplace : Text.EndsInPlace 5 (-4) 3 := by decide
  obtain ⟨rest, piece, hrest, hpiece, hdrop, -, hiff⟩ :=
    (@eval_substring_take_iff .empty [] (.literal "12345") _ _ (-4) 3 hstart hcount).2 "12345" rfl
  exact ⟨hstart, hcount, hplace, rest, piece, hrest, hpiece, hdrop, hiff.mpr hplace⟩

/-- The last two digits, asked for with their number, are none. -/
theorem not_eval_substring_take :
    ¬ ∀ (lookup : TableLookup) (context : Context) (value start count : RuleParam) (text rest : Text)
      (first : Int) (length : Nat), value.value context = .ok (.text text) →
      start.integer context = .ok first → count.integer context = .ok (length : Int) →
      (RuleCall.substring value start none).eval lookup context = .ok (.text rest) →
      (RuleCall.substring value start (some count)).eval lookup context =
        .ok (.text (rest.take length)) := by
  intro hall
  have hsame := hall .empty [] (.literal "12345") (.literal "-2") (.literal "2") "12345" "45" (-2) 2
    rfl rfl rfl rfl
  have hempty : (RuleCall.substring (.literal "12345") (.literal "-2") (some (.literal "2"))).eval
      .empty [] = .ok (.text []) := rfl
  rw [hempty] at hsame
  cases hsame

end RuleCall

end EpcTag
