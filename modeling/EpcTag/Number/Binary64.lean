-- SUMMARY: Binary floating point numbers: their whole part, and the shortest decimal text that reads back.
import EpcTag.Text.Basic

/-!
# Floating point numbers

A finite double is a sign and a product `mantissa * 2 ^ exponent`. The library
does two things with one: it cuts it to its whole part, and it writes it with
the fewest digits that read back to it. All of it is exact arithmetic on
natural numbers.
-/

namespace EpcTag

/-- The number `mantissa * 2 ^ exponent`, negated if `negative`. `halved` says
    that the next smaller double is at half the distance of the next larger. -/
structure Binary64 where
  negative : Bool
  mantissa : Nat
  exponent : Int
  halved : Bool
  deriving DecidableEq, Repr

namespace Binary64

/-- The finite double with the given bits; `none` for an infinity or no number. -/
def ofBits? (bits : UInt64) : Option Binary64 :=
  let n : Nat := bits.toNat
  let negative : Bool := n / Nat.pow 2 63 == 1
  let scale : Nat := n / Nat.pow 2 52 % 2048
  let fraction : Nat := n % Nat.pow 2 52
  if scale = 2047 then none
  else if scale = 0 then some ⟨negative, fraction, -1074, false⟩
  else some ⟨negative, Nat.pow 2 52 + fraction, (scale : Int) - 1075, fraction == 0 && 1 < scale⟩

/-- The absolute value as a fraction of natural numbers. -/
def ratio (x : Binary64) : Nat × Nat :=
  if x.exponent < 0 then (x.mantissa, Nat.pow 2 (-x.exponent).toNat)
  else (x.mantissa * Nat.pow 2 x.exponent.toNat, 1)

/-- The whole part: the number cut toward zero. -/
def truncate (x : Binary64) : Int :=
  let whole : Int := (x.ratio.1 / x.ratio.2 : Nat)
  if x.negative then -whole else whole

/-! ## Shortest digits -/

/-- The least `t` from `start` on with `den ≤ num * 10 ^ t`, tried `fuel` times. -/
def leastScale (num den : Nat) : Nat → Nat → Nat
  | 0, start => start
  | fuel + 1, start =>
    if den ≤ num * Nat.pow 10 start then start else leastScale num den fuel (start + 1)

/-- The exponent of the leading decimal digit of the fraction `num / den`. -/
def leadingExponent (num den : Nat) : Int :=
  if den ≤ num then ((Nat.toDigits 10 (num / den)).length : Int) - 1
  else -(leastScale num den 400 1 : Int)

/-- Of the two neighbours of `num / den` on the grid of multiples of
    `10 ^ grid`, the nearer one that reads back: that lies between the middles to
    the neighbouring doubles, the middles included for an even mantissa. The
    result counts grid steps. -/
def onGrid? (x : Binary64) (grid : Int) : Option Nat :=
  let (num, den) := x.ratio
  -- one unit is a quarter of the distance to the next larger double
  let unit : Nat × Nat := if x.exponent < 0 then (1, den) else (Nat.pow 2 x.exponent.toNat, 1)
  let up := if grid < 0 then 1 else Nat.pow 10 grid.toNat
  let down := if grid < 0 then Nat.pow 10 (-grid).toNat else 1
  let steps := num * down / (den * up)
  -- everything over the common denominator `4 * den * down`
  let offset (k : Nat) : Nat := 4 * k * up * den
  let here := 4 * num * down
  let above := here + 2 * unit.1 * down
  let below := here - (if x.halved then 1 else 2) * unit.1 * down
  let reads (k : Nat) : Bool :=
    if x.mantissa % 2 = 0 then below ≤ offset k && offset k ≤ above
    else below < offset k && offset k < above
  let low := steps
  let high := steps + 1
  match reads low, reads high with
  | true, true =>
    let toLow := here - offset low
    let toHigh := offset high - here
    if toLow < toHigh then some low
    else if toHigh < toLow then some high
    else if low % 2 = 0 then some low else some high
  | true, false => some low
  | false, true => some high
  | false, false => none

/-- The digits of the shortest decimal that reads back and the exponent of the
    last of them, looking at grids from coarse to fine. -/
def shortest (x : Binary64) (lead : Int) : Nat → Nat × Int
  | 0 => (0, 0)
  | fuel + 1 =>
    let grid : Int := lead - (17 - (fuel + 1 : Nat) : Int)
    match onGrid? x grid with
    | some n => (n, grid)
    | none => shortest x lead fuel

/-- Digits without the zeros at their end. -/
def significant (digits : Text) : Text := Text.dropWhileEnd (· == '0') digits

/-- A number with a point between its digits from `10 ^ -4` up to below `10 ^ 16`,
    where at least one digit stands on either side of the point; any other number
    with an exponent of at least two digits behind its digits. -/
def text (x : Binary64) : Text :=
  let sign : Text := if x.negative then ['-'] else []
  if x.mantissa = 0 then sign ++ "0.0".toList
  else
    let (n, grid) := shortest x (leadingExponent x.ratio.1 x.ratio.2) 17
    let written := Text.ofNat n
    let digits := significant written
    let point : Int := grid + written.length
    sign ++
      if -4 < point ∧ point ≤ 16 then
        if point ≤ 0 then "0.".toList ++ List.replicate (-point).toNat '0' ++ digits
        else if digits.length ≤ point.toNat then
          digits ++ List.replicate (point.toNat - digits.length) '0' ++ ".0".toList
        else digits.take point.toNat ++ '.' :: digits.drop point.toNat
      else
        let exponent := point - 1
        let size := Text.ofNat exponent.natAbs
        let mark := if exponent < 0 then '-' else '+'
        digits.take 1 ++ (if digits.length ≤ 1 then [] else '.' :: digits.drop 1) ++
          'e' :: mark :: (if size.length < 2 then '0' :: size else size)

end Binary64

end EpcTag
