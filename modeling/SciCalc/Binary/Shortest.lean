/-
  Decimal digits of binary numbers.

  All comparisons are exact: a point of a decimal grid and a number `m · 2 ^ e` are brought to a common
  scale by multiplying with powers of two and ten.

  `shortest` gives the fewest digits that read back as the same number: for 1, 2, 3, … digits the two grid
  points around the number are tried, the first grid with a point that rounds to the number wins, of two
  such points the nearer, of two equally near the even one.  `significant` gives a fixed count of digits,
  rounded to nearest.
-/
import SciCalc.Binary.Basic
import SciCalc.Number.Digits

namespace SciCalc.Binary

/-- How a tie between two decimal numbers is broken. -/
inductive DecimalTie where
  /-- To the even last digit. -/
  | toEven
  /-- Away from zero. -/
  | away
deriving DecidableEq

/-- The quotient rounded to the nearest natural number. -/
def divRound (tie : DecimalTie) (n d : Nat) : Nat :=
  let q := n / d
  let r := n % d
  if 2 * r < d then q
  else if d < 2 * r then q + 1
  else match tie with
    | .away => q + 1
    | .toEven => if q % 2 = 0 then q else q + 1

/-- The exponent of the leading decimal digit of `m · 2 ^ e`. -/
def leadingExponent (m : Nat) (e : Int) : Int :=
  if 0 ≤ e then (Number.digitCount (m <<< e.toNat) : Int) - 1
  else
    let shift := (-e).toNat
    let places := Number.digitCount (1 <<< shift)
    (Number.digitCount ((m * 10 ^ places) >>> shift) : Int) - 1 - places

/-- The factor that takes a number at binary exponent `e` to the common scale with the grid `10 ^ k`. -/
def numberScale (e k : Int) : Nat := (10 ^ (-k).toNat) <<< e.toNat

/-- The factor that takes a point of the grid `10 ^ k` to the common scale. -/
def gridScale (e k : Int) : Nat := (10 ^ k.toNat) <<< (-e).toNat

/-- The decimal coefficient with `count` digits nearest to `m · 2 ^ e`, and the exponent of its last
    digit. -/
def significant (tie : DecimalTie) (count m : Nat) (e : Int) : Nat × Int :=
  let k := leadingExponent m e - count + 1
  let c := divRound tie (m * numberScale e k) (gridScale e k)
  if c < 10 ^ count then (c, k) else (c / 10, k + 1)

/-- The point of the grid `10 ^ k` nearest to the number `v · 2 ^ e` among the two around it, if it lies
    between `low · 2 ^ e` and `high · 2 ^ e`; the ends belong to the interval if it is `closed`. -/
def gridPoint? (closed : Bool) (low v high : Nat) (e k : Int) : Option Nat :=
  let s := numberScale e k
  let g := gridScale e k
  let c := v * s / g
  let inside (point : Nat) : Bool :=
    if closed then low * s ≤ point * g && point * g ≤ high * s
    else low * s < point * g && point * g < high * s
  match inside c, inside (c + 1) with
  | true, true => some (divRound .toEven (v * s) g)
  | true, false => some c
  | false, true => some (c + 1)
  | false, false => none

/-- The shortest coefficient on the grids `10 ^ k`, `10 ^ (k - 1)`, …, and its exponent. -/
def shortestFrom (closed : Bool) (low v high : Nat) (e : Int) : Nat → Int → Nat × Int
  | 0, k => (v * numberScale e k / gridScale e k, k)
  | fuel + 1, k =>
    match gridPoint? closed low v high e k with
    | some c => (c, k)
    | none => shortestFrom closed low v high e fuel (k - 1)

/-- **The fewest digits that read back**: a decimal coefficient and its exponent for the positive number
    `m · 2 ^ e` of the format.  The numbers that round to it reach half a step to either side, downwards
    only a quarter if the mantissa is the least of full length. -/
def shortest (f : Format) (m : Nat) (e : Int) : Nat × Int :=
  let least := match f.range with
    | none => false
    | some (least, _) => e = least
  let below := if m = 2 ^ (f.precision - 1) && !least then 1 else 2
  shortestFrom (m % 2 = 0) (4 * m - below) (4 * m) (4 * m + 2) (e - 2)
    (f.precision * 30103 / 100000 + 2) (leadingExponent m e)

end SciCalc.Binary
