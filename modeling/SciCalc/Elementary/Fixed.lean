/-
  Elementary functions on fixed-point numbers.

  A number `x` is held as the integer nearest below `x · 2 ^ w`.  Each function first makes its argument
  small (by halving it, by square roots, by the half-angle formula), sums a power series and then undoes
  the reduction.  Undoing costs a few bits a step, so every function works with a margin of bits that it
  drops at the end: the result is off by a few units of `2 ^ -w` at most.
-/
import SciCalc.Number.Root

namespace SciCalc.Elementary

/-! ## Series -/

/-- The terms number `k` to `k + 2 ^ level - 1` of the series `Σ ± 1 / ((2 k + 1) qᵏ⁺¹)`, as if the first one
    were divided by `q` only: the product of the odd numbers, the product of the divisors `q`, and the sum
    times both products.  Two halves of a range are summed apart; the signs alternate if `alternate`. -/
def splitSeries (alternate : Bool) (q : Nat) : Nat → Nat → Nat × Nat × Int
  | 0, k => (2 * k + 1, q, 1)
  | level + 1, k =>
    let (b, p, s) := splitSeries alternate q level k
    let (c, r, t) := splitSeries alternate q level (k + 2 ^ level)
    (b * c, p * r, s * (c * r : Nat) + (if alternate && level = 0 then -1 else 1) * b * t)

/-- `1 / n ± 1 / (3 n³) + …` with `w` fractional bits. -/
def inverseSeries (alternate : Bool) (w n : Nat) : Int :=
  let level := (w / (2 * n.log2) + 1).log2 + 1
  let (b, q, t) := splitSeries alternate (n * n) level 0
  ((n * t) <<< w) / (b * q : Nat)

/-- The arc tangent of `1 / n`. -/
def arctanInverse (w n : Nat) : Int := inverseSeries true w n

/-- The inverse hyperbolic tangent of `1 / n`. -/
def artanhInverse (w n : Nat) : Int := inverseSeries false w n

/-- A power series with terms `t · xᵏ / (k (k + 1) …)`: each term is the one before times `x`, divided by
    the divisor that `divide` gives for its number. -/
def powerSeries (w : Nat) (x : Int) (divide : Nat → Nat) : Nat → Nat → Int → Int → Int
  | 0, _, _, sum => sum
  | fuel + 1, k, t, sum =>
    let t := ((t * x) >>> w).tdiv (divide k)
    if t = 0 || t = -1 then sum else powerSeries w x divide fuel (k + 1) t (sum + t)

/-- A series in odd powers over odd numbers, `x + x³ / 3 + …` with the square `s` of the argument, which is
    negative for alternating signs. -/
def oddSeries (w : Nat) (s : Int) : Nat → Nat → Int → Int → Int
  | 0, _, _, sum => sum
  | fuel + 1, k, t, sum =>
    let t := (t * s) >>> w
    if t = 0 || t = -1 then sum else oddSeries w s fuel (k + 2) t (sum + t / k)

/-! ## Constants -/

/-- The bits that a constant is computed with beyond those asked for. -/
def constantMargin : Nat := 24

/-- The ratio of a circle's circumference to its diameter: `16 arctan (1/5) - 4 arctan (1/239)`. -/
def pi (w : Nat) : Nat :=
  let v := w + constantMargin
  ((16 * arctanInverse v 5 - 4 * arctanInverse v 239) >>> constantMargin).toNat

/-- The natural logarithm of two: `18 artanh (1/26) - 2 artanh (1/4801) + 8 artanh (1/8749)`. -/
def ln2 (w : Nat) : Nat :=
  let v := w + constantMargin
  ((18 * artanhInverse v 26 - 2 * artanhInverse v 4801 + 8 * artanhInverse v 8749)
    >>> constantMargin).toNat

/-- The number of reduction steps that balances their cost against the length of the series. -/
def reductionSteps (w : Nat) : Nat := Number.sqrt w / 2 + 2

/-! ## Functions -/

/-- The square of a fixed-point number. -/
def squareFixed (w : Nat) (x : Nat) : Nat := (x * x) >>> w

/-- Repeats a step. -/
def iterate {α : Type} (f : α → α) : Nat → α → α
  | 0, a => a
  | n + 1, a => iterate f n (f a)

/-- The exponential of `x`, from 0 to 1: that of `x / 2 ^ r`, squared `r` times. -/
def expFixed (w x : Nat) : Nat :=
  let r := reductionSteps w
  let v := w + 2 * r + 16
  let y : Int := ((x <<< (v - w)) >>> r : Nat)
  let one : Int := (2 ^ v : Nat)
  let sum := powerSeries v y (fun k => k) (v + 1) 1 one one
  iterate (squareFixed v) r sum.toNat >>> (v - w)

/-- Cosine and sine of the double angle. -/
def doubleAngle (w : Nat) : Int × Int → Int × Int
  | (c, s) => ((c * c - s * s) >>> w, (2 * c * s) >>> w)

/-- Cosine and sine of `x`, from 0 to 2: those of `x / 2 ^ r`, the angle doubled `r` times. -/
def cosSinFixed (w x : Nat) : Int × Int :=
  let r := reductionSteps w
  let v := w + 2 * r + 16
  let y : Int := ((x <<< (v - w)) >>> r : Nat)
  let one : Int := (2 ^ v : Nat)
  let square := -((y * y) >>> v)
  let cosine := powerSeries v square (fun k => (2 * k - 1) * (2 * k)) (v + 1) 1 one one
  let sine := powerSeries v square (fun k => (2 * k) * (2 * k + 1)) (v + 1) 1 y y
  let (c, s) := iterate (doubleAngle v) r (cosine, sine)
  (c >>> (v - w), s >>> (v - w))

/-- The tangent of half the angle with the tangent `x`. -/
def halfAngle (w : Nat) (x : Nat) : Nat :=
  let root := Number.sqrt ((1 <<< (2 * w)) + x * x)
  (x <<< w) / ((1 <<< w) + root)

/-- The arc tangent of `x`, from 0 to 1. -/
def arctanFixed (w x : Nat) : Nat :=
  let r := reductionSteps w
  let v := w + 2 * r + 16
  let y := iterate (halfAngle v) r (x <<< (v - w))
  let t : Int := y
  (oddSeries v (-((t * t) >>> v)) (v + 1) 3 t t).toNat <<< r >>> (v - w)

/-- The square root of a fixed-point number. -/
def rootFixed (w x : Nat) : Nat := Number.sqrt (x <<< w)

/-- The natural logarithm of `x`, from 1/2 to 2: that of its `2 ^ r`-th root, by
    `ln y = 2 artanh ((y - 1) / (y + 1))`. -/
def lnFixed (w x : Nat) : Int :=
  let r := reductionSteps w
  let v := w + 2 * r + 16
  let y := iterate (rootFixed v) r (x <<< (v - w))
  let one : Int := (1 <<< v : Nat)
  let t := ((y - one) <<< v) / (y + one)
  (2 * oddSeries v ((t * t) >>> v) (v + 1) 3 t t) <<< r >>> (v - w)

/-! ## The Euler–Mascheroni constant -/

/-- The sums `Σ (nᵏ / k!)²` and `Σ (nᵏ / k!)² Hₖ` with the harmonic numbers `Hₖ`. -/
def besselSums (n w : Nat) : Nat → Nat → Nat → Nat → Nat → Nat → Nat × Nat
  | 0, _, _, _, a, b => (a, b)
  | fuel + 1, k, t, u, a, b =>
    let t := t * (n * n) / (k * k)
    let u := (u * (n * n) / k + t) / k
    if t = 0 && u = 0 then (a, b) else besselSums n w fuel (k + 1) t u (a + t) (b + u)

/-- The Euler–Mascheroni constant by the quotient of the two sums less the logarithm of `n = 2 ^ h`; its
    error is of the order of `e ^ (-4 n)`. -/
def eulerGamma (w : Nat) : Nat :=
  let h := (w / 5).log2 + 1
  let n := 2 ^ h
  let v := w + 32 + h
  let (a, b) := besselSums n v (16 * n + 64) 1 (1 <<< v) 0 (1 <<< v) 0
  ((b <<< v) / a - h * ln2 v) >>> (v - w)

end SciCalc.Elementary
