/-
  The gamma function.

  Far from zero the logarithm of the gamma function is
  `(z - 1/2) ln z - z + ln (2 π) / 2 + Σ B₂ₖ / (2 k (2 k - 1) z²ᵏ⁻¹)` with the Bernoulli numbers `B₂ₖ`.  A
  point that is not far enough is moved to the right, `Γ (z + n) = z (z + 1) … (z + n - 1) Γ (z)`, and one
  left of the imaginary axis is reflected, `Γ (z) Γ (1 - z) sin (π z) = π`.  A real number is a point
  without an imaginary part.
-/
import SciCalc.Elementary.Plane

namespace SciCalc.Elementary

open Binary

/-! ## The series -/

/-- One step of the triangle of tangent numbers: from the numbers number `j` on of row `k - 1`, given the one
    before them in row `k`, those of row `k`. -/
def tangentStep (k : Nat) : Nat → Nat → List Nat → List Nat
  | _, _, [] => []
  | j, before, t :: rest =>
    let t := (j - k) * before + (j + 2 - k) * t
    t :: tangentStep k (j + 1) t rest

/-- The tangent numbers that are left after the first `k - 1` ones, from row `k - 1` of the triangle. -/
def tangentRows : Nat → Nat → List Nat → List Nat
  | 0, _, _ => []
  | _ + 1, _, [] => []
  | fuel + 1, k, t :: rest =>
    t :: tangentRows fuel (k + 1) (tangentStep k k 0 rest)

/-- The factorials `0!`, `1!`, … as many as asked for, from the number `k` on, `k!` being known. -/
def factorials : Nat → Nat → Nat → List Nat
  | 0, _, _ => []
  | count + 1, k, f => f :: factorials count (k + 1) (f * (k + 1))

/-- The first tangent numbers, the coefficients 1, 2, 16, 272, … of the tangent. -/
def tangentNumbers (count : Nat) : List Nat := tangentRows count 2 (factorials count 0 1)

/-- The coefficients of the series: `B₂ₖ / (2 k (2 k - 1))`, which the tangent number `Tₖ` makes
    `± Tₖ / (4ᵏ (4ᵏ - 1) (2 k - 1))`, from the number `k` on. -/
def stirlingTerms (f : Format) : Nat → List Nat → List Binary
  | _, [] => []
  | k, t :: rest =>
    f.quotient (k % 2 = 0) t (4 ^ k * (4 ^ k - 1) * (2 * k - 1)) 0 :: stirlingTerms f (k + 1) rest

/-! ## Far from zero -/

namespace Point

/-- The bits of the larger part of a point. -/
def magnitude (z : Point) : Int := max (part z.re) (part z.im)
where
  /-- The exponent of the least power of two above a part. -/
  part : Binary → Int
    | .finite _ m e => if m = 0 then 0 else size m e
    | _ => 0

/-- The largest count of leading zeros behind the point of the parts. -/
def smallness (z : Point) : Nat := (max (part z.re) (part z.im)).toNat
where
  /-- The count of leading zeros of a part. -/
  part : Binary → Int
    | .finite _ m e => if m = 0 then 0 else -size m e
    | _ => 0

/-- The product with a real number. -/
def scale (f : Format) (x : Binary) (z : Point) : Point := ⟨f.mul x z.re, f.mul x z.im⟩

/-- The reciprocal of a point other than zero. -/
def reciprocal (f : Format) (z : Point) : Point :=
  let n := z.norm f
  ⟨f.div z.re n, opposite (f.div z.im n)⟩

/-- The exponential function. -/
def expWide (w : Nat) (z : Point) : Point :=
  let (c, s) := cosSinWide w z.im
  scale (Format.ofBits w) (Elementary.expWide w z.re) ⟨c, s⟩

/-- The logarithm of a point on the right, far from the unit circle. -/
def lnWide (w : Nat) (z : Point) : Point :=
  let im := if z.im.isZero then .zero
    else if z.re.isZero then
      (if z.im.isNegative then opposite (Elementary.half (piWide w)) else Elementary.half (piWide w))
    else angleWide w z.im z.re
  ⟨Elementary.half (Elementary.lnWide w (z.norm (Format.ofBits w))), im⟩

/-- The sum of coefficients times `power`, each time multiplied by `square` once more. -/
def powerSum (f : Format) (square : Point) : List Binary → Point → Point
  | [], _ => ⟨.zero, .zero⟩
  | c :: cs, power => (power.scale f c).add f (powerSum f square cs (power.mul f square))

/-- The logarithm of the gamma function far from zero, with `w` bits and `count` terms of the series. -/
def lnGammaFar (w count : Nat) (z : Point) : Point :=
  let f := Format.ofBits w
  let u := z.reciprocal f
  let series := powerSum f (u.mul f u) (stirlingTerms f 1 (tangentNumbers count)) u
  let main := (z.sub f ⟨Elementary.half one, .zero⟩).mul f (z.lnWide w)
  let constant := Elementary.half (Elementary.lnWide w (Elementary.double (piWide w)))
  ((main.sub f z).add f ⟨constant, .zero⟩).add f series

/-! ## The right half plane -/

/-- The product `z (z + 1) …` with so many factors, times `acc`. -/
def risingProduct (f : Format) : Nat → Point → Point → Point
  | 0, _, acc => acc
  | count + 1, z, acc => risingProduct f count (z.add f unit) (acc.mul f z)

/-- The gamma function on the right half plane with `w` bits. -/
def gammaRight (w : Nat) (z : Point) : Point :=
  let w := w + z.smallness
  let level := w.log2
  let large : Int := level + 1
  let count := if z.magnitude < large then 2 ^ level - (z.re.floor?.getD 0).toNat else 0
  let g := Format.ofBits (w + level + 16)
  let moved : Point := ⟨g.add z.re (g.ofInt count), z.im⟩
  let k := (moved.magnitude - level).toNat
  let v := w + moved.magnitude.toNat + width moved.magnitude.toNat + 32
  let value := (lnGammaFar v (w / (2 * (k + 3)) + 2) moved).expWide v
  if count = 0 then value
  else value.mul g ((risingProduct g count z unit).reciprocal g)

/-! ## The whole plane -/

/-- `sin (π z)`, the real part of `z` reduced to at most half of one first. -/
def sinPi (w : Nat) (z : Point) : Point :=
  let f := Format.ofBits w
  let n := ((Format.ofBits (w + z.magnitude.toNat)).add z.re (Elementary.half one)).floor?.getD 0
  let whole := piWide w
  let (c, s) := cosSinWide w (f.mul whole (f.sub z.re (f.ofInt n)))
  let (ch, sh) := coshSinhWide w (f.mul whole z.im)
  let r : Point := ⟨f.mul s ch, f.mul c sh⟩
  if n % 2 = 0 then r else r.neg

/-- The gamma function with `w` bits. -/
def gammaWide (w : Nat) (z : Point) : Point :=
  if !z.re.isNegative || z.re.isZero then gammaRight w z
  else
    let w := w + z.smallness + 8
    let f := Format.ofBits (w + z.magnitude.toNat + 8)
    let sine := sinPi (w + z.magnitude.toNat + width z.magnitude.toNat + 8) z
    let product := sine.mul f (gammaRight w (unit.sub f z))
    (product.reciprocal f).scale (Format.ofBits w) (piWide w)

/-- The gamma function off the real axis; that of a point that is not finite is undefined. -/
def gamma (f : Format) (z : Point) : Point :=
  if z.re.isFinite && z.im.isFinite then
    let r := z.gammaWide (working f)
    ⟨settle f r.re, settle f r.im⟩
  else ⟨.nan, .nan⟩

end Point

/-- The gamma function of a real number.  It has poles at zero and at the negative integers; of a value with
    an exponent that no one can write down only the size is kept. -/
def gamma (f : Format) (x : Binary) : Except Fault Binary :=
  match x with
  | .nan => .ok .nan
  | .infinite s => .ok (if s then .nan else .infinite false)
  | .finite s m e =>
    if (s || m = 0) && x.isIntegral then .error (.domain "gamma function pole")
    else if 14400 < size m e then .ok (.finite false 1 (if s then -beyond else beyond))
    else .ok (settle f (Point.gammaWide (working f) ⟨x, .zero⟩).re)

end SciCalc.Elementary
