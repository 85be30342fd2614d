/-
  Complex numbers with double components.

  The four operations are written out on the components; the transcendental functions derive from
  `exp (a + b i) = exp a (cos b + i sin b)` and from the logarithm of the magnitude and the angle.
-/
import SciCalc.Double.Functions

namespace SciCalc

/-- A complex number. -/
structure Complex where
  /-- The real part. -/
  re : Binary
  /-- The imaginary part. -/
  im : Binary
deriving DecidableEq, Inhabited

/-- An operation on doubles within an evaluation. -/
def ofFault {α : Type} (r : Except Fault α) : Except Failure α := r.mapError .fault

namespace Complex

open Double

/-- A real number as a complex one. -/
def ofReal (x : Binary) : Complex := ⟨x, .zero⟩

/-- The sum. -/
def add (z w : Complex) : Complex := ⟨Double.add z.re w.re, Double.add z.im w.im⟩

/-- The difference. -/
def sub (z w : Complex) : Complex := ⟨Double.sub z.re w.re, Double.sub z.im w.im⟩

/-- The product. -/
def mul (z w : Complex) : Complex :=
  ⟨Double.sub (Double.mul z.re w.re) (Double.mul z.im w.im),
    Double.add (Double.mul z.re w.im) (Double.mul z.im w.re)⟩

/-- The sum of the squares of the components. -/
def squaredMagnitude (z : Complex) : Binary :=
  Double.add (Double.mul z.re z.re) (Double.mul z.im z.im)

/-- The quotient; a divisor is zero if its squared magnitude is. -/
def div (z w : Complex) : Except Failure Complex :=
  let d := w.squaredMagnitude
  if d.isZero then .error (.divisionByZero .complexDivision)
  else
    .ok ⟨Double.div (Double.add (Double.mul z.re w.re) (Double.mul z.im w.im)) d,
      Double.div (Double.sub (Double.mul z.im w.re) (Double.mul z.re w.im)) d⟩

/-- The reciprocal. -/
def reciprocal (z : Complex) : Except Failure Complex :=
  let d := z.squaredMagnitude
  if d.isZero then .error (.divisionByZero .reciprocal)
  else .ok ⟨Double.div z.re d, Double.div z.im.neg d⟩

/-- The opposite. -/
def neg (z : Complex) : Complex := ⟨z.re.neg, z.im.neg⟩

/-- The reflection in the real axis. -/
def conjugate (z : Complex) : Complex := ⟨z.re, z.im.neg⟩

/-- Both components are zero. -/
def isZero (z : Complex) : Bool := z.re.isZero && z.im.isZero

/-- The components are equal. -/
def eq (z w : Complex) : Bool := z.re.eq w.re && z.im.eq w.im

/-- The imaginary part is smaller than the distance from one to the next double. -/
def isReal (z : Complex) : Bool := z.im.abs.lt epsilon

/-- The distance from zero. -/
def magnitude (z : Complex) : Binary := hypot z.re z.im

/-- The angle from the positive real axis. -/
def argument (z : Complex) : Binary := arctan2 z.im z.re

/-- The exponential function. -/
def exp (z : Complex) : Except Failure Complex := ofFault do
  let scale ← Double.exp z.re
  let c ← Double.cos z.im
  let s ← Double.sin z.im
  return ⟨Double.mul scale c, Double.mul scale s⟩

/-- The logarithm of the magnitude and the angle. -/
def ln (z : Complex) : Except Failure Complex :=
  let r := z.magnitude
  if r.isZero then .error (.numeric .logarithmOfZero)
  else do return ⟨← ofFault (Double.ln r), z.argument⟩

/-- The principal square root. -/
def sqrt (z : Complex) : Except Failure Complex := ofFault do
  let r := z.magnitude
  let x ← Double.root (Double.div (Double.add r z.re) two)
  let y ← Double.root (Double.div (Double.sub r z.re) two)
  return ⟨x, y.copySign z.im⟩

/-- The exponential of `i z`, or of `-i z` if `back`. -/
def expTurned (z : Complex) (back : Bool) : Except Failure Complex :=
  exp (if back then ⟨z.im, z.re.neg⟩ else ⟨z.im.neg, z.re⟩)

/-- The sine: `(exp (i z) - exp (-i z)) / 2 i`. -/
def sin (z : Complex) : Except Failure Complex := do
  let a ← z.expTurned false
  let b ← z.expTurned true
  (a.sub b).div ⟨.zero, two⟩

/-- The cosine: `(exp (i z) + exp (-i z)) / 2`. -/
def cos (z : Complex) : Except Failure Complex := do
  let a ← z.expTurned false
  let b ← z.expTurned true
  (a.add b).div ⟨two, .zero⟩

/-- The tangent. -/
def tan (z : Complex) : Except Failure Complex := do
  let s ← z.sin
  let c ← z.cos
  s.div c

/-- A power by repeated squaring of the base; `fuel` bounds the bits of the exponent. -/
def powNat : Nat → Nat → Complex → Complex → Complex
  | 0, _, _, acc => acc
  | fuel + 1, n, base, acc =>
    if n = 0 then acc
    else powNat fuel (n / 2) (base.mul base) (if n % 2 = 1 then acc.mul base else acc)

/-- An integer power; that to a negative exponent is the reciprocal of the positive one. -/
def integerPower (z : Complex) (n : Int) : Except Failure Complex :=
  let r := powNat (n.natAbs.log2 + 1) n.natAbs z ⟨Double.one, .zero⟩
  if n = 0 then .ok ⟨Double.one, .zero⟩ else if n < 0 then r.reciprocal else .ok r

/-- A power: by squaring if the exponent is an integer, and else `exp (w ln z)`. -/
def power (z w : Complex) : Except Failure Complex :=
  match w.im.isZero && w.re.isIntegral, w.re.floor? with
  | true, some n => z.integerPower n
  | _, _ =>
    if z.isZero then
      if !w.re.isNaN && !w.re.isNegative && !w.re.isZero then .ok ⟨.zero, .zero⟩
      else .error (.divisionByZero .nonPositivePower)
    else do
      let l ← z.ln
      (w.mul l).exp

end Complex

end SciCalc
