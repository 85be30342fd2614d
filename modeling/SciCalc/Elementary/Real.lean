/-
  Real elementary functions, rounded.

  Every function takes a format without limits and gives its value in it.  The exponential, the logarithm,
  the arc tangent and their like are computed with `guardBits` more bits than the format holds.  The inverse
  functions that are composed of them and of roots follow their formulas step by step: the steps in between
  drop the bits beyond a few more than the format holds, and these bits are all that is left where the
  formula cancels.
-/
import SciCalc.Elementary.Wide
import SciCalc.Number.Fault

namespace SciCalc.Elementary

/-- The bits computed beyond those of a format. -/
def guardBits : Nat := 64

/-- The bits a function is computed with. -/
def working (f : Format) : Nat := f.precision + guardBits

/-- A computed value in a format.  Rounding takes two steps: half of the guard bits go first, so that a value
    that is exact in fact, such as a root of a square, is met exactly, and ties are seen as ties. -/
def settle (f : Format) (x : Binary) : Binary :=
  match f.direction with
  | .nearest => f.convert ((Format.ofBits (f.precision + guardBits / 2)).convert x)
  | .towardZero => f.convert x

/-! ## Constants -/

/-- The circle constant. -/
def circle (f : Format) : Binary := settle f (piWide (working f))

/-- The base of the natural logarithm. -/
def euler (f : Format) : Binary := settle f (expWide (working f) one)

/-- The Euler–Mascheroni constant. -/
def mascheroni (f : Format) : Binary :=
  settle f (ofFixed (working f) (working f) (eulerGamma (working f)))

/-- The golden ratio. -/
def golden (f : Format) : Binary :=
  let g := Format.ofBits (working f)
  settle f (half (g.add one (g.sqrt (g.ofInt 5))))

/-! ## Exponential, logarithm, powers -/

/-- The exponential function. -/
def exp (f : Format) (x : Binary) : Binary := settle f (expWide (working f) x)

/-- The natural logarithm. -/
def ln (f : Format) (x : Binary) : Binary := settle f (lnWide (working f) x)

/-- The logarithm that a quotient of logarithms is made of, with 20 bits more. -/
def longLn (f : Format) (x : Binary) : Binary := ln (f.widen 20) x

/-- The logarithm to a base other than one: the quotient of the natural ones. -/
def logOver (f : Format) (base x : Binary) : Binary := f.div (longLn f x) (longLn f base)

/-- The logarithm to any base; the logarithm of one is a zero to divide by. -/
def logBase (f : Format) (x base : Binary) : Except Fault Binary :=
  if (longLn f base).isZero then .error .zeroDivision else .ok (logOver f base x)

/-- A non-negative number to a power: powers and square roots for exponents that are integers and halves of
    integers, and otherwise `exp (t ln x)` with the logarithm rounded to 10 bits more. -/
def pow (f : Format) (x t : Binary) : Binary :=
  match (double t).floor? with
  | some n =>
    if t.isIntegral then f.power x (n / 2)
    else if (double t).isIntegral then
      if n = 1 then f.sqrt x else f.power ((f.widen 10).sqrt x) n
    else exp f (Format.mulExact (ln (f.widen 10) x) t)
  | none => exp f (Format.mulExact (ln (f.widen 10) x) t)

/-- The degrees up to which a root is computed as such. -/
def greatestPlainDegree : Nat := 20

/-- The positive real root `x ^ (1 / n)` of a number that is not negative.  One of a high degree is a power
    with an exponent that is cut to 10 bits more. -/
def root (f : Format) (x : Binary) (n : Nat) : Binary :=
  if x.isZero || !x.isFinite then x
  else if n = 1 then f.convert x
  else if greatestPlainDegree < n then
    let g := f.widen 10
    f.convert (pow g x ((f.cutting 10).div one (f.ofInt n)))
  else
    let w := working f
    let g := Format.ofBits (w + 16)
    settle f (expWide w (g.div (lnWide (w + 16) x) (g.ofInt n)))

/-! ## Trigonometric functions -/

/-- The cosine. -/
def cos (f : Format) (x : Binary) : Binary := settle f (cosWide (working f) x)

/-- The sine. -/
def sin (f : Format) (x : Binary) : Binary := settle f (sinWide (working f) x)

/-- The tangent. -/
def tan (f : Format) (x : Binary) : Binary := settle f (tanWide (working f) x)

/-- The arc tangent. -/
def arctan (f : Format) (x : Binary) : Binary := settle f (arctanWide (working f) x)

/-- `√(1 - x²)`. -/
def otherLeg (g : Format) (x : Binary) : Binary := g.sqrt (g.sub one (Format.mulExact x x))

/-- The arc sine of a number from -1 to 1: twice the angle with the tangent `x / (1 + √(1 - x²))`. -/
def arcsin (f : Format) (x : Binary) : Binary :=
  let g := f.cutting 15
  double (arctan f (g.div x (g.add one (otherLeg g x))))

/-- The arc cosine of a number from -1 to 1: twice the angle with the tangent `√(1 - x²) / (1 + x)`. -/
def arccos (f : Format) (x : Binary) : Binary :=
  let g := f.cutting 15
  if x.eq one.neg then circle f
  else double (arctan f (g.div (otherLeg g x) (g.add one x)))

/-- The angle of the point `(x, y)` with `y` not negative. -/
def angleAbove (f : Format) (y x : Binary) : Binary :=
  match x with
  | .nan => .nan
  | .infinite s => if s then circle f else .zero
  | .finite s m _ =>
    if m = 0 then half (circle f)
    else
      let g := f.cutting 4
      let slope := arctan g (g.div y x)
      if s then f.add (circle g) slope else f.convert slope

/-- The angle of the point `(x, y)`.  On the vertical axis and infinitely far above or below the other one it
    is a quarter turn. -/
def angle (f : Format) (y x : Binary) : Binary :=
  match y with
  | .nan => .nan
  | .infinite s =>
    if x.isInfinite then .nan else if s then opposite (half (circle f)) else half (circle f)
  | .finite s m _ =>
    if m = 0 then (if x.isNaN then .nan else if x.isNegative && !x.isZero then circle f else .zero)
    else if s then opposite (angleAbove f y.abs x)
    else angleAbove f y x

/-! ## Hyperbolic functions -/

/-- The hyperbolic sine. -/
def sinh (f : Format) (x : Binary) : Binary := settle f (coshSinhWide (working f) x).2

/-- The hyperbolic cosine. -/
def cosh (f : Format) (x : Binary) : Binary := settle f (coshSinhWide (working f) x).1

/-- The hyperbolic tangent. -/
def tanh (f : Format) (x : Binary) : Binary := settle f (tanhWide (working f) x)

/-- The bits beyond those of a format that an inverse hyperbolic function of a number is computed with,
    `extra` and as many more as the number has zeros behind the point; none if the number is so small that
    it is its own value. -/
def smallBits? (f : Format) (extra : Nat) : Binary → Option Nat
  | .finite _ m e =>
    let k := size m e
    if m = 0 || -8 ≤ k then some extra
    else if k + f.precision + extra < 0 then none
    else some (extra + k.natAbs)
  | _ => some extra

/-- The inverse hyperbolic sine: `ln (x + √(x² + 1))`. -/
def arsinh (f : Format) : Binary → Binary := oddly fun x =>
  match smallBits? f 20 x with
  | none => f.convert x
  | some extra =>
    let g := f.cutting extra
    ln f (g.add x (g.sqrt (g.add (Format.mulExact x x) one)))

/-- The inverse hyperbolic cosine of a number from 1 on: `ln (x + √(x² - 1))`. -/
def arcosh (f : Format) (x : Binary) : Binary :=
  let g := f.cutting 15
  ln f (g.add x (g.sqrt (g.sub (Format.mulExact x x) one)))

/-- The inverse hyperbolic tangent of a number between -1 and 1: half the logarithm of
    `(1 + x) / (1 - x)`. -/
def artanh (f : Format) (x : Binary) : Binary :=
  match smallBits? f 15 x with
  | none => f.convert x
  | some extra =>
    let g := f.cutting extra
    half (ln f (g.div (g.add x one) (g.sub one x)))

end SciCalc.Elementary
