/-
  Elementary functions of the complex plane.

  A point is a pair of binary numbers without signed zeros.  A function follows its formula step by step.
  The steps in between drop the bits beyond a few more than the format holds; where the formula cancels,
  these bits are all that is left.
-/
import SciCalc.Elementary.Real

namespace SciCalc.Elementary

/-- A point of the complex plane. -/
structure Point where
  /-- The real part. -/
  re : Binary
  /-- The imaginary part. -/
  im : Binary
deriving DecidableEq, Inhabited

namespace Point

open Binary

/-! ## Arithmetic -/

/-- The opposite point. -/
def neg (z : Point) : Point := ⟨opposite z.re, opposite z.im⟩

/-- The sum. -/
def add (f : Format) (z u : Point) : Point := ⟨f.add z.re u.re, f.add z.im u.im⟩

/-- The difference. -/
def sub (f : Format) (z u : Point) : Point := ⟨f.sub z.re u.re, f.sub z.im u.im⟩

/-- The product. -/
def mul (f : Format) (z u : Point) : Point :=
  ⟨f.sub (f.mul z.re u.re) (f.mul z.im u.im), f.add (f.mul z.re u.im) (f.mul z.im u.re)⟩

/-- Both parts are zero. -/
def isZero (z : Point) : Bool := z.re.isZero && z.im.isZero

/-- A part is infinite. -/
def isInfinite (z : Point) : Bool := z.re.isInfinite || z.im.isInfinite

/-- The real number one. -/
def unit : Point := ⟨one, .zero⟩

/-- Half of a point. -/
def half (z : Point) : Point := ⟨Elementary.half z.re, Elementary.half z.im⟩

/-- The point turned by a quarter turn: `i z`. -/
def turn (z : Point) : Point := ⟨opposite z.im, z.re⟩

/-- The point turned back by a quarter turn: `-i z`. -/
def turnBack (z : Point) : Point := ⟨z.im, opposite z.re⟩

/-- The point with its parts exchanged. -/
def swap (z : Point) : Point := ⟨z.im, z.re⟩

/-- The square of the distance from zero. -/
def norm (f : Format) (z : Point) : Binary :=
  f.add (Format.mulExact z.re z.re) (Format.mulExact z.im z.im)

/-- The distance from zero. -/
def distance (g : Format) (z : Point) : Binary :=
  if z.im.isZero then g.convert z.re.abs
  else if z.re.isZero then g.convert z.im.abs
  else g.sqrt (z.norm (g.cutting 4))

/-- The reciprocal; zero has none. -/
def inv (f : Format) (z : Point) : Except Fault Point :=
  let n := z.norm (f.cutting 10)
  if n.isZero then .error .zeroDivision else .ok ⟨f.div z.re n, opposite (f.div z.im n)⟩

/-! ## Logarithm -/

/-- The bits of the squared distance beyond those of its logarithm. -/
def normBits : Nat := 20

/-- The sum of the squares, computed anew without rounding if it comes close to one. -/
def squaredDistance (g : Format) (a b : Binary) : Binary :=
  let x := Format.mulExact a a
  let y := Format.mulExact b b
  let sum := (g.cutting normBits).add x y
  match (Format.cutTo 10).sub sum one, x, y with
  | .finite _ m e, .finite _ k d, .finite _ l c =>
    if m = 0 || size m e < -10 then
      (Format.cutTo (max (size k d) (size l c) + 1 - min d c).toNat).add x y
    else sum
  | _, _, _ => sum

/-- The logarithm of the distance from zero. -/
def lnDistance (g : Format) (z : Point) : Binary :=
  if z.re.isNaN || z.im.isNaN then .nan
  else if z.isInfinite then .infinite false
  else if z.im.isZero then ln g z.re.abs
  else if z.re.isZero then ln g z.im.abs
  else Elementary.half (ln g (squaredDistance g z.re z.im))

/-- The logarithm: that of the distance from zero, and the angle. -/
def ln (g : Format) (z : Point) : Point := ⟨z.lnDistance g, angle g z.im z.re⟩

/-! ## Trigonometric functions -/

/-- The sine: `sin a cosh b + i cos a sinh b`. -/
def sin (f : Format) (z : Point) : Point :=
  if z.im.isZero then ⟨Elementary.sin f z.re, .zero⟩
  else if z.re.isZero then ⟨.zero, sinh f z.im⟩
  else
    let g := f.cutting 6
    ⟨f.mul (Elementary.sin g z.re) (cosh g z.im), f.mul (Elementary.cos g z.re) (sinh g z.im)⟩

/-- The cosine: `cos a cosh b - i sin a sinh b`. -/
def cos (f : Format) (z : Point) : Point :=
  if z.im.isZero then ⟨Elementary.cos f z.re, .zero⟩
  else if z.re.isZero then ⟨cosh f z.im, .zero⟩
  else
    let g := f.cutting 6
    ⟨f.mul (Elementary.cos g z.re) (cosh g z.im),
      opposite (f.mul (Elementary.sin g z.re) (sinh g z.im))⟩

/-- The tangent: `(sin 2a + i sinh 2b) / (cos 2a + cosh 2b)`.  It has no value where the divisor vanishes. -/
def tan (f : Format) (z : Point) : Except Fault Point :=
  if z.im.isZero then .ok ⟨Elementary.tan f z.re, .zero⟩
  else if z.re.isZero then .ok ⟨.zero, tanh f z.im⟩
  else
    let g := f.cutting 15
    let a := double z.re
    let b := double z.im
    let divisor := g.add (Elementary.cos g a) (cosh g b)
    if divisor.isZero then .error .zeroDivision
    else .ok ⟨f.div (Elementary.sin g a) divisor, f.div (sinh g b) divisor⟩

/-! ## Hyperbolic functions -/

/-- The hyperbolic sine: `-i sin (i z)`. -/
def sinh (f : Format) (z : Point) : Point := (z.swap.sin f).swap

/-- The hyperbolic cosine: `cos (-i z)`. -/
def cosh (f : Format) (z : Point) : Point := z.turnBack.cos f

/-- The hyperbolic tangent: `-i tan (i z)`. -/
def tanh (f : Format) (z : Point) : Except Fault Point := (z.swap.tan f).map swap

end Point

end SciCalc.Elementary
