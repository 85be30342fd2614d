/-
  Inverse functions of the complex plane.

  The functions are continuous from one side of their cuts as follows: the arc sine and the arc cosine of a
  real number beyond one lie below and above the real axis, beyond minus one above and below.  Off the real
  axis they derive from the half sum `α` and the half difference `β` of the distances from -1 and 1: the
  real part is that of `β`, and the imaginary part is the inverse hyperbolic cosine of `α`.  Which of several
  equal expressions is taken depends on where the terms would cancel.
-/
import SciCalc.Elementary.Plane

namespace SciCalc.Elementary

namespace Point

open Binary

/-! ## Arc sine and arc cosine -/

/-- The inverse functions of the sine and of the cosine. -/
inductive Inverse where
  | sine
  | cosine
deriving DecidableEq

/-- The inverse function of a real number from -1 to 1. -/
def Inverse.onUnit (i : Inverse) (g : Format) (x : Binary) : Binary :=
  match i with
  | .sine => arcsin g x
  | .cosine => arccos g x

/-- The inverse function of `p / √(p² + q²)`. -/
def Inverse.ofLegs (i : Inverse) (g : Format) (p q : Binary) : Binary :=
  match i with
  | .sine => Elementary.arctan g (g.div p q)
  | .cosine => Elementary.arctan g (g.div q p)

/-- What is known of a point `a + b i` with positive parts, its distances from -1 and 1 in particular. -/
structure Bearing where
  /-- The real part. -/
  a : Binary
  /-- The imaginary part. -/
  b : Binary
  /-- One less the real part. -/
  before : Binary
  /-- One more than the real part. -/
  after : Binary
  /-- The distance from -1. -/
  far : Binary
  /-- The distance from 1. -/
  near : Binary
  /-- Half the sum of the distances. -/
  alpha : Binary
  /-- Half the difference of the distances. -/
  beta : Binary
  /-- The square of the imaginary part. -/
  square : Binary
deriving DecidableEq

/-- The bearing of a point with positive parts. -/
def Bearing.of (g : Format) (a b : Binary) : Bearing :=
  let before := g.sub one a
  let after := g.add one a
  let far := Point.distance g ⟨after, b⟩
  let near := Point.distance g ⟨before, b⟩
  let alpha := Elementary.half (g.add far near)
  ⟨a, b, before, after, far, near, alpha, g.div a alpha, g.mul b b⟩

/-- The number above which `β` is close to one: the double nearest to 0.6417. -/
def closeBeta : Binary := .finite false 5779919761767295 (-53)

/-- The number up to which `α` is close to one. -/
def closeAlpha : Binary := .finite false 3 (-1)

/-- The first number is less than the second, judged by their difference. -/
def isLess (g : Format) (x y : Binary) : Bool :=
  let d := g.sub x y
  d.isNegative && !d.isZero

/-- The real part of an inverse function. -/
def Bearing.real (p : Bearing) (g : Format) (i : Inverse) : Binary :=
  if !isLess g closeBeta p.beta then i.onUnit g p.beta
  else
    let sum := g.add p.alpha p.a
    if !p.before.isNegative || p.before.isZero then
      let c := g.div p.square (g.add p.far p.after)
      let d := g.add p.near p.before
      i.ofLegs g p.a (g.sqrt (Elementary.half (g.mul sum (g.add c d))))
    else
      let c := g.div sum (g.add p.far p.after)
      let d := g.div sum (g.sub p.near p.before)
      i.ofLegs g p.a (g.mul p.b (g.sqrt (Elementary.half (g.add c d))))

/-- The magnitude of the imaginary part of an inverse function. -/
def Bearing.imaginary (p : Bearing) (g : Format) : Binary :=
  if !isLess g closeAlpha p.alpha then
    let c := g.div p.square (g.add p.far p.after)
    let positive := !p.before.isNegative && !p.before.isZero && !p.before.isNaN
    let d := if positive then g.div p.square (g.add p.near p.before) else g.sub p.near p.before
    let excess := Elementary.half (g.add c d)
    let root := g.sqrt (g.mul excess (g.add p.alpha one))
    Elementary.ln g (g.add one (g.add excess root))
  else
    Elementary.ln g (g.add p.alpha (g.sqrt (g.sub (g.mul p.alpha p.alpha) one)))

/-- A computed number in a format; one that is not finite becomes zero. -/
def finiteOrZero (f : Format) (x : Binary) : Binary := if x.isFinite then f.convert x else .zero

/-- The inverse function of a real number. -/
def Inverse.onAxis (i : Inverse) (f : Format) (a : Binary) : Point :=
  if !isLess (f.cutting 10) one a.abs then ⟨i.onUnit f a, .zero⟩
  else
    let c := arcosh f a.abs
    match i, a.isNegative with
    | .cosine, true => ⟨circle f, opposite c⟩
    | .cosine, false => ⟨.zero, c⟩
    | .sine, true => ⟨opposite (Elementary.half (circle f)), c⟩
    | .sine, false => ⟨Elementary.half (circle f), opposite c⟩

/-- The inverse function of a point. -/
def Inverse.at (i : Inverse) (f : Format) (z : Point) : Point :=
  if z.im.isZero then i.onAxis f z.re
  else
    let g := f.cutting 10
    let p := Bearing.of g z.re.abs z.im.abs
    let re := p.real g i
    let im := p.imaginary g
    let left := z.re.isNegative && !z.re.isZero
    let re := match left, i with
      | false, _ => re
      | true, .sine => opposite re
      | true, .cosine => g.sub (circle g) re
    let im := if decide (i = .sine) = z.im.isNegative then opposite im else im
    ⟨finiteOrZero f re, finiteOrZero f im⟩

/-- The arc sine. -/
def arcsin (f : Format) (z : Point) : Point := Inverse.sine.at f z

/-- The arc cosine. -/
def arccos (f : Format) (z : Point) : Point := Inverse.cosine.at f z

/-! ## Arc tangent and inverse hyperbolic functions -/

/-- The arc tangent: `i/2 (ln (1 - i z) - ln (1 + i z))`.  Infinitely far away the imaginary part is zero. -/
def arctan (f : Format) (z : Point) : Point :=
  let g := f.cutting 15
  let x : Point := ⟨g.add one z.im, opposite z.re⟩
  let y : Point := ⟨g.sub one z.im, z.re⟩
  let v := (Point.sub f (x.ln g) (y.ln g)).half.turn
  if v.im.isNaN && z.isInfinite then ⟨v.re, .zero⟩ else v

/-- The inverse hyperbolic sine: `i arcsin (-i z)`. -/
def arsinh (f : Format) (z : Point) : Point := (z.turnBack.arcsin f).turn

/-- The inverse hyperbolic cosine: the arc cosine, turned onto the right half plane. -/
def arcosh (f : Format) (z : Point) : Point :=
  let a := z.arccos f
  if a.im.isNegative || a.im.isZero then a.turn else a.turnBack

/-- The inverse hyperbolic tangent: half of `ln (1 + z) - ln (1 - z)`, with some bits more than the format
    holds.  Infinitely far away the real part is zero. -/
def artanh (f : Format) (z : Point) : Point :=
  let g := f.cutting 15
  let v := (Point.sub g ((unit.add g z).ln g) ((unit.sub g z).ln g)).half
  if v.re.isNaN && z.isInfinite then ⟨.zero, v.im⟩ else v

end Point

end SciCalc.Elementary
