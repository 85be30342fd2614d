/-
  Trigonometric functions.

  Angles are read and given in the unit that the modes say.  A complex argument is in radians.  An inverse
  function of a real number outside its domain is complex if there are complex results.
-/
import SciCalc.Function.Computing

namespace SciCalc.Value

open Elementary (Point)

/-! ## Functions of an angle -/

/-- The angle in radians, in the arithmetic of a format. -/
def angleToRadians (m : Modes) (f : Format) (x : Binary) : Binary := m.toRadians f (Elementary.circle f) x

/-- The angle in the configured unit, in the arithmetic of a format. -/
def angleFromRadians (m : Modes) (f : Format) (x : Binary) : Binary :=
  m.fromRadians f (Elementary.circle f) x

/-- The sine. -/
def sin (m : Modes) : Value → Except Failure Value
  | complex z => ofComplex z.sin
  | v => v.computeReal fun f x => Elementary.sin f (angleToRadians m f x)

/-- The cosine. -/
def cos (m : Modes) : Value → Except Failure Value
  | complex z => ofComplex z.cos
  | v => v.computeReal fun f x => Elementary.cos f (angleToRadians m f x)

/-- The tangent. -/
def tan (m : Modes) : Value → Except Failure Value
  | complex z => ofComplex z.tan
  | v => v.computeReal fun f x => Elementary.tan f (angleToRadians m f x)

/-- The reciprocal of a function of an angle; where that function is zero there is none. -/
def reciprocalOf (m : Modes) (g : Format → Binary → Binary) (h : Format → Point → Except Fault Point)
    (name zeroOf : String) : Value → Except Failure Value
  | complex z => (complex z).computeReciprocal h
  | v => compute (fun f xs =>
      let d := g f (angleToRadians m f (xs.headD .nan))
      if d.isZero then
        .error (.numeric (.domain (name ++ "(x) is undefined where " ++ zeroOf ++ "(x) = 0")))
      else .ok (onAxis (f.div Elementary.one d))) [v]

/-- The cosecant. -/
def csc (m : Modes) : Value → Except Failure Value :=
  reciprocalOf m Elementary.sin (fun f z => .ok (z.sin f)) "csc" "sin"

/-- The secant. -/
def sec (m : Modes) : Value → Except Failure Value :=
  reciprocalOf m Elementary.cos (fun f z => .ok (z.cos f)) "sec" "cos"

/-- The cotangent. -/
def cot (m : Modes) : Value → Except Failure Value :=
  reciprocalOf m Elementary.tan Point.tan "cot" "tan"

/-! ## Inverse functions -/

/-- A point whose parts are angles, in the configured unit. -/
def pointFromRadians (m : Modes) (f : Format) (z : Point) : Point :=
  ⟨angleFromRadians m f z.re, if z.im.isZero then z.im else angleFromRadians m f z.im⟩

/-- An inverse function that is real from -1 to 1. -/
def inverseOnUnit (m : Modes) (g : Format → Binary → Binary) (h : Format → Point → Point) (name : String) :
    Value → Except Failure Value
  | complex z => (complex z).computeEverywhere h
  | v => do
    if (← v.compareMagnitudeToOne) = some .gt then
      outsideDomain m (name ++ "(x) for |x| > 1") (v.computeEverywhere h)
    else
      compute (fun f xs =>
        let x := xs.headD .nan
        .ok (pointFromRadians m f (if Elementary.one.lt x.abs then h f (onAxis x) else onAxis (g f x)))) [v]

/-- The arc sine. -/
def arcsin (m : Modes) : Value → Except Failure Value :=
  inverseOnUnit m Elementary.arcsin Point.arcsin "asin"

/-- The arc cosine. -/
def arccos (m : Modes) : Value → Except Failure Value :=
  inverseOnUnit m Elementary.arccos Point.arccos "acos"

/-- The arc tangent. -/
def arctan (m : Modes) : Value → Except Failure Value
  | complex z => (complex z).computeEverywhere Point.arctan
  | v => v.computeReal fun f x => angleFromRadians m f (Elementary.arctan f x)

/-- The angle of the point `(x, y)`. -/
def arctan2 (m : Modes) (y x : Value) : Except Failure Value :=
  if y.isComplex || x.isComplex then .error (.numeric (.realArguments "atan2"))
  else computeReal2 (fun f y x => .ok (angleFromRadians m f (Elementary.angle f y x))) y x

/-- The angle of a complex number. -/
def argument (m : Modes) (v : Value) : Except Failure Value := do
  return .real (m.doubleFromRadians (← v.toComplex).argument)

end SciCalc.Value
