/-
  Exponential, logarithmic and hyperbolic functions.
-/
import SciCalc.Function.Computing

namespace SciCalc.Value

open Elementary (Point)

/-! ## Exponentials and logarithms -/

/-- The exponential function. -/
def exp : Value → Except Failure Value
  | complex z => ofComplex z.exp
  | v => v.computeReal Elementary.exp

/-- The natural logarithm. -/
def ln (m : Modes) : Value → Except Failure Value
  | complex z => ofComplex z.ln
  | v => do
    if ← v.isAtMost 0 then
      outsideDomain m "ln(x) for x <= 0" (do ofComplex (← v.toComplex).ln)
    else v.computeReal Elementary.ln

/-- The logarithm of a complex number to a real base, given the logarithm of the base. -/
def lnOver (z : Complex) (base : Binary) : Except Failure Value := do
  ofComplex ((← z.ln).div (.ofReal base))

/-- The logarithm to a fixed base; `lnBase` is the natural logarithm of the base. -/
def logFixed (m : Modes) (base : Nat) (lnBase : Binary) (name : String) : Value → Except Failure Value
  | complex z => lnOver z lnBase
  | v => do
    if ← v.isAtMost 0 then
      outsideDomain m (name ++ "(x) for x <= 0") (do lnOver (← v.toComplex) lnBase)
    else v.computeReal fun f => Elementary.logOver f (.finite false base 0)

/-- The decimal logarithm. -/
def log10 (m : Modes) : Value → Except Failure Value :=
  logFixed m 10 (.finite false 5184960683398422 (-51)) "log10"

/-- The binary logarithm. -/
def log2 (m : Modes) : Value → Except Failure Value :=
  logFixed m 2 (.finite false 6243314768165359 (-53)) "log2"

/-- The value is one. -/
def isOne : Value → Except Failure Bool
  | complex _ => .ok false
  | real x => .ok (x.eq Double.one)
  | integer n => .ok (n = 1)
  | decimal x _ =>
    match x with
    | .nan _ true _ => .error (.fault (.undefined .operation))
    | x => .ok (x.compare? (.ofInt 1) = some .eq)

/-- The logarithm to a base. -/
def logBase (m : Modes) (v base : Value) : Except Failure Value := do
  let quotient : Except Failure Value := do
    let x ← (← v.toComplex).ln
    let b ← (← base.toComplex).ln
    ofComplex (x.div b)
  if ← base.isOne then .error (.numeric (.domain "logb(x, base) for base = 1"))
  else if v.isComplex || base.isComplex then quotient
  else if ← v.isAtMost 0 then outsideDomain m "logb(x, base) for non-positive arguments" quotient
  else if ← base.isAtMost 0 then outsideDomain m "logb(x, base) for non-positive arguments" quotient
  else computeReal2 (fun p x b => ofFault (Elementary.logBase p x b)) v base

/-! ## Hyperbolic functions -/

/-- A function of real and complex numbers. -/
def hyperbolic (f : Format → Binary → Binary) (g : Format → Point → Except Failure Point) :
    Value → Except Failure Value
  | complex z => (complex z).computePoint g
  | v => v.computeReal f

/-- A function of real and complex numbers that has a value everywhere. -/
def hyperbolicEverywhere (f : Format → Binary → Binary) (g : Format → Point → Point) :
    Value → Except Failure Value :=
  hyperbolic f fun p z => .ok (g p z)

/-- The reciprocal of a function of real and complex numbers. -/
def reciprocalHyperbolic (f : Format → Binary → Binary) (g : Format → Point → Except Fault Point) :
    Value → Except Failure Value
  | complex z => (complex z).computeReciprocal g
  | v => v.computeReal fun p x => p.div Elementary.one (f p x)

/-- The hyperbolic sine. -/
def sinh : Value → Except Failure Value := hyperbolicEverywhere Elementary.sinh Point.sinh

/-- The hyperbolic cosine. -/
def cosh : Value → Except Failure Value := hyperbolicEverywhere Elementary.cosh Point.cosh

/-- The hyperbolic tangent. -/
def tanh : Value → Except Failure Value := hyperbolic Elementary.tanh fun p z => ofFault (z.tanh p)

/-- The hyperbolic cosecant. -/
def csch (v : Value) : Except Failure Value :=
  if v.isZero then .error (.numeric (.domain "csch(0) is undefined"))
  else reciprocalHyperbolic Elementary.sinh (fun p z => .ok (z.sinh p)) v

/-- The hyperbolic secant. -/
def sech (v : Value) : Except Failure Value :=
  reciprocalHyperbolic Elementary.cosh (fun p z => .ok (z.cosh p)) v

/-- The hyperbolic cotangent. -/
def coth (v : Value) : Except Failure Value :=
  if v.isZero then .error (.numeric (.domain "coth(0) is undefined"))
  else reciprocalHyperbolic Elementary.tanh Point.tanh v

/-- The inverse hyperbolic sine. -/
def arsinh : Value → Except Failure Value := hyperbolicEverywhere Elementary.arsinh Point.arsinh

/-- The inverse hyperbolic cosine, real from one on.  An undefined number counts as a point. -/
def arcosh (m : Modes) (v : Value) : Except Failure Value := do
  if !v.isComplex then
    if ← v.isBelow 1 then
      return ← outsideDomain m "acosh(x) for x < 1" (v.computeEverywhere Point.arcosh)
    compute (fun p xs =>
      let x := xs.headD .nan
      .ok (if x.isNaN then (onAxis x).arcosh p else onAxis (Elementary.arcosh p x))) [v]
  else v.computeEverywhere Point.arcosh

/-- The inverse hyperbolic tangent, real between -1 and 1. -/
def artanh (m : Modes) (v : Value) : Except Failure Value := do
  let inside := hyperbolicEverywhere Elementary.artanh Point.artanh v
  if v.isComplex then inside
  else match ← v.compareMagnitudeToOne with
    | some .eq => .error (.numeric (.domain "atanh(x) is infinite for |x| = 1"))
    | some .gt => outsideDomain m "atanh(x) for |x| > 1" (v.computeEverywhere Point.artanh)
    | _ => inside

end SciCalc.Value
