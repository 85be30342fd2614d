/-
  Powers and roots.
-/
import SciCalc.Function.Computing
import SciCalc.Value.Arithmetic

namespace SciCalc.Value

open Elementary (Point)

/-- The value is a negative real number. -/
def isNegative (v : Value) : Except Failure Bool := v.isBelow 0

/-- The power of values as complex numbers. -/
def complexPower (v w : Value) : Except Failure Value := do
  let z ← v.toComplex
  let u ← w.toComplex
  ofComplex (z.power u)

/-- The power.  A negative number to a fraction is complex if there are complex results. -/
def power (m : Modes) (v w : Value) : Except Failure Value := do
  if v.isComplex || w.isComplex then complexPower v w
  else if (← v.isNegative) && !w.isIntegral then
    outsideDomain m "pow(x, y) for x < 0 and non-integer y" (complexPower v w)
  else (← promote v w).power

/-- The square root. -/
def sqrt (m : Modes) : Value → Except Failure Value
  | complex z => ofComplex z.sqrt
  | v => do
    if ← v.isNegative then
      outsideDomain m "sqrt(x) for x < 0" (do ofComplex (← v.toComplex).sqrt)
    else v.computeReal fun f x => f.sqrt x

/-- The double nearest to one third. -/
def third : Binary := .finite false 6004799503160661 (-54)

/-- The cube root; that of a negative number is negative. -/
def cubeRoot : Value → Except Failure Value
  | complex z => ofComplex (z.power ⟨third, .zero⟩)
  | v => v.computeReal fun f => Elementary.oddly fun x => Elementary.root f x 3

/-- The root of a positive number; that of a negative degree is a reciprocal. -/
def rootOfDegree (f : Format) (x : Binary) (n : Int) : Binary :=
  if n = -1 then f.div Elementary.one x
  else if n < 0 then f.div Elementary.one (Elementary.root (f.widen 5) x n.natAbs)
  else Elementary.root f x n.natAbs

/-- The power `x ^ (1 / k)` of a number that is not negative.  Zero to a negative power is a division by
    zero if twice the exponent is an integer, and infinite otherwise. -/
def rootByPower (f : Format) (x k : Binary) : Except Failure Binary :=
  let t := f.div Elementary.one k
  if x.isZero && t.isNegative && !t.isZero && (Elementary.double t).isIntegral then
    .error (.fault .zeroDivision)
  else .ok (Elementary.pow f x t)

/-- The integer of a whole number. -/
def toInteger? : Value → Option Int
  | integer n => some n
  | real x => x.trunc?
  | complex z => z.re.trunc?
  | decimal x _ => x.toInt?

/-- The value is a whole number that is odd. -/
def isOddInteger (v : Value) : Bool := v.isIntegral && v.toInteger?.any (· % 2 ≠ 0)

/-- The root of a degree. -/
def nthRoot (m : Modes) (v n : Value) : Except Failure Value := do
  let asComplex : Except Failure Value := do
    let z ← v.toComplex
    let t ← (Complex.ofReal Double.one).div (← n.toComplex)
    ofComplex (z.power t)
  if n.isZero then .error (.numeric (.domain "nthroot(x, 0) is undefined"))
  else if v.isComplex || n.isComplex then asComplex
  else if ← v.isNegative then
    if n.isOddInteger then
      computeReal2 (fun f x k =>
        .ok (Elementary.opposite (rootOfDegree f x.abs (k.trunc?.getD 1)))) v n
    else outsideDomain m "nthroot(x, n) for x < 0 and even or non-integer n" asComplex
  else computeReal2 rootByPower v n

end SciCalc.Value
