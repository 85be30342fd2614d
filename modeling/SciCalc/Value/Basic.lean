/-
  Values.

  A calculation works on values of four kinds: doubles, exact integers, complex numbers and decimals that
  carry the context they are rounded in.  The operands of a binary operation are brought to one kind first:
  complex if either is complex, else decimal at the larger precision if either is decimal, else exact if
  both are integers, else doubles.  `Operands` is the result: a pair that cannot be of two kinds.
-/
import SciCalc.Complex
import SciCalc.Decimal.Text
import SciCalc.Decimal.Arithmetic

namespace SciCalc

/-- A value of a calculation. -/
inductive Value where
  /-- A double. -/
  | real (x : Binary)
  /-- An exact integer. -/
  | integer (n : Int)
  /-- A complex number. -/
  | complex (z : Complex)
  /-- A decimal with its precision and rounding. -/
  | decimal (x : Decimal) (ctx : Context)
deriving DecidableEq, Inhabited

/-- Two values of one kind. -/
inductive Operands where
  | real (x y : Binary)
  | integer (n m : Int)
  | complex (z w : Complex)
  /-- The results of operations on decimals belong to the context of the first one. -/
  | decimal (x y : Decimal) (ctx other : Context)
deriving DecidableEq

namespace Value

/-- The name of a kind of value. -/
def kind : Value → String
  | real _ => "real"
  | integer _ => "bigint"
  | complex _ => "complex"
  | decimal .. => "decimal"

/-- The value is complex. -/
def isComplex : Value → Bool
  | complex _ => true
  | _ => false

/-- The value is decimal. -/
def isDecimal : Value → Bool
  | decimal .. => true
  | _ => false

/-- The value is a zero. -/
def isZero : Value → Bool
  | real x => x.isZero
  | integer n => n = 0
  | complex z => z.isZero
  | decimal x _ => x.isZero

/-- The value as a double; a complex number must have a negligible imaginary part. -/
def toReal : Value → Except Failure Binary
  | real x => .ok x
  | integer n =>
    match Double.ofInt? n with
    | .ok x => .ok x
    | .error _ => .error (.numeric .integerTooLarge)
  | decimal x _ =>
    match x with
    | .nan _ true _ => .error (.fault (.domain "cannot convert signaling NaN to float"))
    | x => .ok (x.toBinary .double)
  | complex z => if z.isReal then .ok z.re else .error (.numeric .notReal)

/-- The value as a complex number. -/
def toComplex : Value → Except Failure Complex
  | complex z => .ok z
  | v => return .ofReal (← v.toReal)

/-- The number of a value as a decimal of any length: a double gets the fewest digits that read back. -/
def exactDecimal : Value → Except Failure Decimal
  | decimal x _ => .ok x
  | integer n => .ok (.ofInt n)
  | v => do
    let x ← v.toReal
    if x.isFinite then return .ofBinary .double x else .error (.numeric (.notDecimal (Double.text x)))

/-- The value as a decimal of a context. -/
def toDecimal (ctx : Context) (v : Value) : Except Failure Decimal := do
  let x ← v.exactDecimal
  ofFault (ctx.entered (ctx.plus x))

/-- The context in which two values meet as decimals: the larger precision, and the rounding of the first
    decimal. -/
def commonContext? : Value → Value → Option Context
  | decimal _ c, decimal _ d => some ⟨max c.precision d.precision, c.rounding⟩
  | decimal _ c, _ => some c
  | _, decimal _ d => some d
  | _, _ => none

/-- **Promotion**: two values brought to one kind. -/
def promote (a b : Value) : Except Failure Operands :=
  if a.isComplex || b.isComplex then do
    let z ← a.toComplex
    let w ← b.toComplex
    return .complex z w
  else match commonContext? a b, a, b with
    | some ctx, a, b => do
      let x ← a.toDecimal ctx
      let y ← b.toDecimal ctx
      return .decimal x y ctx ctx
    | none, integer n, integer m => .ok (.integer n m)
    | none, a, b => do
      let x ← a.toReal
      let y ← b.toReal
      return .real x y

/-- The value is a whole number. -/
def isIntegral : Value → Bool
  | integer _ => true
  | real x => x.isIntegral
  | decimal x _ => x.isIntegral
  | complex z => z.isReal && z.re.isIntegral

end Value

namespace Operands

/-- The two values. -/
def values : Operands → Value × Value
  | real x y => (.real x, .real y)
  | integer n m => (.integer n, .integer m)
  | complex z w => (.complex z, .complex w)
  | decimal x y c d => (.decimal x c, .decimal y d)

/-- Two values as they are, if they are of one kind. -/
def ofSame? : Value → Value → Option Operands
  | .real x, .real y => some (.real x y)
  | .integer n, .integer m => some (.integer n m)
  | .complex z, .complex w => some (.complex z w)
  | .decimal x c, .decimal y d => some (.decimal x y c d)
  | _, _ => none

/-- Two values that meet without promotion.  A double and a decimal take an integer as it is; a double and a
    decimal do not go together, and no other kinds know each other. -/
def ofGiven (v w : Value) : Except Failure Operands :=
  match v, w with
  | .real _, .integer _ => v.promote w
  | .decimal .., .integer _ => v.promote w
  | .real _, .decimal .. => .error (.unexpected "TypeError" "a double and a decimal")
  | .decimal .., .real _ => .error (.unexpected "TypeError" "a decimal and a double")
  | v, w => (ofSame? v w).elim (.error (.unexpected "AttributeError" "operands of different kinds")) .ok

end Operands

end SciCalc
