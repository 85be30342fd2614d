/-
  Arithmetic on values.

  Each operation is given for two operands of one kind.  Doubles follow double arithmetic, except that a
  division by zero is a failure; integers are exact, a quotient that does not come out even is a double;
  decimals are rounded in the context of the first operand.  A remainder has the sign of the dividend, a
  whole quotient is rounded down.
-/
import SciCalc.Decimal.Power
import SciCalc.Value.Basic

namespace SciCalc

namespace Decimal

/-- The quotient rounded down to an integer: the quotient without its fraction, less one if there is a
    remainder whose sign is not that of the divisor. -/
def floorQuotient (ctx : Context) (x y : Decimal) : Except Fault Decimal := do
  let q ← ctx.divideInt x y
  let r ← ctx.remainder x y
  if r.isZero then return q
  else match r.compare? (ofInt 0), y.compare? (ofInt 0) with
    | some r, some y => if (r = .lt) = (y = .lt) then return q else ctx.sub q one
    | _, _ => .error (.undefined .operation)

end Decimal

namespace Operands

/-- A decimal result in its context. -/
def decimalResult (ctx : Context) (r : Except Fault Decimal) : Except Failure Value :=
  ofFault (ctx.entered (r.map (Value.decimal · ctx)))

/-- The sum. -/
def add : Operands → Except Failure Value
  | real x y => .ok (.real (Double.add x y))
  | integer n m => .ok (.integer (n + m))
  | complex z w => .ok (.complex (z.add w))
  | decimal x y ctx _ => decimalResult ctx (ctx.add x y)

/-- The difference. -/
def sub : Operands → Except Failure Value
  | real x y => .ok (.real (Double.sub x y))
  | integer n m => .ok (.integer (n - m))
  | complex z w => .ok (.complex (z.sub w))
  | decimal x y ctx _ => decimalResult ctx (ctx.sub x y)

/-- The product. -/
def mul : Operands → Except Failure Value
  | real x y => .ok (.real (Double.mul x y))
  | integer n m => .ok (.integer (n * m))
  | complex z w => .ok (.complex (z.mul w))
  | decimal x y ctx _ => decimalResult ctx (ctx.mul x y)

/-- The quotient of integers: exact if there is no remainder. -/
def divInteger (n m : Int) : Except Failure Value :=
  if m = 0 then .error (.divisionByZero .division)
  else if n.fmod m = 0 then .ok (.integer (n.fdiv m))
  else do return .real (← ofFault (Double.ratio n m))

/-- The quotient. -/
def div : Operands → Except Failure Value
  | real x y =>
    if y.isZero then .error (.divisionByZero .division) else .ok (.real (Double.div x y))
  | integer n m => divInteger n m
  | complex z w => do return .complex (← z.div w)
  | decimal x y ctx _ =>
    if y.isZero then .error (.divisionByZero .division) else decimalResult ctx (ctx.div x y)

/-- The remainder of doubles.  An infinite dividend has none. -/
def remainderReal (x y : Binary) : Except Fault Binary :=
  match x with
  | .infinite _ => if y.isNaN then .ok .nan else .error Double.domainFault
  | x => .ok (Binary.remainder .double x y)

/-- The remainder. -/
def modulo : Operands → Except Failure Value
  | real x y =>
    if y.isZero then .error (.divisionByZero .modulo)
    else do return .real (← ofFault (remainderReal x y))
  | integer n m => if m = 0 then .error (.divisionByZero .modulo) else .ok (.integer (n.tmod m))
  | complex _ _ => .error (.numeric .complexModulo)
  | decimal x y ctx _ =>
    if y.isZero then .error (.divisionByZero .modulo) else decimalResult ctx (ctx.remainder x y)

/-- The whole quotient of doubles. -/
def floorDivideReal (x y : Binary) : Except Fault Binary := do
  let n ← Double.toInt Binary.floor? (Double.div x y)
  Double.ofInt? n

/-- The whole quotient, rounded down. -/
def floorDivide : Operands → Except Failure Value
  | real x y =>
    if y.isZero then .error (.divisionByZero .division)
    else do return .real (← ofFault (floorDivideReal x y))
  | integer n m => if m = 0 then .error (.divisionByZero .division) else .ok (.integer (n.fdiv m))
  | complex _ _ => .error (.numeric .complexFloorDivision)
  | decimal x y ctx _ =>
    if y.isZero then .error (.divisionByZero .division)
    else decimalResult ctx (Decimal.floorQuotient ctx x y)

/-- The power of doubles. -/
def powReal (x y : Binary) : Except Failure Value := do
  match ← ofFault (Double.pow x y) with
  | .real r => return .real r
  | .notReal => .error (.numeric (.domain "negative base with non-integer exponent"))

/-- The power of integers: exact, or a double if the exponent is negative. -/
def powInteger (n m : Int) : Except Failure Value :=
  if m < 0 then
    if n = 0 then .error (.divisionByZero .negativePower)
    else do
      let x ← ofFault (Double.ofInt? n)
      let y ← ofFault (Double.ofInt? m)
      powReal x y
  else if (Limit.integerExponent : Int) < m && 1 < n.natAbs then
    .error (.telling m fun m => .numeric (.exponentLimit m))
  else .ok (.integer (powExact n m.toNat))
where
  /-- The exact power; a base of magnitude at most one needs no multiplication. -/
  powExact (n : Int) (m : Nat) : Int :=
    if n.natAbs ≤ 1 then (if m = 0 then 1 else if n < 0 && m % 2 = 0 then 1 else n) else n ^ m

/-- The power. -/
def power : Operands → Except Failure Value
  | real x y => powReal x y
  | integer n m => powInteger n m
  | complex z w => do return .complex (← z.power w)
  | decimal x y ctx _ => decimalResult ctx (ctx.power x y)

/-- The three-way order: -1, 0 or 1.  Undefined doubles count as equal to everything, complex numbers can
    only be equal. -/
def compare : Operands → Except Failure Int
  | real x y => .ok (sign (x.compare? y))
  | integer n m => .ok (sign (some (Ord.compare n m)))
  | complex z w => if z.eq w then .ok 0 else .error (.numeric .unordered)
  | decimal x y _ _ =>
    match x.compare? y with
    | some o => .ok (sign (some o))
    | none => .error (.fault (.undefined .operation))
where
  /-- The sign of an order. -/
  sign : Option Ordering → Int
    | some .lt => -1
    | some .gt => 1
    | _ => 0

/-- Whether the operands are equal. -/
def equal : Operands → Except Failure Bool
  | complex z w => .ok (z.eq w)
  | o => do return (← o.compare) = 0

end Operands

namespace Value

/-- The opposite value. -/
def neg : Value → Except Failure Value
  | real x => .ok (.real x.neg)
  | integer n => .ok (.integer (-n))
  | complex z => .ok (.complex z.neg)
  | decimal x ctx => Operands.decimalResult ctx (ctx.minus x)

/-- The sum of two values of any kinds. -/
def add (a b : Value) : Except Failure Value := do (← promote a b).add

end Value

end SciCalc
