/-
  Decimal arithmetic.

  Every operation computes its exact result and finishes it once.  A quotient that does not end is taken
  to one digit more than the precision, and its last digit is made to show that something follows.
-/
import SciCalc.Decimal.Basic

namespace SciCalc

namespace Decimal

/-- The coefficient of a number at a lower exponent. -/
def aligned (c : Nat) (e low : Int) : Nat := c * 10 ^ (e - low).toNat

/-- The order of two magnitudes. -/
def compareMagnitude (c : Nat) (e : Int) (d : Nat) (f : Int) : Ordering :=
  if c = 0 || d = 0 then compare c d
  else
    let top := e + Number.digitCount c
    let other := f + Number.digitCount d
    if top < other then .lt
    else if other < top then .gt
    else compare (aligned c e (min e f)) (aligned d f (min e f))

/-- The order of two finite decimals; zeros of either sign are equal. -/
def compareFinite (s : Bool) (c : Nat) (e : Int) (t : Bool) (d : Nat) (f : Int) : Ordering :=
  match s && c ≠ 0, t && d ≠ 0 with
  | false, true => .gt
  | true, false => .lt
  | false, false => compareMagnitude c e d f
  | true, true => compareMagnitude d f c e

/-- The order of two decimals; there is none if one is undefined. -/
def compare? : Decimal → Decimal → Option Ordering
  | nan .., _ => none
  | _, nan .. => none
  | infinite s, infinite t => some (if s = t then .eq else if s then .lt else .gt)
  | infinite s, _ => some (if s then .lt else .gt)
  | _, infinite t => some (if t then .gt else .lt)
  | finite s c e, finite t d f => some (compareFinite s c e t d f)

/-- The coefficient without trailing zeros, as far as the exponent stays at most `most`, and the exponent;
    at most `fuel` zeros are dropped. -/
def dropZeros (most : Int) : Nat → Nat → Int → Nat × Int
  | 0, c, e => (c, e)
  | fuel + 1, c, e =>
    if e < most && c % 10 = 0 then dropZeros most fuel (c / 10) (e + 1) else (c, e)

end Decimal

namespace Context

open Decimal

/-- The second of two numbers, with the lower exponent, as it counts in a sum with the first one: below the
    reach of all digits of the sum and of its rounding, any number has the effect of a single one there. -/
def trifle (ctx : Context) (c : Nat) (e : Int) (d : Nat) (f : Int) : Nat × Int :=
  let reach := e - 1 + min 0 ((Number.digitCount c : Int) - ctx.precision - 1)
  if c ≠ 0 && f + Number.digitCount d - 1 < reach then (min d 1, reach) else (d, f)

/-- The coefficient of a number at the exponent of a sum; a zero has none to be aligned. -/
def alignedIn (c : Nat) (e low : Int) : Int := if c = 0 then 0 else aligned c e low

/-- The rounded sum of two finite decimals.  An exact zero from opposite signs is negative only when rounding
    toward negative infinity. -/
def addFinite (ctx : Context) (s : Bool) (c : Nat) (e : Int) (t : Bool) (d : Nat) (f : Int) :
    Except Fault Decimal :=
  let low := min e f
  let a := alignedIn c e low
  let b := alignedIn d f low
  let sum := (if s then -a else a) + (if t then -b else b)
  let negative := if sum = 0 then (if s = t then s else ctx.rounding = .floor) else decide (sum < 0)
  ctx.finish negative sum.natAbs low

/-- The rounded sum. -/
def add (ctx : Context) (x y : Decimal) : Except Fault Decimal :=
  match ctx.nanResult? x y, x, y with
  | some r, _, _ => r
  | none, .finite s c e, .finite t d f =>
    if f ≤ e then
      let (d, f) := ctx.trifle c e d f
      ctx.addFinite s c e t d f
    else
      let (c, e) := ctx.trifle d f c e
      ctx.addFinite s c e t d f
  | none, .infinite s, .infinite t =>
    if s = t then .ok (.infinite s) else .error (.undefined .operation)
  | none, .infinite s, _ => .ok (.infinite s)
  | none, _, y => .ok y

/-- The rounded difference. -/
def sub (ctx : Context) (x y : Decimal) : Except Fault Decimal :=
  match ctx.nanResult? x y with
  | some r => r
  | none => ctx.add x y.neg

/-- The rounded product. -/
def mul (ctx : Context) (x y : Decimal) : Except Fault Decimal :=
  match ctx.nanResult? x y, x, y with
  | some r, _, _ => r
  | none, .finite s c e, .finite t d f => ctx.finish (s != t) (c * d) (e + f)
  | none, x, y =>
    if x.isZero || y.isZero then .error (.undefined .operation)
    else .ok (.infinite (x.isNegative != y.isNegative))

/-- The rounded quotient of two finite decimals, the second not zero.  A quotient that ends has the
    exponent nearest to the difference of the exponents. -/
def divFinite (ctx : Context) (negative : Bool) (c : Nat) (e : Int) (d : Nat) (f : Int) :
    Except Fault Decimal :=
  if c = 0 then ctx.finish negative 0 (e - f)
  else
    let shift : Int := (Number.digitCount d : Int) - Number.digitCount c + ctx.precision + 1
    let n := c * 10 ^ shift.toNat
    let m := d * 10 ^ (-shift).toNat
    let q := n / m
    if n % m = 0 then
      let (q, e) := dropZeros (e - f) shift.toNat q (e - f - shift)
      ctx.finish negative q e
    else ctx.finish negative (if q % 5 = 0 then q + 1 else q) (e - f - shift)

/-- The rounded quotient. -/
def div (ctx : Context) (x y : Decimal) : Except Fault Decimal :=
  match ctx.nanResult? x y, x, y with
  | some r, _, _ => r
  | none, .infinite _, .infinite _ => .error (.undefined .operation)
  | none, .infinite s, y => .ok (.infinite (s != y.isNegative))
  | none, x, .infinite t => ctx.finish (x.isNegative != t) 0 ctx.tiny
  | none, .finite s c e, .finite t d f =>
    if d = 0 then .error (if c = 0 then .undefined .ratio else .decimalZeroDivision)
    else ctx.divFinite (s != t) c e d f
  | none, x, _ => .ok x

/-- The whole quotient and the rest of two magnitudes at a common exponent, the divisor not zero.  There
    is none if the quotient has more digits than the precision. -/
def divMod (ctx : Context) (c : Nat) (e : Int) (d : Nat) (f : Int) : Except Fault (Nat × Nat) :=
  if c = 0 then .ok (0, 0)
  else if (e + Number.digitCount c) - (f + Number.digitCount d) > ctx.precision then
    .error (.undefined .division)
  else
    let low := min e f
    let a := aligned c e low
    let b := aligned d f low
    if ctx.precision < Number.digitCount (a / b) then .error (.undefined .division)
    else .ok (a / b, a % b)

/-- The quotient without its fraction. -/
def divideInt (ctx : Context) (x y : Decimal) : Except Fault Decimal :=
  match ctx.nanResult? x y, x, y with
  | some r, _, _ => r
  | none, .infinite _, .infinite _ => .error (.undefined .operation)
  | none, .infinite s, y => .ok (.infinite (s != y.isNegative))
  | none, x, .infinite t => .ok (.finite (x.isNegative != t) 0 0)
  | none, .finite s c e, .finite t d f =>
    if d = 0 then .error (if c = 0 then .undefined .ratio else .decimalZeroDivision)
    else if compareMagnitude c e d f = .lt then ctx.finish (s != t) 0 0
    else do
      let (q, _) ← ctx.divMod c e d f
      ctx.finish (s != t) q 0
  | none, x, _ => .ok x

/-- What remains of the first number after taking away the second as often as the whole quotient says; it
    has the sign of the first. -/
def remainder (ctx : Context) (x y : Decimal) : Except Fault Decimal :=
  match ctx.nanResult? x y, x, y with
  | some r, _, _ => r
  | none, .infinite _, _ => .error (.undefined .operation)
  | none, .finite s c e, .infinite _ => ctx.finish s c e
  | none, .finite s c e, .finite _ d f =>
    if d = 0 then .error (.undefined (if c = 0 then .ratio else .operation))
    else if c = 0 then ctx.finish s 0 (min e f)
    else if compareMagnitude c e d f = .lt then ctx.finish s (aligned c e (min e f)) (min e f)
    else do
      let (_, r) ← ctx.divMod c e d f
      ctx.finish s r (min e f)
  | none, x, _ => .ok x

/-- The decimal in the context, its sign kept. -/
def fit (ctx : Context) : Decimal → Except Fault Decimal
  | .finite s c e => ctx.finish s c e
  | .infinite s => .ok (.infinite s)
  | .nan s q p => ctx.finishNaN s q p

/-- A decimal without trailing zeros; a zero has the exponent zero. -/
def reduce : Decimal → Decimal
  | .finite s c e =>
    if c = 0 then .finite s 0 0
    else
      let (c, e) := dropZeros maxExponent (Number.digitCount c) c e
      .finite s c e
  | x => x

/-- The decimal in the context without trailing zeros. -/
def normalize (ctx : Context) (x : Decimal) : Except Fault Decimal := (ctx.fit x).map reduce

end Context

namespace Decimal

/-- The nearest integer on the side that the rounding chooses, exact whatever its size. -/
def toIntegral (mode : Rounding) : Decimal → Except Fault Decimal
  | finite s c e =>
    if 0 ≤ e then .ok (finite s c e) else .ok (finite s (mode.shift s c (-e).toNat) 0)
  | infinite s => .ok (infinite s)
  | nan s q p => if q then .error (.undefined .operation) else .ok (nan s q p)

/-- A finite decimal without a fraction. -/
def isIntegral : Decimal → Bool
  | finite _ c e =>
    0 ≤ e || (if Number.digitCount c < (-e).toNat then c = 0 else c % 10 ^ (-e).toNat = 0)
  | _ => false

/-- A finite decimal without its fraction, as an integer. -/
def toInt? : Decimal → Option Int
  | finite s c e =>
    let n : Int :=
      if 0 ≤ e then c * 10 ^ e.toNat
      else if Number.digitCount c < (-e).toNat then 0
      else c / 10 ^ (-e).toNat
    some (if s then -n else n)
  | _ => none

end Decimal

example : Context.standard.div (.ofInt 1) (.ofInt 8) = .ok (.finite false 125 (-3)) := rfl
example : (Context.mk 3 .halfUp).div (.ofInt 2) (.ofInt 3) = .ok (.finite false 667 (-3)) := rfl
example : Context.standard.remainder (.ofInt (-7)) (.ofInt 3) = .ok (.finite true 1 0) := rfl

end SciCalc
