/-
  Decimal powers.

  An integer power is computed by repeated squaring with a few digits more than the precision, so it is
  exact whenever it fits.  Any other power is `exp (y ln x)`, each step correctly rounded to 23 digits more
  than the precision.  A power that is out of range by orders of magnitude is not computed at all.
-/
import SciCalc.Decimal.Arithmetic
import SciCalc.Decimal.Approximate
import SciCalc.Elementary.Real

namespace SciCalc

namespace Decimal

/-- One. -/
def one : Decimal := finite false 1 0

/-- A whole number that two does not divide. -/
def isOdd (x : Decimal) : Bool :=
  match x with
  | finite _ _ e => e ≤ 0 && x.isIntegral && (match x.toInt? with
    | some n => n % 2 = 1
    | none => false)
  | _ => false

/-- The number of decimal digits of an integer. -/
def exponentDigits (n : Int) : Int := Number.digitCount n.natAbs

/-- A lower bound of `log₁₀ |log₁₀ x|` for a positive number `x = c · 10 ^ e` other than one. -/
def logLogBound (c : Nat) (e : Int) : Int :=
  let top := e + Number.digitCount c - 1
  if 0 < top then exponentDigits top - 1
  else if top < -1 then exponentDigits (top + 1) - 1
  else
    let low := min e 0
    let gap : Int := (aligned c e low : Int) - aligned 1 0 low
    let u := low + Number.digitCount gap.natAbs - 1
    if top = 0 then u - 2 else u

/-- The logarithm of the positive number `c · 10 ^ e`, correctly rounded to `count` digits. -/
def lnDigits (count c : Nat) (e : Int) : Decimal :=
  let w := 4 * (count + Number.digitCount c + Number.digitCount e.natAbs) + 4 * e.natAbs.min 2000 + 64
  match Elementary.ln (.ofBits w) ((Format.ofBits (2 * w)).ofNumeral false c e) with
  | .finite s m e => digitsOf .toEven count s m e
  | _ => .nan false false 0

/-- The exponential of a number, correctly rounded to `count` digits. -/
def expDigits (count : Nat) : Decimal → Decimal
  | finite s c e =>
    let w := 4 * (count + 20) + 64
    match Elementary.exp (.ofBits w) ((Format.ofBits (w + 128)).ofNumeral s c e) with
    | .finite t m k => digitsOf .toEven count t m k
    | _ => .nan false false 0
  | x => x

end Decimal

namespace Context

open Decimal

/-- A power by squaring: `y` to the power whose bits from number `bit - 1` downwards are still to come. -/
def powBits (ctx : Context) (x : Decimal) (n : Nat) : Nat → Decimal → Except Fault Decimal
  | 0, y => .ok y
  | bit + 1, y => do
    let y ← ctx.mul y y
    let y ← if n.testBit bit then ctx.mul y x else pure y
    ctx.powBits x n bit y

/-- An integer power of a finite decimal other than zero. -/
def powInt (ctx : Context) (x : Decimal) (n : Int) (digits : Nat) (negative : Bool) :
    Except Fault Decimal := do
  let wide : Context := ⟨ctx.precision + digits + 2 + (if n < 0 then 1 else 0), .halfEven⟩
  let x ← if n < 0 then wide.div one x else pure x
  match ← wide.powBits x n.natAbs n.natAbs.log2 x with
  | .finite _ c e => ctx.finish negative c e
  | y => return y

/-- A power of a positive decimal. -/
def powReal (ctx : Context) (c : Nat) (e : Int) (y : Decimal) : Except Fault Decimal := do
  let count := max ctx.precision (Number.digitCount c) + 23
  let wide : Context := ⟨count, .halfEven⟩
  match expDigits count (← wide.mul (lnDigits count c e) y) with
  | .finite s c e => ctx.finish s c e
  | r => return r

/-- A power of a number of magnitude one: as many zeros as the exact power has, at most the precision. -/
def powOne (ctx : Context) (negative : Bool) (e : Int) (y : Decimal) : Decimal :=
  let full := ctx.precision - 1
  let places : Nat :=
    if y.isIntegral && (y.isNegative || e = 0) then 0
    else if 20 < y.adjusted then full
    else match y.isIntegral, y.toInt? with
      | true, some n => (n * -e).toNat.min full
      | _, _ => full
  .finite negative (10 ^ places) (-places)

/-- The result of a power that is certainly out of range: a fault if it is too large, and otherwise the
    least decimals, rounded. -/
def powBeyond? (ctx : Context) (negative : Bool) (c : Nat) (e : Int) (y : Decimal) :
    Option (Except Fault Decimal) :=
  let bound := logLogBound c e + y.adjusted
  let small := (e + Number.digitCount c - 1 < 0) != y.isNegative
  if !small then
    if exponentDigits maxExponent < bound then some (.error .decimalOverflow) else none
  else if exponentDigits ctx.tiny < bound then some (ctx.finish negative 1 (ctx.tiny - 1))
  else none

/-- The number of digits that an exponent adds to the working precision. -/
def exponentLength : Decimal → Nat
  | .finite _ c e => ((Number.digitCount c : Int) + e).toNat
  | _ => 0

/-- A power of a finite decimal other than zero to a finite exponent other than zero. -/
def powFinite (ctx : Context) (s : Bool) (c : Nat) (e : Int) (y : Decimal) : Except Fault Decimal :=
  let negative := s && y.isOdd
  if compareMagnitude c e 1 0 = .eq then
    if s && !y.isIntegral then .error (.undefined .operation) else .ok (ctx.powOne negative e y)
  else if s && !y.isIntegral then .error (.undefined .operation)
  else match ctx.powBeyond? negative c e y with
    | some r => r
    | none =>
      match y.isIntegral, y.toInt? with
      | true, some n => ctx.powInt (.finite s c e) n (exponentLength y) negative
      | _, _ => ctx.powReal c e y

/-- The power of any decimals.  A zero to a negative power is infinite, zero to the power zero undefined. -/
def power (ctx : Context) (x y : Decimal) : Except Fault Decimal :=
  match ctx.nanResult? x y with
  | some r => r
  | none =>
    let negative := x.isNegative && y.isOdd
    if x.isZero then
      if y.isZero then .error (.undefined .operation)
      else .ok (if y.isNegative then .infinite negative else .finite negative 0 0)
    else if x.isNegative && !y.isIntegral then .error (.undefined .operation)
    else match x, y with
      | .finite _ c e, .infinite t =>
        match compareMagnitude c e 1 0 with
        | .eq => .ok (.finite false (10 ^ (ctx.precision - 1)) (-((ctx.precision - 1 : Nat) : Int)))
        | .gt => .ok (if t then .finite false 0 0 else .infinite false)
        | .lt => .ok (if t then .infinite false else .finite false 0 0)
      | .infinite _, y =>
        .ok (if y.isZero then .finite negative 1 0
          else if y.isNegative then .finite negative 0 0 else .infinite negative)
      | .finite s c e, y => if y.isZero then .ok one else ctx.powFinite s c e y
      | x, _ => .ok x

end Context

end SciCalc
