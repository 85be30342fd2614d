/-
  Decimal floating-point numbers.

  A finite decimal is `± coefficient · 10 ^ exponent`; `1.5` and `1.50` are equal in value and differ as
  written.  A `Context` has a precision and a rounding, `Context.finish` brings an exact result into it:
  too many digits are rounded off, a result beyond the largest exponent is a fault, one below the least
  exponent loses digits instead.
-/
import SciCalc.Number.Digits
import SciCalc.Number.Fault

namespace SciCalc

/-- How a decimal with too many digits is rounded. -/
inductive Rounding where
  /-- To the nearest, a half to the even digit. -/
  | halfEven
  /-- To the nearest, a half away from zero. -/
  | halfUp
  /-- Toward positive infinity. -/
  | ceiling
  /-- Toward negative infinity. -/
  | floor
  /-- Toward zero. -/
  | down
  /-- Away from zero. -/
  | up
deriving DecidableEq, Inhabited

/-- The name of a rounding. -/
def Rounding.name : Rounding → String
  | halfEven => "ROUND_HALF_EVEN"
  | halfUp => "ROUND_HALF_UP"
  | ceiling => "ROUND_CEILING"
  | floor => "ROUND_FLOOR"
  | down => "ROUND_DOWN"
  | up => "ROUND_UP"

/-- All roundings. -/
def Rounding.all : List Rounding := [halfEven, halfUp, ceiling, floor, down, up]

/-- A decimal floating-point number. -/
inductive Decimal where
  /-- The number `± coefficient · 10 ^ exponent`. -/
  | finite (negative : Bool) (coefficient : Nat) (exponent : Int)
  /-- An infinity. -/
  | infinite (negative : Bool)
  /-- Not a number, perhaps with a diagnostic number; a signaling one makes every operation undefined. -/
  | nan (negative signaling : Bool) (payload : Nat)
deriving DecidableEq, Inhabited

namespace Decimal

/-- An integer as a decimal. -/
def ofInt (n : Int) : Decimal := finite (decide (n < 0)) n.natAbs 0

/-- The number is a zero. -/
def isZero : Decimal → Bool
  | finite _ c _ => c = 0
  | _ => false

/-- The number is neither infinite nor undefined. -/
def isFinite : Decimal → Bool
  | finite .. => true
  | _ => false

/-- The number is undefined. -/
def isNaN : Decimal → Bool
  | nan .. => true
  | _ => false

/-- The sign, also of a zero. -/
def isNegative : Decimal → Bool
  | finite s _ _ => s
  | infinite s => s
  | nan s _ _ => s

/-- The exponent of the leading digit; zero if the number is not finite. -/
def adjusted : Decimal → Int
  | finite _ c e => e + Number.digitCount c - 1
  | _ => 0

/-- The number without its sign. -/
def abs : Decimal → Decimal
  | finite _ c e => finite false c e
  | infinite _ => infinite false
  | nan _ s p => nan false s p

/-- The number with the opposite sign. -/
def neg : Decimal → Decimal
  | finite s c e => finite (!s) c e
  | infinite s => infinite (!s)
  | nan s q p => nan (!s) q p

end Decimal

/-- Whether the quotient `q` with rest `r` of a division by `d` is rounded away from zero. -/
def Rounding.increments (mode : Rounding) (negative : Bool) (q r d : Nat) : Bool :=
  if r = 0 then false
  else match mode with
    | .down => false
    | .up => true
    | .ceiling => !negative
    | .floor => negative
    | .halfUp => d ≤ 2 * r
    | .halfEven => d < 2 * r || (2 * r = d && q % 2 = 1)

/-- `c / 10 ^ drop`, rounded to a natural number.  If more digits are dropped than there are, the quotient
    is zero and the rest less than a half. -/
def Rounding.shift (mode : Rounding) (negative : Bool) (c drop : Nat) : Nat :=
  if Number.digitCount c < drop then
    if mode.increments negative 0 (min c 1) 10 then 1 else 0
  else
    let d := 10 ^ drop
    let q := c / d
    if mode.increments negative q (c % d) d then q + 1 else q

/-- The precision and the rounding of decimal arithmetic. -/
structure Context where
  /-- The number of significant digits. -/
  precision : Nat
  /-- What happens to further digits. -/
  rounding : Rounding
deriving DecidableEq

namespace Context

/-- The greatest number of digits that can be asked for. -/
def maxPrecision : Nat := 999999999999999999

/-- The greatest exponent of a leading digit. -/
def maxExponent : Int := 999999

/-- The least exponent of a leading digit at full precision. -/
def minExponent : Int := -999999

/-- The least exponent of any digit. -/
def tiny (ctx : Context) : Int := minExponent - (ctx.precision - 1)

/-- The context of operations that name none. -/
def standard : Context := ⟨28, .halfEven⟩

/-- A result that is computed in the context; no result is in a context without digits. -/
def entered {α : Type} (ctx : Context) (r : Except Fault α) : Except Fault α :=
  if ctx.precision = 0 then .error (.domain "valid range for prec is [1, MAX_PREC]") else r

/-- The number of low digits of a non-zero coefficient that do not fit. -/
def surplus (ctx : Context) (c : Nat) (e : Int) : Nat :=
  let count := Number.digitCount c
  let long := count - ctx.precision
  if e + count - 1 < minExponent then max long (ctx.tiny - e).toNat else long

/-- **Finishing**: the exact result `± c · 10 ^ e` as a decimal of the context. -/
def finish (ctx : Context) (negative : Bool) (c : Nat) (e : Int) : Except Fault Decimal :=
  if c = 0 then .ok (.finite negative 0 (min (max e ctx.tiny) maxExponent))
  else if maxExponent < e + Number.digitCount c - 1 then .error .decimalOverflow
  else
    let drop := ctx.surplus c e
    if drop = 0 then .ok (.finite negative c e)
    else
      let q := ctx.rounding.shift negative c drop
      let carried := ctx.precision < Number.digitCount q
      let (q, e) := if carried then (q / 10, e + drop + 1) else (q, e + drop)
      if maxExponent < e + Number.digitCount q - 1 then .error .decimalOverflow
      else .ok (.finite negative q e)

/-- What becomes of an undefined operand: a signaling one is a fault, a quiet one is the result. -/
def finishNaN (ctx : Context) (negative signaling : Bool) (payload : Nat) : Except Fault Decimal :=
  if signaling then .error (.undefined .operation)
  else .ok (.nan negative false (payload % 10 ^ ctx.precision))

/-- The result that undefined operands force: a signaling one goes first, then the left one. -/
def nanResult? (ctx : Context) : Decimal → Decimal → Option (Except Fault Decimal)
  | .nan s true p, _ => some (ctx.finishNaN s true p)
  | _, .nan s true p => some (ctx.finishNaN s true p)
  | .nan s q p, _ => some (ctx.finishNaN s q p)
  | _, .nan s q p => some (ctx.finishNaN s q p)
  | _, _ => none

/-- The decimal in the context.  A zero loses its sign, but not when rounding toward negative infinity. -/
def plus (ctx : Context) : Decimal → Except Fault Decimal
  | .finite s c e => ctx.finish (s && (c ≠ 0 || ctx.rounding = .floor)) c e
  | .infinite s => .ok (.infinite s)
  | .nan s q p => ctx.finishNaN s q p

/-- The opposite of a decimal in the context. -/
def minus (ctx : Context) : Decimal → Except Fault Decimal
  | .finite s c e => ctx.finish (!s && (c ≠ 0 || ctx.rounding = .floor)) c e
  | .infinite s => .ok (.infinite (!s))
  | .nan s q p => ctx.finishNaN s q p

end Context

example : (Context.mk 3 .halfUp).finish false 12345 0 = .ok (.finite false 123 2) := rfl
example : (Context.mk 2 .up).finish true 991 (-1) = .ok (.finite true 10 1) := rfl

end SciCalc
