/-
  Decimals next to binary numbers.

  A binary number is written with a count of significant digits and the digits are read back as a decimal.
  A number far from one is divided by a power of ten first; its size may be such that not even the exponent
  can be written out.
-/
import SciCalc.Binary.Power
import SciCalc.Decimal.Text

namespace SciCalc.Decimal

open Binary

/-- Up to this binary exponent the digits are taken from the number itself. -/
def plainExponent : Nat := 3500

/-- Beyond this binary exponent a number is out of the range of all decimals that can be read. -/
def readableExponent : Int := 10000000000000000000

/-- The exponent of a power of ten close to `2 ^ e`. -/
def tenth (e : Int) : Int := e * 30102999566398119521373889472449 / 100000000000000000000000000000000

/-- The decimal of `count` digits nearest to `± m · 2 ^ e`. -/
def digitsOf (tie : DecimalTie) (count : Nat) (s : Bool) (m : Nat) (e : Int) : Decimal :=
  let top := (width m : Int) + e
  if top.natAbs ≤ plainExponent then
    let (c, k) := significant tie count m e
    .finite s c k
  else if readableExponent < top.natAbs then .finite s (10 ^ (count - 1)) (tenth top - count + 1)
  else
    let f := Format.ofBits (4 * count + 64)
    let b := tenth e
    match f.div (.finite false m e) (f.power (.finite false 10 0) b) with
    | .finite _ m e =>
      let (c, k) := significant tie count m e
      .finite s c (k + b)
    | _ => .nan false false 0

/-- A finite binary number with `count` significant digits, a half rounded away from zero.  Zero has one
    digit behind the point.  An exponent beyond what can be read makes the decimal undefined, one beyond
    what can be written is a fault. -/
def ofDigits (count : Nat) : Binary → Except Fault Decimal
  | .finite s m e =>
    if m = 0 then .ok (.finite false 0 (-1))
    else match digitsOf .away count s m e with
      | .finite s c k =>
        if Limit.numeralDigits < Number.digitCount (k + count - 1).natAbs then .error .tooLong
        else if readable c k then .ok (.finite s c k)
        else .error (.undefined .operation)
      | x => .ok x
  | _ => .error (.undefined .conversion)

end SciCalc.Decimal
