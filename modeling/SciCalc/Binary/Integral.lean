/-
  Whole numbers among binary numbers: floor, ceiling, truncation and the remainder that goes with it.
-/
import SciCalc.Binary.Basic

namespace SciCalc.Binary

/-- The greatest integer not above a finite number. -/
def floor? : Binary → Option Int
  | finite s m e =>
    if e ≥ 0 then
      let n : Int := (m <<< e.toNat : Nat)
      some (if s then -n else n)
    else
      let q : Int := (m >>> (-e).toNat : Nat)
      let exact := m = (m >>> (-e).toNat) <<< (-e).toNat
      some (if s then (if exact then -q else -q - 1) else q)
  | _ => none

/-- The least integer not below a finite number. -/
def ceil? (x : Binary) : Option Int := x.neg.floor?.map fun n => -n

/-- A finite number without its fraction. -/
def trunc? (x : Binary) : Option Int := if x.isNegative then x.ceil? else x.floor?

/-- A finite number without a fraction. -/
def isIntegral : Binary → Bool
  | finite _ m e => 0 ≤ e || m = (m >>> (-e).toNat) <<< (-e).toNat
  | _ => false

/-- A whole number that two does not divide. -/
def isOdd : Binary → Bool
  | finite _ m e => e ≤ 0 && (m >>> (-e).toNat) % 2 = 1 && m = (m >>> (-e).toNat) <<< (-e).toNat
  | _ => false

/-- What remains of the first number after taking the second away as often as it fits; it is exact and has
    the sign of the first.  Undefined for an infinite first number and for a second number zero. -/
def remainder (f : Format) : Binary → Binary → Binary
  | finite s m e, finite _ n d =>
    if n = 0 then nan
    else
      let low := min e d
      f.round s ((m <<< (e - low).toNat) % (n <<< (d - low).toNat)) low
  | finite s m e, infinite _ => finite s m e
  | _, _ => nan

example : floor? (Format.double.round true 5 (-1)) = some (-3) := by decide

end SciCalc.Binary
