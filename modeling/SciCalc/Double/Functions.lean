/-
  Elementary functions of doubles.

  The functions that complex arithmetic and real powers are made of: correctly rounded, with signed zeros
  and infinities, and with a fault where a value is out of range or the argument outside the domain.
-/
import SciCalc.Double.Basic
import SciCalc.Elementary.Real

namespace SciCalc.Double

/-- The fault of an argument outside the domain. -/
def domainFault : Fault := .domain "math domain error"

/-- A computed value as a double, rounded once for all practical purposes. -/
def ofWide (x : Binary) : Binary := Format.double.convert ((Format.ofBits (53 + 32)).convert x)

/-- The bits that a function of doubles is computed with. -/
def wideBits : Nat := 160

/-- The exponential function; a finite argument whose value is infinite is a fault. -/
def exp (x : Binary) : Except Fault Binary :=
  match ofWide (expWide x) with
  | .infinite s => if x.isFinite then .error .overflow else .ok (.infinite s)
  | y => .ok y
where
  /-- The exponential of the argument. -/
  expWide (x : Binary) : Binary := Elementary.expWide wideBits x

/-- The natural logarithm of a positive number. -/
def ln (x : Binary) : Except Fault Binary :=
  if x.isZero || (x.isNegative && !x.isNaN) then .error domainFault
  else .ok (ofWide (Elementary.lnWide wideBits x))

/-- The cosine. -/
def cos (x : Binary) : Except Fault Binary :=
  match x with
  | .infinite _ => .error domainFault
  | x => .ok (ofWide (Elementary.cosWide wideBits x))

/-- The sine; that of a zero is the same zero. -/
def sin (x : Binary) : Except Fault Binary :=
  match x with
  | .infinite _ => .error domainFault
  | x => if x.isZero then .ok x else .ok (ofWide (Elementary.sinWide wideBits x))

/-- The square root of a number that is not negative. -/
def root (x : Binary) : Except Fault Binary :=
  if x.isNegative && !x.isZero then .error domainFault else .ok (sqrt x)

/-- So many bits that the sum of the squares of two doubles is exact. -/
def exactSquares : Format := .ofBits 4400

/-- The length of the vector `(x, y)`. -/
def hypot (x y : Binary) : Binary :=
  match x, y with
  | .infinite _, _ => .infinite false
  | _, .infinite _ => .infinite false
  | x, y => sqrt (exactSquares.add (exactSquares.mul x x) (exactSquares.mul y y))

/-- The angle of the point `(x, y)`; zeros count with their signs. -/
def arctan2 (y x : Binary) : Binary :=
  if y.isNaN || x.isNaN then .nan
  else
    let w := wideBits
    let whole := Elementary.piWide w
    let magnitude : Binary :=
      match y, x with
      | .infinite _, .infinite t =>
        if t then (Format.ofBits w).mul whole (.finite false 3 (-2)) else Elementary.half (Elementary.half whole)
      | .infinite _, _ => Elementary.half whole
      | _, .infinite t => if t then whole else .zero
      | y, x =>
        if y.isZero then (if x.isNegative then whole else .zero)
        else if x.isZero then Elementary.half whole
        else Elementary.angleWide w y.abs x
    let a := ofWide magnitude
    if y.isNegative then a.neg else a

/-- The exponents up to which a power is computed exactly before it is rounded. -/
def exactPowerLimit : Nat := 64

/-- The power of a positive finite number to a finite exponent. -/
def powPositive (m : Nat) (e : Int) (y : Binary) : Binary :=
  match y.isIntegral, y.floor? with
  | true, some n =>
    if n.natAbs ≤ exactPowerLimit then
      if 0 ≤ n then Format.double.round false (m ^ n.natAbs) (e * n)
      else Format.double.quotient false 1 (m ^ n.natAbs) (e * n)
    else general
  | _, _ => general
where
  /-- The power as `exp (y ln x)`. -/
  general : Binary :=
    let f := Format.ofBits wideBits
    ofWide (Elementary.expWide wideBits (f.mul y (Elementary.lnWide wideBits (.finite false m e))))

/-- What a power of a real number is. -/
inductive Power where
  /-- The real power. -/
  | real (x : Binary)
  /-- A negative number to a fraction has no real power. -/
  | notReal
deriving DecidableEq

/-- The power of doubles.  Zero to a negative power and an infinite power of finite numbers are faults. -/
def pow (x y : Binary) : Except Fault Power :=
  if y.isZero then .ok (.real one)
  else if x.isNaN then .ok (.real .nan)
  else if y.isNaN then .ok (.real (if x.eq one then one else .nan))
  else match y with
    | .infinite t =>
      if x.abs.eq one then .ok (.real one)
      else if t = x.abs.lt one then .ok (.real (.infinite false))
      else .ok (.real .zero)
    | y =>
      let odd := y.isIntegral && y.isOdd
      let sign (r : Binary) : Binary := if x.isNegative && odd then r.neg else r
      match x with
      | .infinite _ => .ok (.real (sign (if y.isNegative then .zero else .infinite false)))
      | .finite s m e =>
        if m = 0 then
          if y.isNegative then .error .zeroDivision else .ok (.real (sign .zero))
        else match powPositive m e y with
          | .infinite _ => .error .overflow
          | r => if s && !y.isIntegral then .ok .notReal else .ok (.real (sign r))
      | .nan => .ok (.real .nan)

end SciCalc.Double
