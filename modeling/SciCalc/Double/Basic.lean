/-
  Double precision.

  The arithmetic of doubles is binary arithmetic rounded to the format of double precision.  A result that
  is undefined, infinite or smaller than the smallest normal double is a failure, in this order of
  precedence.
-/
import SciCalc.Binary.Arithmetic
import SciCalc.Binary.Integral
import SciCalc.Binary.Reading
import SciCalc.Binary.Text
import SciCalc.Failure

namespace SciCalc.Double

/-- The double nearest to an integer; an integer beyond all doubles is infinite. -/
def ofInt (n : Int) : Binary := Format.double.ofInt n

/-- The rounded sum. -/
def add (x y : Binary) : Binary := Format.double.add x y

/-- The rounded difference. -/
def sub (x y : Binary) : Binary := Format.double.sub x y

/-- The rounded product. -/
def mul (x y : Binary) : Binary := Format.double.mul x y

/-- The rounded quotient. -/
def div (x y : Binary) : Binary := Format.double.div x y

/-- The rounded square root. -/
def sqrt (x : Binary) : Binary := Format.double.sqrt x

/-- One. -/
def one : Binary := .finite false 4503599627370496 (-52)

/-- One half. -/
def half : Binary := .finite false 4503599627370496 (-53)

/-- Two. -/
def two : Binary := .finite false 4503599627370496 (-51)

/-- The double nearest to the circle constant. -/
def pi : Binary := .finite false 7074237752028440 (-51)

/-- The distance from one to the next double. -/
def epsilon : Binary := .finite false 4503599627370496 (-104)

/-- The smallest normal double. -/
def smallestNormal : Binary := .finite false 4503599627370496 (-1074)

/-- The written form with the fewest digits that read back. -/
def text (x : Binary) : String := Binary.text .double x

/-- The double that a text denotes. -/
def read? (s : String) : Option Binary := Format.double.read? s

/-- Refuses an infinite number. -/
def checkOverflow (x : Binary) : Except Failure Binary :=
  match x with
  | .infinite _ => .error (.numeric .overflow)
  | x => .ok x

/-- Refuses a number other than zero that is smaller than the smallest normal double. -/
def checkUnderflow (x : Binary) : Except Failure Binary :=
  if !x.isZero && x.abs.lt smallestNormal then .error (.numeric .underflow) else .ok x

/-- Refuses the undefined number. -/
def checkDefined (x : Binary) : Except Failure Binary :=
  if x.isNaN then .error (.numeric .notANumber) else .ok x

/-- Refuses every exceptional number. -/
def check (x : Binary) : Except Failure Binary := do
  checkOverflow (← checkUnderflow (← checkDefined x))

/-- The quotient of two integers, rounded once.  It is a fault if it is too large for a double. -/
def ratio (n d : Int) : Except Fault Binary :=
  if d = 0 then .error .zeroDivision
  else if n = 0 then .ok .zero
  else match Format.double.quotient (decide (n < 0) != decide (d < 0)) n.natAbs d.natAbs 0 with
    | .infinite _ => .error .overflow
    | x => .ok x

/-- The double nearest to an integer; it is a fault if the integer is beyond all doubles. -/
def ofInt? (n : Int) : Except Fault Binary :=
  match ofInt n with
  | .infinite _ => .error .overflow
  | x => .ok x

/-- The integer that a rounding gives; infinite and undefined numbers have none. -/
def toInt (round : Binary → Option Int) (x : Binary) : Except Fault Int :=
  match round x with
  | some n => .ok n
  | none =>
    if x.isNaN then .error (.domain "cannot convert float NaN to integer") else .error .overflow

example : text pi = "3.141592653589793" := by decide +kernel
example : half = div one two := by decide

end SciCalc.Double
