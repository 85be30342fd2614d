/-
  Faults of plain arithmetic.

  An operation on plain numbers that has no result says why.  The evaluator turns a fault into an error
  of the calculation; outside the evaluator a fault is reported as it is.
-/
import SciCalc.Limit
import SciCalc.Number.Digits

namespace SciCalc

/-- The integer has so few digits that a message can tell it. -/
def Number.isTellable (n : Int) : Bool := digitCount n.natAbs ≤ Limit.numeralDigits

/-- Why a decimal operation is undefined. -/
inductive Undefined where
  /-- No decimal is the result, as for `0 ^ 0`. -/
  | operation
  /-- Zero is divided by zero. -/
  | ratio
  /-- The integer quotient has more digits than the precision. -/
  | division
  /-- The text is not a decimal. -/
  | conversion
deriving DecidableEq

/-- Why an operation on plain numbers has no result. -/
inductive Fault where
  /-- A decimal operation is undefined. -/
  | undefined (cause : Undefined)
  /-- A decimal exceeds the largest exponent. -/
  | decimalOverflow
  /-- A number exceeds the range of doubles. -/
  | overflow
  /-- Something is divided by zero. -/
  | zeroDivision
  /-- A decimal is divided by zero. -/
  | decimalZeroDivision
  /-- An argument is outside the domain. -/
  | domain (reason : String)
deriving DecidableEq

/-- The message of a fault that the calculation passes on. -/
def Fault.message : Fault → String
  | .undefined .operation => "[<class 'decimal.InvalidOperation'>]"
  | .undefined .ratio => "[<class 'decimal.DivisionUndefined'>]"
  | .undefined .division => "[<class 'decimal.DivisionImpossible'>]"
  | .undefined .conversion => "[<class 'decimal.ConversionSyntax'>]"
  | .decimalOverflow => "decimal exponent out of range"
  | .overflow => "result exceeds the double range"
  | .zeroDivision => "division by zero"
  | .decimalZeroDivision => "[<class 'decimal.DivisionByZero'>]"
  | .domain reason => reason

/-- The limit of the digits of an integer, as messages tell it. -/
def Fault.digitLimit : String :=
  "Exceeds the limit (" ++ Number.natText Limit.numeralDigits ++ " digits) for integer string conversion"

/-- The fault of an integer that has too many digits to be told. -/
def Fault.tooLong : Fault :=
  .domain (digitLimit ++ "; use sys.set_int_max_str_digits() to increase the limit")

/-- The fault of a numeral of so many digits, too many to be read. -/
def Fault.longNumeral (count : Nat) : Fault :=
  .domain (digitLimit ++ ": value has " ++ Number.natText count
    ++ " digits; use sys.set_int_max_str_digits() to increase the limit")

end SciCalc
