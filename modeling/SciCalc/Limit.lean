/-
  Limits and defaults of the calculator.
-/
namespace SciCalc.Limit

/-- The longest expression, in characters. -/
def inputLength : Nat := 10000

/-- The deepest nesting of parentheses, and of calls of defined functions. -/
def nesting : Nat := 100

/-- The largest exponent of an exact integer power, and of a literal that is read as an exact integer. -/
def integerExponent : Nat := 100000

/-- The largest argument of a factorial. -/
def factorial : Nat := 10000

/-- The most objects that are chosen or arranged. -/
def choice : Nat := 9223372036854775807

/-- The number of calculations that are remembered. -/
def history : Nat := 100

/-- The significant digits that a double is shown with. -/
def outputDigits : Nat := 15

/-- The number of steps of a root search. -/
def rootSteps : Nat := 100

/-- The number of refinements of a quadrature. -/
def quadratureDegree : Nat := 6

/-- The least decimal precision. -/
def leastPrecision : Nat := 1

/-- The greatest decimal precision. -/
def greatestPrecision : Nat := 1000

/-- The decimal precision that is used unless another one is chosen. -/
def defaultPrecision : Nat := 50

/-- The most digits of an integer that is read from a text, or told in a message. -/
def numeralDigits : Nat := 4300

/-- The version of the program. -/
def version : String := "1.0.0"

end SciCalc.Limit
