/-
  The named constants.

  A constant has a name in any case of letters and a double as its value; for decimals it is computed anew
  with five more digits than are asked for and rounded in the context of decimals.  The imaginary unit is
  the only complex constant.
-/
import SciCalc.Decimal.Approximate
import SciCalc.Elementary.Real
import SciCalc.Text.Case
import SciCalc.Value.Basic

namespace SciCalc

/-- What a constant is, to any precision. -/
inductive ConstantRule where
  | circle
  | euler
  | golden
  | fullTurn
  | mascheroni
  /-- The natural logarithm of a number. -/
  | logarithm (n : Nat)
  /-- The square root of two. -/
  | root
  /-- The square root of one half. -/
  | rootOfHalf
  | imaginaryUnit
deriving DecidableEq

/-- A named constant. -/
structure Constant where
  /-- The name, in lower case. -/
  name : String
  /-- What it is. -/
  rule : ConstantRule
  /-- The double nearest to it, zero for the imaginary unit. -/
  value : Binary
  /-- What is told about it. -/
  description : String
deriving DecidableEq

namespace ConstantRule

/-- The constant in a format; the imaginary unit has no such value. -/
def inFormat? (f : Format) : ConstantRule → Option Binary
  | circle => some (Elementary.circle f)
  | euler => some (Elementary.euler f)
  | golden => some (Elementary.golden f)
  | fullTurn => some (Elementary.double (Elementary.circle f))
  | mascheroni => some (Elementary.mascheroni f)
  | logarithm n => some (Elementary.ln f (.finite false n 0))
  | root => some (f.sqrt (.finite false 1 1))
  | rootOfHalf => some (f.sqrt (.finite false 1 (-1)))
  | imaginaryUnit => none

end ConstantRule

namespace Decimal

/-- The digits that a decimal computation carries beyond the precision. -/
def guardDigits : Nat := 5

/-- The bits of ten quadrillion digits. -/
def bitsOfManyDigits : Nat := 33219280948873626

/-- The bits that a number of digits needs, with one digit to spare. -/
def bitsForDigits (digits : Nat) : Nat :=
  max 1 (((digits + 1) * bitsOfManyDigits + 5000000000000000) / 10000000000000000)

/-- The format that results of a precision are computed in. -/
def computingFormat (precision : Nat) : Format := .ofBits (bitsForDigits (precision + guardDigits))

end Decimal

/-- A computed number as a decimal of a context: it is written with the guard digits, and the written
    number is rounded. -/
def Context.ofComputed (ctx : Context) (x : Binary) : Except Fault Decimal := do
  ctx.plus (← Decimal.ofDigits (ctx.precision + Decimal.guardDigits) x)

namespace Constant

/-- The positive number `m · 2 ^ e`. -/
def number (m : Nat) (e : Int) : Binary := .finite false m e

/-- All constants in the order in which they are listed. -/
def all : List Constant :=
  [⟨"pi", .circle, number 7074237752028440 (-51),
      "Ratio of a circle's circumference to its diameter"⟩,
    ⟨"π", .circle, number 7074237752028440 (-51),
      "Ratio of a circle's circumference to its diameter"⟩,
    ⟨"e", .euler, number 6121026514868073 (-51), "Base of the natural logarithm"⟩,
    ⟨"phi", .golden, number 7286977268806824 (-52), "Golden ratio"⟩,
    ⟨"φ", .golden, number 7286977268806824 (-52), "Golden ratio"⟩,
    ⟨"tau", .fullTurn, number 7074237752028440 (-50), "Full turn in radians"⟩,
    ⟨"τ", .fullTurn, number 7074237752028440 (-50), "Full turn in radians"⟩,
    ⟨"euler", .mascheroni, number 5199096506725913 (-53), "Euler-Mascheroni constant"⟩,
    ⟨"ln2", .logarithm 2, number 6243314768165359 (-53), "Natural logarithm of 2"⟩,
    ⟨"ln10", .logarithm 10, number 5184960683398422 (-51), "Natural logarithm of 10"⟩,
    ⟨"sqrt2", .root, number 6369051672525773 (-52), "Square root of 2"⟩,
    ⟨"sqrt1_2", .rootOfHalf, number 6369051672525773 (-53), "Square root of 1/2"⟩,
    ⟨"i", .imaginaryUnit, .zero, "Imaginary unit"⟩]

/-- The constant of a name. -/
def find? (name : String) : Option Constant := all.find? (·.name = Text.lower name)

/-- The constant is complex. -/
def isComplex (c : Constant) : Bool := c.rule = .imaginaryUnit

/-- The constant as a value: a decimal if there is a context for it, and else a double. -/
def toValue (c : Constant) (ctx? : Option Context) : Except Failure Value :=
  match ctx? with
  | none => .ok (if c.isComplex then .complex ⟨.zero, Double.one⟩ else .real c.value)
  | some ctx =>
    match c.rule.inFormat? (Decimal.computingFormat ctx.precision) with
    | none => .ok (.complex ⟨.zero, Double.one⟩)
    | some x => do return .decimal (← ofFault (ctx.entered (ctx.ofComputed x))) ctx

end Constant

end SciCalc
