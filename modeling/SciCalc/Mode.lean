/-
  Evaluation modes.

  The modes say in which unit angles are, which numbers a calculation uses (doubles, exact integers or
  decimals), whether complex results are kept, how many digits decimals have and how numbers are rounded.
  A setting is checked before anything changes.  `literal` types a numeral for the active regime, and
  `normalize` brings every operation result into it.
-/
import SciCalc.Elementary.Real
import SciCalc.Plain
import SciCalc.Value.Display

namespace SciCalc

/-- The unit of angles. -/
inductive AngleUnit where
  | radian
  | degree
  | gradian
deriving DecidableEq

/-- The numbers that a calculation uses. -/
inductive Regime where
  /-- Doubles. -/
  | double
  /-- Integers of any size, and doubles where a result is no integer. -/
  | exact
  /-- Decimals. -/
  | decimal
deriving DecidableEq

/-- What becomes of complex results. -/
inductive ComplexPolicy where
  /-- There are none. -/
  | off
  /-- They are kept. -/
  | on
  /-- They are kept while they have an imaginary part. -/
  | auto
deriving DecidableEq

/-- How numbers are rounded to integers, and decimals to their precision. -/
inductive RoundingPolicy where
  | nearest
  | up
  | down
  | towardZero
deriving DecidableEq

/-- The modes of a calculator. -/
structure Modes where
  /-- The unit of angles. -/
  angle : AngleUnit
  /-- The numbers used. -/
  regime : Regime
  /-- What becomes of complex results. -/
  complexPolicy : ComplexPolicy
  /-- The number of digits of decimals. -/
  precision : Nat
  /-- The rounding. -/
  rounding : RoundingPolicy
deriving DecidableEq

/-! ## Names -/

/-- The name of a unit. -/
def AngleUnit.name : AngleUnit → String
  | radian => "rad"
  | degree => "deg"
  | gradian => "grad"

/-- The label of a unit. -/
def AngleUnit.label : AngleUnit → String
  | radian => "Radians"
  | degree => "Degrees"
  | gradian => "Gradians"

/-- The units in the order in which messages list them. -/
def AngleUnit.all : List AngleUnit := [radian, degree, gradian]

/-- The name of a regime. -/
def Regime.name : Regime → String
  | double => "ieee754"
  | exact => "bigint"
  | decimal => "decimal"

/-- The label of a regime. -/
def Regime.label : Regime → String
  | double => "IEEE-754 double"
  | exact => "Exact integers"
  | decimal => "Arbitrary-precision decimal"

/-- The regimes in the order in which messages list them. -/
def Regime.all : List Regime := [double, exact, decimal]

/-- The name of a policy. -/
def ComplexPolicy.name : ComplexPolicy → String
  | off => "off"
  | on => "on"
  | auto => "auto"

/-- The label of a policy. -/
def ComplexPolicy.label : ComplexPolicy → String
  | off => "Real numbers only"
  | on => "Complex results kept"
  | auto => "Complex when needed"

/-- The policies in the order in which messages list them. -/
def ComplexPolicy.all : List ComplexPolicy := [off, on, auto]

/-- The name of a policy. -/
def RoundingPolicy.name : RoundingPolicy → String
  | nearest => "nearest"
  | up => "up"
  | down => "down"
  | towardZero => "toward_zero"

/-- The policies in the order in which messages list them. -/
def RoundingPolicy.all : List RoundingPolicy := [nearest, up, down, towardZero]

/-- The rounding of decimals under a policy. -/
def RoundingPolicy.decimal : RoundingPolicy → Rounding
  | nearest => .halfUp
  | up => .ceiling
  | down => .floor
  | towardZero => .down

namespace Modes

/-! ## Settings -/

/-- The modes of a new calculator. -/
def initial : Modes := ⟨.radian, .double, .off, Limit.defaultPrecision, .nearest⟩

/-- The member of a list with the name that a text gives in any case of letters, with blanks around it. -/
def choose {α : Type} (label : String) (all : List α) (name : α → String)
    (spellings : List (String × String)) (value : Plain) : Except Failure α :=
  match value with
  | .text s =>
    let wanted := Text.lower (Text.trim s)
    let wanted := ((spellings.find? fun p => p.1 = wanted).map (·.2)).getD wanted
    match all.find? fun a => name a = wanted with
    | some a => .ok a
    | none => .error (.mode (.unknown label s (all.map name)))
  | other => .error (other.telling fun shown => .mode (.notText label shown))

/-- Sets the unit of angles. -/
def setAngle (m : Modes) (value : Plain) : Except Failure Modes := do
  return { m with angle := ← choose "angle" AngleUnit.all AngleUnit.name [] value }

/-- Sets the regime. -/
def setRegime (m : Modes) (value : Plain) : Except Failure Modes := do
  return { m with regime := ← choose "precision" Regime.all Regime.name [] value }

/-- Sets the policy for complex results. -/
def setComplex (m : Modes) (value : Plain) : Except Failure Modes := do
  return { m with complexPolicy := ← choose "complex" ComplexPolicy.all ComplexPolicy.name [] value }

/-- Other spellings of rounding policies. -/
def roundingSpellings : List (String × String) :=
  [("towardzero", "toward_zero"), ("toward-zero", "toward_zero")]

/-- Sets the rounding. -/
def setRounding (m : Modes) (value : Plain) : Except Failure Modes := do
  return { m with
    rounding := ← choose "rounding" RoundingPolicy.all RoundingPolicy.name roundingSpellings value }

/-- Sets the number of digits. -/
def setPrecision (m : Modes) (value : Plain) : Except Failure Modes :=
  match value with
  | .integer n =>
    if (Limit.leastPrecision : Int) ≤ n && n ≤ Limit.greatestPrecision then
      .ok { m with precision := n.toNat }
    else .error (.telling n fun n => .mode (.precisionOutOfRange n))
  | other => .error (.mode (.precisionNotInteger other.shown))

/-- Complex results may arise. -/
def complexEnabled (m : Modes) : Bool := m.complexPolicy ≠ .off

/-- The context of decimals. -/
def context (m : Modes) : Context := ⟨m.precision, m.rounding.decimal⟩

/-- The modes on one line. -/
def describe (m : Modes) : String :=
  "angle=" ++ m.angle.name ++ " precision_mode=" ++ m.regime.name ++ " complex=" ++ m.complexPolicy.name
    ++ " digits=" ++ Number.natText m.precision ++ " rounding=" ++ m.rounding.name

/-! ## Angles -/

/-- How many units make half a turn; none for radians. -/
def halfTurn? (m : Modes) : Option Nat :=
  match m.angle with
  | .radian => none
  | .degree => some 180
  | .gradian => some 200

/-- The angle in radians; `circle` is half a turn in the arithmetic of the format. -/
def toRadians (m : Modes) (f : Format) (circle : Binary) (x : Binary) : Binary :=
  match m.halfTurn? with
  | none => x
  | some n => f.mul x (f.div circle (f.ofInt n))

/-- The angle in the configured unit. -/
def fromRadians (m : Modes) (f : Format) (circle : Binary) (x : Binary) : Binary :=
  match m.halfTurn? with
  | none => x
  | some n => f.div x (f.div circle (f.ofInt n))

/-- A double in radians. -/
def doubleToRadians (m : Modes) (x : Binary) : Binary := m.toRadians .double Double.pi x

/-- A double in the configured unit. -/
def doubleFromRadians (m : Modes) (x : Binary) : Binary := m.fromRadians .double Double.pi x

/-! ## Rounding -/

/-- A double rounded to an integer; infinite and undefined ones stay. -/
def roundDouble (m : Modes) (x : Binary) : Binary :=
  let n := match m.rounding with
    | .nearest => (Double.add x Double.half).floor?
    | .up => x.ceil?
    | .down => x.floor?
    | .towardZero => x.trunc?
  match n with
  | some n => if x.isFinite then Double.ofInt n else x
  | none => x

/-- A decimal rounded to an integer.  The nearest one is the floor of the number plus a half, added with
    as many digits as the number has before the point. -/
def roundDecimal (m : Modes) (x : Decimal) (precision : Nat) : Except Fault Decimal :=
  let digits := max precision (max (x.adjusted + 2) 2).toNat
  if Context.maxPrecision < digits then .error (.domain "valid range for prec is [1, MAX_PREC]")
  else match m.rounding with
    | .nearest => do
      let y ← (Context.mk digits .halfEven).add x (.finite false 5 (-1))
      y.toIntegral .floor
    | policy => x.toIntegral policy.decimal

/-- A value rounded to an integer. -/
def round (m : Modes) : Value → Except Failure Value
  | .integer n => .ok (.integer n)
  | .decimal x ctx => do return .decimal (← ofFault (m.roundDecimal x ctx.precision)) ctx
  | .complex z => .ok (.complex ⟨m.roundDouble z.re, m.roundDouble z.im⟩)
  | .real x => .ok (.real (m.roundDouble x))

/-! ## Regimes -/

/-- A numeral as a double. -/
def literalDouble (text : String) : Except Failure Value := do
  match Double.read? text with
  | some x => return .real (← Double.check x)
  | none => .error (.fault (.domain ("could not convert string to float: " ++ Text.quoted text)))

/-- The integer that a decimal is, if it is not too large to be kept exactly. -/
def exactInteger? (x : Decimal) : Option Int :=
  if x.isFinite && x.adjusted ≤ Limit.integerExponent && x.isIntegral then x.toInt? else none

/-- A numeral as a value of the active regime. -/
def literal (m : Modes) (text : String) : Except Failure Value :=
  match m.regime with
  | .decimal => do
    let x ← ofFault (Decimal.read text)
    return .decimal (← ofFault (m.context.plus x)) m.context
  | .exact => do
    match exactInteger? (← ofFault (Decimal.read text)) with
    | some n => return .integer n
    | none => literalDouble text
  | .double => literalDouble text

/-- The value a complex number stands for: itself while complex results are kept and it has an imaginary
    part, and else its real part. -/
def settleComplex (m : Modes) (z : Complex) : Except Failure (Complex ⊕ Binary) := do
  if m.complexPolicy = .on || !z.isReal then
    let _ ← Double.checkDefined z.re
    let _ ← Double.checkDefined z.im
    let _ ← Double.checkOverflow z.re
    let _ ← Double.checkOverflow z.im
    return .inl z
  else return .inr z.re

/-- A double in the exact regime: an integer if it is whole. -/
def exactReal (x : Binary) : Value :=
  match x.isIntegral, x.floor? with
  | true, some n => .integer n
  | _, _ => .real x

/-- A real value in the active regime; a double has been checked. -/
def normalizeReal (m : Modes) (v : Value) : Except Failure Value :=
  match m.regime with
  | .decimal => do return .decimal (← v.toDecimal m.context) m.context
  | .exact =>
    match v with
    | .integer n => .ok (.integer n)
    | v => do return exactReal (← v.toReal)
  | .double =>
    match v with
    | .real x => .ok (.real x)
    | v => do return .real (← Double.check (← v.toReal))

/-- **Normalization**: an operation result in the active regime. -/
def normalize (m : Modes) : Value → Except Failure Value
  | .complex z => do
    match ← m.settleComplex z with
    | .inl z => return .complex z
    | .inr x => m.normalizeReal (.real (← Double.check x))
  | .real x => do m.normalizeReal (.real (← Double.check x))
  | v => m.normalizeReal v

end Modes

end SciCalc
