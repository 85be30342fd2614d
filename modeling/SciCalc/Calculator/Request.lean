/-
  Single requests.

  A request is answered by a new calculator, with the modes and variables that its options give.  The
  options are applied in a fixed order; what goes wrong with them is the answer.
-/
import SciCalc.Calculator.Analysis

namespace SciCalc

/-- The options of a request; those that are not given keep their defaults. -/
structure Options where
  /-- The unit of angles. -/
  angle : Option Plain
  /-- The regime. -/
  regime : Option Plain
  /-- The policy for complex results. -/
  complexPolicy : Option Plain
  /-- The number of digits of decimals. -/
  precision : Option Plain
  /-- The rounding. -/
  rounding : Option Plain
  /-- Variables and their values. -/
  bindings : List (String × Plain)
deriving Inhabited

namespace Modes

/-- Applies a setting if it is given. -/
def setIf (set : Modes → Plain → Except Failure Modes) (value : Option Plain) (m : Modes) :
    Except Failure Modes :=
  match value with
  | some value => set m value
  | none => .ok m

end Modes

namespace Options

/-- The modes with the given ones set. -/
def modes (o : Options) (m : Modes) : Except Failure Modes := do
  let m ← m.setIf Modes.setAngle o.angle
  let m ← m.setIf Modes.setRegime o.regime
  let m ← m.setIf Modes.setComplex o.complexPolicy
  let m ← m.setIf Modes.setPrecision o.precision
  m.setIf Modes.setRounding o.rounding

/-- A new calculator with the options. -/
def calculator (o : Options) : Except Failure Calculator := do
  let c := Calculator.new Limit.history
  let c := { c with modes := ← o.modes c.modes }
  o.bindings.foldlM (fun c entry => c.setVariable (.text entry.1) entry.2) c

/-- The result that tells a failure of the options. -/
def refusal (f : Failure) : CalculationResult := .failure f.outcome.1 f.outcome.2 0 0

/-- Evaluates an expression. -/
def evaluate (o : Options) (expression : Plain) : CalculationResult :=
  match o.calculator with
  | .ok c => (c.calculate expression).1
  | .error f => refusal f

/-- Checks an expression. -/
def validate (o : Options) (expression : Plain) : ValidationResult :=
  match o.calculator with
  | .ok c => c.validate expression
  | .error f => .invalid .error [f.outcome.1]

/-- Finds a root. -/
def solve (o : Options) (expression unknown guess : Plain) : Except Failure CalculationResult :=
  match o.calculator with
  | .ok c => (c.solve expression unknown guess).1
  | .error f => .ok (refusal f)

/-- Integrates. -/
def integrate (o : Options) (expression lower upper unknown : Plain) : Except Failure CalculationResult :=
  match o.calculator with
  | .ok c => (c.integrate expression lower upper unknown).1
  | .error f => .ok (refusal f)

end Options

end SciCalc
