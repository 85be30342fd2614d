/-
  Roots and integrals of expressions.

  The expression is evaluated with one variable bound to the doubles that the search or the quadrature asks
  for.  A failure of an evaluation is the failure of the whole request; a fault of the search itself is one
  of convergence.
-/
import SciCalc.Calculator.Functions
import SciCalc.Calculator.Point
import SciCalc.Solver.Quadrature

namespace SciCalc

namespace Calculator

open Solver (Scalar)

/-- The name of the unknown and the expression in postfix order. -/
def equation (c : Calculator) (expression unknown : Plain) : Except Failure (String × List Token) := do
  return (← c.variableName unknown, ← c.compile expression)

/-- A found double in the active regime. -/
def settled (c : Calculator) (x : Binary) : Except Failure (Value × String) := do
  let v ← c.modes.normalize (.real x)
  return (v, ← v.shown)

section

variable {m : Type → Type} [Monad m] [MonadLiftT (Except Failure) m]
  (evaluate : Environment → List Token → m Outcome)

/-- Tokens as a function of a variable, given how tokens are evaluated. -/
def scalar (c : Calculator) (name : String) (ps : List Token) : Scalar m := fun x => do
  let env := c.environment
  let outcome ← evaluate { env with scope := [(name, .real x)] } ps
  outcome.value.toReal

/-- The root near a guess, if the search ends at one. -/
def root? (c : Calculator) (expression unknown guess : Plain) : m (Option (Value × String)) := do
  let (name, ps) ← c.equation expression unknown
  let (first, further) ← guess.toGuess
  match ← Solver.root? (c.scalar evaluate name ps) first further with
  | some x => return some (← c.settled x.toDouble)
  | none => return none

/-- The integral between two bounds. -/
def integral (c : Calculator) (expression lower upper unknown : Plain) : m (Value × String) := do
  let (name, ps) ← c.equation expression unknown
  if lower.same upper then c.settled .zero
  else
    let a ← lower.toPoint
    let b ← upper.toPoint
    c.settled (← Solver.integral (c.scalar evaluate name ps) (lower.areNumbers upper) a b)

end

/-- What a request ends with: a value, a failure that is told in the result, or a failure that is not. -/
inductive Ending where
  | found (v : Value) (formatted : String)
  | failed (message code : String)
  | raised (f : Failure)

/-- The ending after a failure.  Divisions by zero and arguments outside a domain that the search itself
    meets are told as `tell` says, under a code of their own. -/
def endingOf (tell : String → String) (code : String) (f : Failure) : Ending :=
  match f with
  | .fault .zeroDivision => .failed (tell "") code
  | .fault (.domain reason) => .failed (tell reason) code
  | .fault cause => .raised (.fault cause)
  | .unexpected condition detail => .raised (.unexpected condition detail)
  | f => .failed f.outcome.1 f.outcome.2

/-- Records an ending. -/
def conclude (c : Calculator) (what : String) : Ending → Except Failure CalculationResult × Calculator
  | .found v formatted =>
    let (r, c) := c.succeed what v formatted 0 0 0
    (.ok r, c)
  | .failed message code =>
    let (r, c) := c.failWith message code 0 0
    (.ok r, c)
  | .raised f => (.error f, c)

/-- What a root search is remembered as. -/
def solveText (expression unknown : Plain) : String :=
  "solve(" ++ expression.inMessage ++ ", " ++ unknown.inMessage ++ ")"

/-- The ending of a root search. -/
def solveEnding (guess : Plain) (found : Except Failure (Option (Value × String))) : Ending :=
  let message := "No root found near " ++ guess.inMessage
  let code := "NO_CONVERGENCE"
  match found with
  | .ok (some (v, formatted)) => .found v formatted
  | .ok none => .failed message code
  | .error f => endingOf (fun _ => message) code f

/-- **Finds a root** of an expression in a variable near a guess. -/
def solve (c : Calculator) (expression unknown guess : Plain) :
    Except Failure CalculationResult × Calculator :=
  c.begin.conclude (solveText expression unknown)
    (solveEnding guess (c.begin.root? Environment.evaluate expression unknown guess))

/-- What a quadrature is remembered as. -/
def integrateText (expression lower upper unknown : Plain) : String :=
  "integrate(" ++ Text.join ", " ([expression, unknown, lower, upper].map (·.inMessage)) ++ ")"

/-- The ending of a quadrature. -/
def integrateEnding (found : Except Failure (Value × String)) : Ending :=
  match found with
  | .ok (v, formatted) => .found v formatted
  | .error f => endingOf ("Integration failed: " ++ ·) "INVALID_OPERATION" f

/-- **Integrates an expression** over a variable between two bounds. -/
def integrate (c : Calculator) (expression lower upper unknown : Plain) :
    Except Failure CalculationResult × Calculator :=
  c.begin.conclude (integrateText expression lower upper unknown)
    (integrateEnding (c.begin.integral Environment.evaluate expression lower upper unknown))

end Calculator

end SciCalc
