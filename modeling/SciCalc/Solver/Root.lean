/-
  Root search by secants.

  From two starting points, by default a guess and a point a quarter to its right, each step takes the root of
  the line through the last two points.  The search ends with a small step, after a number of steps, or where
  the line is level; the point it ends at counts as a root if the square of the function value there is at most
  the tolerance.  A first point at which the function is zero is a root without a search.
-/
import SciCalc.Failure
import SciCalc.Double.Basic
import SciCalc.Limit

namespace SciCalc.Solver

/-- The bits that points between evaluations are kept with. -/
def pointBits : Nat := 73

/-- The format of points between evaluations. -/
def points : Format := .ofBits pointBits

/-- A function of doubles; its values are attempts that may do more than fail. -/
abbrev Scalar (m : Type → Type) := Binary → m Binary

variable {m : Type → Type}

/-- The value at a point, which is rounded to a double first. -/
def valueAt (f : Scalar m) (x : Binary) : m Binary := f x.toDouble

variable [Monad m]

/-- The double nearest to `10 ^ -12`. -/
def tolerance : Binary := .finite false 4951760157141521 (-92)

/-- A step of the given length to the point `x` ends the search. -/
def isSmallStep (length x : Binary) : Bool :=
  let size := x.abs
  length.abs.lt (if Double.one.lt size then points.mul tolerance size else tolerance)

/-- The point where the search ends that has come from `x₀`, where the value is `y₀`, to `x₁`; `best` is the
    last point found, if there is one.  The fuel bounds the steps. -/
def secantFrom (f : Scalar m) : Nat → Binary → Binary → Binary → Option Binary → m (Option Binary)
  | 0, _, _, _, best => return best
  | fuel + 1, x₀, y₀, x₁, best => do
    let y₁ ← valueAt f x₁
    let length := points.sub x₁ x₀
    if length.isZero then return best
    let slope := points.div (Double.sub y₁ y₀) length
    if slope.isZero then return best
    let x₂ := points.sub x₁ (points.div y₁ slope)
    if isSmallStep length x₂ then return some x₂ else secantFrom f fuel x₁ y₁ x₂ (some x₂)

/-- Whether a value is so near to zero that its point is a root.  A finite value whose square is beyond all
    doubles is a fault. -/
def isNegligible (y : Binary) : Except Failure Bool :=
  match y, Double.mul y y with
  | .finite .., .infinite _ => .error (.fault .overflow)
  | _, square => .ok !(tolerance.lt square)

/-- The two points from which the search starts; of more than two points there is no search. -/
def startingPair? : List Binary → Option (Binary × Binary)
  | [x] => some (x, points.add x (.finite false 1 (-2)))
  | [x₀, x₁] => some (x₀, x₁)
  | _ => none

/-- **A root of a function** near a first point, if the search ends at one; further points may be given. -/
def root? [MonadLiftT (Except Failure) m] (f : Scalar m) (first : Binary) (further : List Binary) :
    m (Option Binary) := do
  let y ← valueAt f first
  if y.isZero then return some first
  match startingPair? (first :: further) with
  | none => return none
  | some (x₀, x₁) =>
    match ← secantFrom f Limit.rootSteps x₀ y x₁ none with
    | none => return none
    | some x => if ← isNegligible (← valueAt f x) then return some x else return none

end SciCalc.Solver
