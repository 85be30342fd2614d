/-
  Functions of any number of arguments.

  The least and the greatest argument, sums, means and medians, variances.  They need real numbers, except
  for the sum.
-/
import SciCalc.Double.Summary
import SciCalc.Value.Arithmetic

namespace SciCalc

namespace Decimal

/-- A binary number as the decimal that is exactly equal to it. -/
def ofExact : Binary → Decimal
  | .finite s m e => if 0 ≤ e then .finite s (m <<< e.toNat) 0 else .finite s (m * 5 ^ (-e).toNat) e
  | .infinite s => .infinite s
  | .nan => .nan false false 0

end Decimal

namespace Value

/-- The arguments, unless one is complex; `name` is the function that needs real numbers. -/
def realArguments (name : String) (args : List Value) : Except Failure (List Value) :=
  if args.any (·.isComplex) then .error (.numeric (.realArguments name)) else .ok args

/-- The first argument of a function that has one. -/
def noArguments : Failure := .unexpected "TypeError" "no arguments"

/-- The candidate if it is preferred to the best value so far. -/
def prefer (wanted : Int) (best candidate : Value) : Except Failure Value := do
  let o ← (← promote candidate best).compare
  return if o = wanted then candidate else best

/-- The argument that compares with all before it as wanted: -1 for the least, 1 for the greatest. -/
def extreme (wanted : Int) (name : String) (args : List Value) : Except Failure Value := do
  match ← realArguments name args with
  | [] => .error noArguments
  | v :: rest => rest.foldlM (prefer wanted) v

/-- The least argument. -/
def least (args : List Value) : Except Failure Value := extreme (-1) "min" args

/-- The greatest argument. -/
def greatest (args : List Value) : Except Failure Value := extreme 1 "max" args

/-- The sum. -/
def sum : List Value → Except Failure Value
  | [] => .error noArguments
  | v :: rest => rest.foldlM add v

/-- A function of doubles. -/
def ofDoubles (f : List Binary → Binary) (args : List Value) : Except Failure Value := do
  return .real (f (← args.mapM toReal))

/-- The mean of real numbers: that of doubles unless one is a decimal. -/
def meanOf (args : List Value) : Except Failure Value := do
  if args.any (·.isDecimal) then
    match ← sum args with
    | decimal x ctx =>
      let count ← ofFault (ctx.plus (.ofInt args.length))
      (Operands.decimal x count ctx ctx).div
    | total => return total
  else ofDoubles Double.mean args

/-- The arithmetic mean. -/
def mean (args : List Value) : Except Failure Value := do meanOf (← realArguments "mean" args)

/-- A real number as a decimal that is exactly equal to it. -/
def exactKey : Value → Decimal
  | real x => .ofExact x
  | integer n => .ofInt n
  | complex z => .ofExact z.re
  | decimal x _ => x

/-- The real number is at most the other one. -/
def atMost (v w : Value) : Bool := v.exactKey.compare? w.exactKey ≠ some .gt

/-- The median of real numbers of which one is a decimal: a number of the row if their count is odd. -/
def medianOf (args : List Value) : Except Failure Value :=
  if 1 < args.length && args.any (·.exactKey.isNaN) then .error (.fault (.undefined .operation))
  else
    let ordered := args.mergeSort atMost
    let n := ordered.length / 2
    match ordered.length % 2, ordered.drop n, (ordered.drop (n - 1)).take 2 with
    | 1, v :: _, _ => .ok v
    | _, _, middle => meanOf middle

/-- The median. -/
def median (args : List Value) : Except Failure Value := do
  let args ← realArguments "median" args
  if args.any (·.isDecimal) then medianOf args else ofDoubles Double.median args

/-- The mean square distance from the mean. -/
def variance (args : List Value) : Except Failure Value := do
  ofDoubles Double.variance (← realArguments "var" args)

/-- The square root of the variance. -/
def deviation (args : List Value) : Except Failure Value := do
  ofDoubles (fun xs => Double.sqrt (Double.variance xs)) (← realArguments "std" args)

end Value

end SciCalc
