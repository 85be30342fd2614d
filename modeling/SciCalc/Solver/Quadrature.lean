/-
  Numerical integration.

  The nodes crowd at both ends of the interval from -1 to 1: for a step `h` they are
  `tanh (π/2 sinh (k h))`, with weights that fall off doubly exponentially.  They are carried to the
  interval of integration, to one that is infinite on one side by `x = 2 / (t + 1)`, and to all numbers by
  `x = t / √(1 - t²)`.  Each refinement halves the step and adds the nodes between the old ones; the
  refinements end when the estimated error is negligible.
-/
import SciCalc.Elementary.Real
import SciCalc.Solver.Root

namespace SciCalc.Solver

/-- A node and its weight. -/
structure Node where
  /-- The point. -/
  point : Binary
  /-- The weight of the value there. -/
  weight : Binary
deriving DecidableEq

/-- The bits of a result. -/
def resultBits : Nat := 53

/-- The format that nodes are computed in. -/
def nodeBits : Format := .ofBits 93

/-! ## Nodes -/

/-- The nodes from one on: `a` and `b` are a quarter of `π` times the exponentials of `k h` and `-k h`.  They
    end when a node is next to an end of the interval; the fuel bounds them. -/
def nodesFrom (grow shrink : Binary) : Nat → Binary → Binary → List Node
  | 0, _, _ => []
  | fuel + 1, a, b =>
    let f := nodeBits
    let c := Elementary.exp nodeBits (f.sub a b)
    let d := f.div Elementary.one c
    let co := Elementary.half (f.add c d)
    let si := Elementary.half (f.sub c d)
    let x := f.div si co
    let w := f.div (f.add a b) (f.mul co co)
    if (f.sub x Elementary.one).abs.le (.finite false 1 (-(resultBits + 10 : Int))) then []
    else ⟨x, w⟩ :: ⟨x.neg, w⟩ :: nodesFrom grow shrink fuel (f.mul a grow) (f.mul b shrink)

/-- The nodes that a refinement adds. -/
def nodes (degree : Nat) : List Node :=
  let f := nodeBits
  let quarter := Elementary.half (Elementary.half (Elementary.circle nodeBits))
  let first : Binary := .finite false 1 (-(degree : Int))
  let step := if degree = 1 then first else Elementary.double first
  let e := Elementary.exp nodeBits first
  let grow := Elementary.exp nodeBits step
  let others := nodesFrom grow (f.div Elementary.one grow) (20 * 2 ^ degree + 1) (f.mul quarter e) (f.div quarter e)
  if degree = 1 then ⟨.zero, Elementary.double quarter⟩ :: others else others

/-! ## Intervals -/

/-- An interval of integration. -/
inductive Interval where
  /-- From -1 to 1. -/
  | unit
  /-- From `a` to `b`. -/
  | bounded (a b : Binary)
  /-- From `a` on. -/
  | above (a : Binary)
  /-- Up to `b`. -/
  | below (b : Binary)
  /-- All numbers. -/
  | whole
deriving DecidableEq

/-- The interval between two bounds, and whether it is gone through backwards. -/
def Interval.between (a b : Binary) : Interval × Bool :=
  match a, b with
  | .infinite true, .infinite false => (.whole, false)
  | .infinite true, b => (.below b, false)
  | a, .infinite false => (.above a, false)
  | .infinite false, .infinite true => (.whole, true)
  | .infinite false, b => (.above b, true)
  | a, .infinite true => (.below a, true)
  | a, b => if a.eq Elementary.one.neg && b.eq Elementary.one then (.unit, false) else (.bounded a b, false)

/-- `2 / (x + 1)` and half of its square. -/
def inversion (x : Binary) : Binary × Binary :=
  let u := points.div Elementary.two (points.add x Elementary.one)
  (u, Elementary.half (points.mul u u))

/-- A node carried to an interval. -/
def Node.carry (n : Node) : Interval → Node
  | .unit => n
  | .bounded a b =>
    let c := Elementary.half (points.sub b a)
    let d := Elementary.half (points.add b a)
    ⟨points.add d (points.mul c n.point), points.mul c n.weight⟩
  | .above a =>
    let (u, v) := inversion n.point
    ⟨points.add (points.sub a Elementary.one) u, points.mul n.weight v⟩
  | .below b =>
    let (u, v) := inversion n.point
    ⟨points.sub (points.add b Elementary.one) u, points.mul n.weight v⟩
  | .whole =>
    let p := points.sub Elementary.one (points.mul n.point n.point)
    let r := Elementary.pow points p (.finite true 1 (-1))
    ⟨points.mul n.point r, points.mul n.weight (points.div r p)⟩

/-- A node with the opposite weight if the interval is gone through backwards. -/
def Node.directed (n : Node) (backwards : Bool) : Node :=
  if backwards then { n with weight := n.weight.neg } else n

/-! ## Refinement -/

/-- The exact product of two finite numbers without factors of two in the mantissa, so that its exponent is the
    greatest possible; an infinite or undefined product is the second part. -/
def exactProduct (x y : Binary) : (Int × Int) ⊕ Binary :=
  match x, y with
  | .finite s m e, .finite t n d =>
    let k := m * n
    let zeros := trailingZeros k
    let odd : Int := (k >>> zeros : Nat)
    .inl (if s != t then -odd else odd, e + d + zeros)
  | x, y => .inr (points.mul x y)
where
  /-- How often two divides a number other than zero. -/
  trailingZeros (k : Nat) : Nat := if k = 0 then 0 else ((k ^^^ (k - 1)).log2)

/-- How far apart two terms of a sum may be: a term further below is dropped. -/
def reach : Int := 2 * pointBits

/-- A sum `total · 2 ^ low` with one more term.  The sum is exact while the terms are in reach of each
    other; a term out of reach of what it is added to replaces it or is dropped. -/
def addTerm (sum term : Int × Int) : Int × Int :=
  let (total, low) := sum
  let (n, e) := term
  let gap := e - low
  if n = 0 then sum
  else if 0 ≤ gap then
    if reach < gap && (total = 0 || reach < gap - Binary.width total.natAbs) then term
    else (total + n <<< gap.toNat, low)
  else if reach < -gap - Binary.width n.natAbs then (if total = 0 then term else sum)
  else (total <<< (-gap).toNat + n, e)

variable {m : Type → Type} [Monad m]

/-- The weighted sum of values, rounded once.  The first infinite or undefined term decides the sum, up to the
    later ones of its kind. -/
def weightedSum (f : Scalar m) : Int × Int → Option Binary → List Node → m Binary
  | (total, low), none, [] => return points.round (decide (total < 0)) total.natAbs low
  | _, some special, [] => return special
  | sum, special, n :: rest => do
    let y ← valueAt f n.point
    match exactProduct n.weight y with
    | .inl term => weightedSum f (addTerm sum term) special rest
    | .inr x => weightedSum f sum (some (points.add (special.getD .zero) x)) rest

/-- The next approximation, from the last one and the values at new nodes. -/
def refine (f : Scalar m) (degree : Nat) (last : Option Binary) (ns : List Node) : m Binary := do
  let scale (x : Binary) (k : Int) : Binary := points.scale x k
  let before := match last with
    | some x => scale x (degree - 1)
    | none => .zero
  return scale (points.add before (← weightedSum f (0, 0) none ns)) (-degree)

/-- The decimal logarithm of the distance of two approximations. -/
def distanceLog (x y : Binary) : Binary :=
  Elementary.logOver points (.finite false 10 0) (points.sub x y).abs

/-- The greater of two numbers. -/
def larger (x y : Binary) : Binary := if x.lt y then y else x

/-- Whether the estimated error of the last approximation is negligible.  Of two approximations the error is
    their distance; of more it is extrapolated from the distances to the last but one and the last but two. -/
def isAccurate : List Binary → Except Failure Bool
  | x :: y :: z :: _ =>
    if x.eq y && y.eq z then .ok true
    else
      let d₁ := distanceLog x y
      let d₂ := distanceLog x z
      if d₂.isZero then .error (.fault .zeroDivision)
      else
        let least := larger (larger (points.div (points.mul d₁ d₁) d₂) (Elementary.double d₁))
          (.finite true resultBits 0)
        .ok (match least with
          | .finite s m e => s && (Binary.finite s m e).trunc?.any (· ≤ -17)
          | _ => false)
  | [x, y] => .ok ((points.sub x y).abs.le (.finite false 1 (-55)))
  | _ => .ok false

/-- The approximations from a refinement on, the last one first; the fuel bounds the refinements. -/
def approximate [MonadLiftT (Except Failure) m] (f : Scalar m) (interval : Interval) (backwards : Bool) :
    Nat → Nat → List Binary → m (List Binary)
  | 0, _, found => return found
  | fuel + 1, degree, found => do
    let ns := (nodes degree).map fun n => (n.carry interval).directed backwards
    let found := (← refine f degree found.head? ns) :: found
    if 1 < degree then
      if ← isAccurate found then return found
    approximate f interval backwards fuel (degree + 1) found

/-- The integral of a function over an interval. -/
def integralOver [MonadLiftT (Except Failure) m] (f : Scalar m) (interval : Interval) (backwards : Bool) :
    m Binary := do
  let found ← approximate f interval backwards Limit.quadratureDegree 1 []
  return (found.headD .zero).toDouble

/-- The function `f (-x) + f x`. -/
def folded (f : Scalar m) : Scalar m := fun x => do
  let left ← f x.neg
  return Double.add left (← f x)

/-- **The integral of a function between two bounds.**  If it is to be folded, an integral over all numbers is
    one of `f (-x) + f x` from zero on. -/
def integral [MonadLiftT (Except Failure) m] (f : Scalar m) (fold : Bool) (a b : Binary) : m Binary :=
  match fold, Interval.between a b with
  | true, (.whole, false) => integralOver (folded f) (.above .zero) false
  | _, (interval, backwards) => integralOver f interval backwards

end SciCalc.Solver
