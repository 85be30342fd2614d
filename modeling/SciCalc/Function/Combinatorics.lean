/-
  Factorials, the gamma function, combinations and integers.

  A function of integers takes whole numbers of any kind.
-/
import SciCalc.Function.Power
import SciCalc.Number.Prime

namespace SciCalc.Number

/-- The product of `count` integers from `low` on, one after the other. -/
def plainProduct (low : Nat) : Nat → Nat
  | 0 => 1
  | count + 1 => plainProduct low count * (low + count)

/-- The product of `count` integers from `low` on, of halves that are halved `level` times. -/
def halvedProduct : Nat → Nat → Nat → Nat
  | 0, low, count => plainProduct low count
  | level + 1, low, count =>
    halvedProduct level low (count / 2) * halvedProduct level (low + count / 2) (count - count / 2)

/-- The product of `count` integers from `low` on. -/
def risingProduct (low count : Nat) : Nat := halvedProduct count.log2 low count

/-- The factorial. -/
def factorial (n : Nat) : Nat := risingProduct 1 n

/-- The number of ways to arrange `k` of `n` objects, where `k ≤ n`. -/
def permutations (n k : Nat) : Nat := risingProduct (n - k + 1) k

/-- The number of ways to choose `k` of `n` objects, where `k ≤ n`. -/
def combinations (n k : Nat) : Nat :=
  let k := min k (n - k)
  permutations n k / factorial k

example : combinations 5 2 = 10 := by decide

end SciCalc.Number

namespace SciCalc.Value

open Elementary (Point)

/-- The integer of a whole number; `name` is the function that needs it. -/
def wholeNumber (name : String) (v : Value) : Except Failure Int :=
  let refused : Except Failure Int := .error (.numeric (.integerArguments name))
  if v.isIntegral then
    match v.toInteger? with
    | some n => .ok n
    | none => refused
  else refused

/-- A real number, or the real part of a complex one with a negligible imaginary part. -/
def realOrNone? : Value → Option Value
  | complex z => if z.isReal then some (real z.re) else none
  | v => some v

/-- The gamma function. -/
def gamma (v : Value) : Except Failure Value := do
  match v.realOrNone? with
  | none => v.computeEverywhere Point.gamma
  | some x =>
    let pole ← if x.isIntegral then x.isAtMost 0 else pure false
    if pole then
      .error (.numeric (.domain "gamma(x) is undefined for non-positive integers"))
    else compute (fun f xs => ofFault ((Elementary.gamma f (xs.headD .nan)).map onAxis)) [x]

/-- The factorial; that of a number that is no natural number is `gamma (x + 1)`. -/
def factorial (v : Value) : Except Failure Value := do
  match v.realOrNone? with
  | none => .error (.numeric .complexFactorial)
  | some x =>
    match (if x.isIntegral then x.toInteger? else none) with
    | some k =>
      if k < 0 then gamma (← x.add (.integer 1))
      else if (Limit.factorial : Int) < k then .error (Failure.telling k fun k => .numeric (.factorialLimit k))
      else return .integer (Number.factorial k.toNat)
    | none => gamma (← x.add (.integer 1))

/-- The number of combinations. -/
def combinations (v w : Value) : Except Failure Value := do
  let n ← wholeNumber "comb" v
  let k ← wholeNumber "comb" w
  if k < 0 || n < 0 || n < k then .error (.numeric .combination)
  else if (Limit.choice : Int) < min k (n - k) then .error (.fault .overflow)
  else return .integer (Number.combinations n.toNat k.toNat)

/-- The number of arrangements. -/
def permutations (v w : Value) : Except Failure Value := do
  let n ← wholeNumber "perm" v
  let k ← wholeNumber "perm" w
  if k < 0 || n < 0 || n < k then .error (.numeric .permutation)
  else if (Limit.choice : Int) < k then .error (.fault .overflow)
  else return .integer (Number.permutations n.toNat k.toNat)

/-- The greatest common divisor. -/
def gcd (args : List Value) : Except Failure Value := do
  let ns ← args.mapM (wholeNumber "gcd")
  return .integer (ns.foldl (fun a n => Nat.gcd a n.natAbs) 0 : Nat)

/-- The least common multiple. -/
def lcm (args : List Value) : Except Failure Value := do
  let ns ← args.mapM (wholeNumber "lcm")
  return .integer (ns.foldl (fun a n => Nat.lcm a n.natAbs) 1 : Nat)

/-- One for a prime number, and zero for any other integer. -/
def isPrime (v : Value) : Except Failure Value := do
  let n ← wholeNumber "isprime" v
  return .integer (if Number.isPrime n.toNat then 1 else 0)

/-- The least prime above an integer. -/
def nextPrime (v : Value) : Except Failure Value := do
  let n ← wholeNumber "nextprime" v
  return .integer (Number.nextPrime n.toNat)

end SciCalc.Value
