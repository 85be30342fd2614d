/-
  Integer square roots.

  The root of a number of `2 c + 1` or `2 c + 2` bits is found from the root of its leading half: one
  Newton step doubles the number of good bits, so the approximation `near` is the root or one more.
-/
import SciCalc.Number.Power

namespace SciCalc.Number

/-- An approximation from above, at most one off, of the root of `n`, where `n.log2 / 2 = c`. -/
def nearRoot : Nat → Nat → Nat → Nat
  | 0, _, _ => 1
  | fuel + 1, c, n =>
    if c = 0 then 1
    else
      let k := (c - 1) / 2
      let a := nearRoot fuel (c / 2) (n >>> (2 * k + 2))
      (a <<< k) + (n >>> (k + 2)) / a

/-- The greatest number whose square is at most `n`. -/
def sqrt (n : Nat) : Nat :=
  if n = 0 then 0
  else
    let c := n.log2 / 2
    let a := nearRoot (c.log2 + 1) c n
    if n < a * a then a - 1 else a

example : sqrt 99 = 9 := by decide
example : sqrt (10 ^ 40) = 10 ^ 20 := by decide

end SciCalc.Number
