/-
  Prime numbers.

  A number without small factors counts as prime if it passes two tests: the strong test to the base two
  and the strong Lucas test with the first discriminant of 5, -7, 9, -11, … that is no square modulo the
  number.  No composite number is known that passes both, and none below `2 ^ 64` does.
-/
import SciCalc.Number.Root

namespace SciCalc.Number

/-- `acc * b ^ e` modulo `n`; the fuel bounds the bits of the exponent. -/
def powModFrom (n : Nat) : Nat → Nat → Nat → Nat → Nat
  | 0, _, _, acc => acc
  | fuel + 1, b, e, acc =>
    if e = 0 then acc
    else powModFrom n fuel (b * b % n) (e / 2) (if e % 2 = 1 then acc * b % n else acc)

/-- `b ^ e` modulo `n`. -/
def powMod (b e n : Nat) : Nat := powModFrom n (e.log2 + 1) (b % n) e (1 % n)

/-- The odd part of a number and how often two divides it; the fuel bounds that. -/
def oddPart : Nat → Nat → Nat × Nat
  | 0, n => (n, 0)
  | fuel + 1, n =>
    if n % 2 = 0 then
      let (d, s) := oddPart fuel (n / 2)
      (d, s + 1)
    else (n, 0)

/-- One of `x`, `x ^ 2`, … `x ^ 2 ^ s` is `target` modulo `n`. -/
def meetsBySquaring (n target : Nat) : Nat → Nat → Bool
  | 0, x => x = target
  | s + 1, x => x = target || meetsBySquaring n target s (x * x % n)

/-- The strong test of an odd number above two to the base `b`. -/
def passesStrongTest (b n : Nat) : Bool :=
  let (d, s) := oddPart (n.log2 + 1) (n - 1)
  let x := powMod b d n
  x = 1 || meetsBySquaring n (n - 1) (s - 1) x

/-- The Jacobi symbol of `a` modulo an odd number `n`, times `sign`; the fuel bounds the steps. -/
def jacobiFrom : Nat → Int → Nat → Nat → Int
  | 0, _, _, _ => 0
  | fuel + 1, sign, a, n =>
    let a := a % n
    if a = 0 then (if n = 1 then sign else 0)
    else
      let (d, s) := oddPart (a.log2 + 1) a
      let sign := if s % 2 = 1 && (n % 8 = 3 || n % 8 = 5) then -sign else sign
      let sign := if d % 4 = 3 && n % 4 = 3 then -sign else sign
      jacobiFrom fuel sign n d

/-- The Jacobi symbol of `a` modulo an odd number `n`. -/
def jacobi (a : Int) (n : Nat) : Int := jacobiFrom (2 * n.log2 + 4) 1 (a.emod n).toNat n

/-- The first discriminant from `d` on whose Jacobi symbol is -1; the fuel bounds the search. -/
def discriminant : Nat → Int → Nat → Int
  | 0, d, _ => d
  | fuel + 1, d, n =>
    if jacobi d n = -1 then d else discriminant fuel (if d < 0 then 2 - d else -(d + 2)) n

/-- Half of a residue modulo an odd number. -/
def halfMod (n : Nat) (x : Int) : Int := ((if x % 2 = 0 then x else x + n) / 2).emod n

/-- The Lucas numbers `U`, `V` and the power of `Q` at an index, from its bits, the highest first. -/
def lucasFrom (n : Nat) (d q : Int) : List Bool → Int × Int × Int → Int × Int × Int
  | [], t => t
  | bit :: rest, (u, v, k) =>
    let u' := (u * v).emod n
    let v' := (v * v - 2 * k).emod n
    let k' := (k * k).emod n
    lucasFrom n d q rest
      (if bit then (halfMod n (u' + v'), halfMod n (d * u' + v'), (k' * q).emod n) else (u', v', k'))

/-- The bits of a number below `2 ^ count`, the highest first. -/
def bits : Nat → Nat → List Bool
  | 0, _ => []
  | count + 1, n => (n.testBit count) :: bits count n

/-- One of the Lucas numbers `V` at an index doubled up to `s` times is zero. -/
def meetsByDoubling (n : Nat) : Nat → Int → Int → Bool
  | 0, v, _ => v = 0
  | s + 1, v, k => v = 0 || meetsByDoubling n s ((v * v - 2 * k).emod n) ((k * k).emod n)

/-- The strong Lucas test of an odd number that is no square. -/
def passesLucasTest (n : Nat) : Bool :=
  let d := discriminant (n.log2 * n.log2 + 50) 5 n
  let q := (1 - d) / 4
  let (odd, s) := oddPart (n.log2 + 2) (n + 1)
  let (u, v, k) := lucasFrom n d q (bits (odd.log2 + 1) odd) (0, 2, 1)
  u = 0 || meetsByDoubling n (s - 1) v k

/-- The primes that are tried as factors. -/
def smallPrimes : List Nat := [2, 3, 5, 7, 11, 13, 17, 19, 23, 29, 31, 37, 41, 43, 47]

/-- The number is prime. -/
def isPrime (n : Nat) : Bool :=
  if n < 2 then false
  else match smallPrimes.find? (n % · = 0) with
    | some p => n = p
    | none =>
      n < 53 * 53
        || (passesStrongTest 2 n && sqrt n * sqrt n ≠ n && passesLucasTest n)

/-- The least prime from `n` on; the fuel bounds the search. -/
def primeFrom : Nat → Nat → Nat
  | 0, n => n
  | fuel + 1, n => if isPrime n then n else primeFrom fuel (n + 1)

/-- The least prime above a number.  There is one below its double, if the number is positive. -/
def nextPrime (n : Nat) : Nat := primeFrom (n + 2) (n + 1)

example : (List.range 60).filter isPrime =
    [2, 3, 5, 7, 11, 13, 17, 19, 23, 29, 31, 37, 41, 43, 47, 53, 59] := by decide +kernel

end SciCalc.Number
