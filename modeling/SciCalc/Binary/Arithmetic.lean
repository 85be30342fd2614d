/-
  Arithmetic on binary numbers.

  Sums and products are exact before they are rounded.  A quotient and a root are computed to two bits
  more than the format holds, with one more bit that tells whether anything was left over, so the
  rounding that follows sees on which side of a tie the exact result lies.
-/
import SciCalc.Binary.Basic
import SciCalc.Number.Root

namespace SciCalc.Format

open Binary

/-- The sum of `± m · 2 ^ e` and a trifle of sign `t`: whatever its size, it only tells on which side of the
    first number the sum lies. -/
def addTrifle (f : Format) (s : Bool) (m : Nat) (e : Int) (t : Bool) : Binary :=
  let shift := f.precision + 4
  let m := m <<< shift
  f.round s (if s = t then m + 1 else m - 1) (e - shift)

/-- The second of two numbers is a trifle beside the first: it is below the first one's last bit, and out of
    reach of the bits that the format holds. -/
def isTrifle (f : Format) (m : Nat) (e : Int) (n : Nat) (d : Int) : Bool :=
  m ≠ 0 && n ≠ 0 && width n + d ≤ e && (f.precision : Int) + 4 < (width m + e) - (width n + d)

/-- The sum of two finite numbers.  Only the sum of two negative zeros is a negative zero. -/
def addFinite (f : Format) (s : Bool) (m : Nat) (e : Int) (t : Bool) (n : Nat) (d : Int) : Binary :=
  if f.isTrifle m e n d then f.addTrifle s m e t
  else if f.isTrifle n d m e then f.addTrifle t n d s
  else if m = 0 && n ≠ 0 then f.round t n d
  else if n = 0 && m ≠ 0 then f.round s m e
  else
    let low := min e d
    let a : Int := (m <<< (e - low).toNat : Nat)
    let b : Int := (n <<< (d - low).toNat : Nat)
    let sum := (if s then -a else a) + (if t then -b else b)
    if sum = 0 then f.zero (s && t) else f.round (decide (sum < 0)) sum.natAbs low

/-- The rounded sum. -/
def add (f : Format) : Binary → Binary → Binary
  | .nan, _ => .nan
  | _, .nan => .nan
  | .infinite s, .infinite t => if s = t then .infinite s else .nan
  | .infinite s, _ => .infinite s
  | _, .infinite t => .infinite t
  | .finite s m e, .finite t n d => f.addFinite s m e t n d

/-- The rounded difference. -/
def sub (f : Format) (x y : Binary) : Binary := f.add x y.neg

/-- The rounded product. -/
def mul (f : Format) : Binary → Binary → Binary
  | .nan, _ => .nan
  | _, .nan => .nan
  | .infinite s, y => if y.isZero then .nan else .infinite (s != y.isNegative)
  | x, .infinite t => if x.isZero then .nan else .infinite (x.isNegative != t)
  | .finite s m e, .finite t n d => f.round (s != t) (m * n) (e + d)

/-- The exact product. -/
def mulExact : Binary → Binary → Binary
  | .finite s m e, .finite t n d => .finite (s != t) (m * n) (e + d)
  | x, y => double.mul x y

/-- A quotient of natural numbers at scale `2 ^ exponent`, with a last bit that stands for the rest. -/
def quotient (f : Format) (negative : Bool) (m n : Nat) (exponent : Int) : Binary :=
  let shift := f.precision + 2 + width n - width m
  let q := (m <<< shift) / n
  let rest := (m <<< shift) % n
  f.round negative (2 * q + (if rest = 0 then 0 else 1)) (exponent - shift - 1)

/-- The rounded quotient; a number divided by zero is infinite, zero divided by zero undefined. -/
def div (f : Format) : Binary → Binary → Binary
  | .nan, _ => .nan
  | _, .nan => .nan
  | .infinite _, .infinite _ => .nan
  | .infinite s, y => .infinite (s != y.isNegative)
  | x, .infinite t => f.zero (x.isNegative != t)
  | .finite s m e, .finite t n d =>
    if n = 0 then (if m = 0 then .nan else .infinite (s != t))
    else if m = 0 then f.zero (s != t)
    else f.quotient (s != t) m n (e - d)

/-- The rounded square root; a negative number has none. -/
def sqrt (f : Format) : Binary → Binary
  | .nan => .nan
  | .infinite s => if s then .nan else .infinite false
  | .finite s m e =>
    if m = 0 then f.zero s
    else if s then .nan
    else
      let shift := 2 * (f.precision + 2) - width m
      let shift := if (e - shift) % 2 = 0 then shift else shift + 1
      let r := Number.sqrt (m <<< shift)
      let exact := r * r = m <<< shift
      f.round false (2 * r + (if exact then 0 else 1)) ((e - shift) / 2 - 1)

/-- The number times a power of two, rounded. -/
def scale (f : Format) : Binary → Int → Binary
  | .finite s m e, k => f.round s m (e + k)
  | x, _ => x

example : double.div (double.ofInt 1) (double.ofInt 3) = .finite false 6004799503160661 (-54) := by decide
example : double.sqrt (double.ofInt 49) = double.ofInt 7 := by decide
example : double.add (double.ofInt 1) (double.ofInt (-1)) = .zero := by decide

end SciCalc.Format
