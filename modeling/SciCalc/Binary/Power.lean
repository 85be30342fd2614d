/-
  Integer powers of binary numbers.

  A power whose exact mantissa is short is exact before it is rounded.  A longer one is computed by repeated
  squaring; bits are dropped after every product, and there are as many more of them as the exponent calls
  for.  A negative power is the reciprocal of the positive one with some bits more.
-/
import SciCalc.Binary.Arithmetic

namespace SciCalc.Format

open Binary

/-- The format with so many bits more. -/
def widen (f : Format) (bits : Nat) : Format := { f with precision := f.precision + bits }

/-- The format with so many bits more, further bits being dropped. -/
def cutting (f : Format) (bits : Nat) : Format := cutTo (f.precision + bits)

/-- `acc · x ^ n`, every product rounded; `fuel` bounds the bits of the exponent. -/
def powerLoop (f : Format) : Nat → Nat → Binary → Binary → Binary
  | 0, _, _, acc => acc
  | fuel + 1, n, x, acc =>
    if n = 0 then acc
    else powerLoop f fuel (n / 2) (f.mul x x) (if n % 2 = 1 then f.mul acc x else acc)

/-- The bits of a mantissa up to which a power is exact. -/
def exactPowerBits : Nat := 1000

/-- The power `(± m · 2 ^ e) ^ n`.  The mantissa counts without the zeros at its end. -/
def powerFinite (f : Format) (s : Bool) (m : Nat) (e : Int) (n : Nat) : Binary :=
  let unit := Nat.gcd m (1 <<< width m)
  let odd := m / unit
  let negative := s && n % 2 = 1
  if odd ≤ 1 then f.round negative odd ((e + unit.log2) * n)
  else if width odd * n < exactPowerBits then f.round negative (odd ^ n) ((e + unit.log2) * n)
  else
    let bits := width n
    f.convert (powerLoop (f.cutting (4 * bits + 4)) bits n (.finite s m e) (.finite false 1 0))

/-- The bits by which a power is longer whose reciprocal is taken. -/
def reciprocalBits (f : Format) : Nat :=
  match f.direction with
  | .nearest => 5
  | .towardZero => 64

/-- **The rounded power** with an integer as its exponent.  A negative power of zero is infinite, and an
    infinity to the power zero undefined. -/
def power (f : Format) (x : Binary) (n : Int) : Binary :=
  match x with
  | .nan => .nan
  | .infinite s =>
    if n = 0 then .nan else if n < 0 then f.zero false else .infinite (s && n % 2 = 1)
  | .finite s m e =>
    if n = 0 then f.ofInt 1
    else if 0 < n then f.powerFinite s m e n.natAbs
    else if n = -1 then f.div (.finite false 1 0) x
    else f.div (.finite false 1 0) ((f.widen f.reciprocalBits).powerFinite s m e n.natAbs)

/-- The bits beyond those of a result that a power of ten is computed with. -/
def scaleBits : Nat := 10

/-- The exponents of ten up to which a numeral is read exactly. -/
def exactNumeral : Nat := 400

/-- The number that a numeral `± c · 10 ^ k` denotes.  Is the exponent large, the coefficient and the power
    of ten are both cut to a few bits more than the format holds, and their product is rounded; so the
    exponent may be of any size. -/
def ofNumeral (f : Format) (negative : Bool) (c : Nat) (k : Int) : Binary :=
  if c = 0 then f.zero negative
  else if k.natAbs ≤ exactNumeral then
    if 0 ≤ k then f.round negative (c * 10 ^ k.toNat) 0
    else f.quotient negative c (10 ^ (-k).toNat) 0
  else
    let g := f.cutting scaleBits
    f.mul (g.round negative c 0) (g.power (.finite false 10 0) k)

example : double.power (.finite false 3 0) 5 = double.ofInt 243 := by decide
example : double.power (.finite true 1 1) (-2) = double.div (double.ofInt 1) (double.ofInt 4) := by decide

end SciCalc.Format
