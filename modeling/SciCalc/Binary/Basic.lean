/-
  Binary floating-point numbers.

  A finite number is `± mantissa · 2 ^ exponent`.  A `Format` says how many bits a mantissa has, how small
  and how large numbers may get, whether zero has a sign, and what happens to bits that do not fit.  There is
  one rounding: `Format.round` takes an exact `mantissa · 2 ^ exponent` to the nearest number of the format, a
  tie to the even mantissa, or drops the bits.  It delivers every number in one shape (a mantissa of full
  length, or the least exponent), so numbers of one format are equal exactly when they are the same number.
-/
import SciCalc.Number.Power

namespace SciCalc

/-- A binary floating-point number. -/
inductive Binary where
  /-- The number `± mantissa · 2 ^ exponent`. -/
  | finite (negative : Bool) (mantissa : Nat) (exponent : Int)
  /-- An infinity. -/
  | infinite (negative : Bool)
  /-- Not a number: the result of an undefined operation. -/
  | nan
deriving DecidableEq, Inhabited

/-- What happens to bits that do not fit. -/
inductive Direction where
  /-- The number becomes the nearest one, of two the even one. -/
  | nearest
  /-- The bits are dropped. -/
  | towardZero
deriving DecidableEq

/-- The numbers that a kind of arithmetic can deliver. -/
structure Format where
  /-- The number of bits of a mantissa. -/
  precision : Nat
  /-- The least exponent of a mantissa, and the first power of two that is out of range. -/
  range : Option (Int × Int)
  /-- Zero carries a sign. -/
  signedZero : Bool
  /-- What happens to bits that do not fit. -/
  direction : Direction
deriving DecidableEq

/-- Double precision: 53 bits, from `2 ^ -1074` up to `2 ^ 1024`. -/
def Format.double : Format := ⟨53, some (-1074, 1024), true, .nearest⟩

/-- Single precision: 24 bits, from `2 ^ -149` up to `2 ^ 128`. -/
def Format.single : Format := ⟨24, some (-149, 128), true, .nearest⟩

/-- A given number of bits, exponents of any size and one zero. -/
def Format.ofBits (precision : Nat) : Format := ⟨precision, none, false, .nearest⟩

/-- The same without rounding: bits that do not fit are dropped. -/
def Format.cutTo (precision : Nat) : Format := ⟨precision, none, false, .towardZero⟩

namespace Binary

/-- The positive zero. -/
def zero : Binary := finite false 0 0

/-- The number is a zero. -/
def isZero : Binary → Bool
  | finite _ m _ => m = 0
  | _ => false

/-- The number is neither infinite nor undefined. -/
def isFinite : Binary → Bool
  | finite .. => true
  | _ => false

/-- The number is infinite. -/
def isInfinite : Binary → Bool
  | infinite _ => true
  | _ => false

/-- The number is undefined. -/
def isNaN : Binary → Bool
  | nan => true
  | _ => false

/-- The sign, also of a zero; the undefined number has none. -/
def isNegative : Binary → Bool
  | finite s _ _ => s
  | infinite s => s
  | nan => false

/-- The number of bits of a mantissa. -/
def width (m : Nat) : Nat := if m = 0 then 0 else m.log2 + 1

/-- `m / 2 ^ s`, rounded to the nearest number, a tie to the even one. -/
def shiftRound (m s : Nat) : Nat :=
  if s = 0 then m
  else if width m < s then 0
  else
    let q := m >>> s
    let r := m - q <<< s
    let half := 1 <<< (s - 1)
    if half < r || (r = half && q % 2 = 1) then q + 1 else q

/-- `m / 2 ^ s` as the direction says. -/
def shift (d : Direction) (m s : Nat) : Nat :=
  match d with
  | .nearest => shiftRound m s
  | .towardZero => m >>> s

end Binary

open Binary

/-- The zero of a format with the given sign, if zeros have one. -/
def Format.zero (f : Format) (negative : Bool) : Binary := .finite (negative && f.signedZero) 0 0

/-- How many low bits of a mantissa at the exponent `e` do not fit: those beyond the precision and those
    below the least exponent.  A negative count says how far the mantissa has to be extended. -/
def Format.excess (f : Format) (m : Nat) (e : Int) : Int :=
  let surplus : Int := (width m : Int) - f.precision
  match f.range with
  | none => surplus
  | some (least, _) => max surplus (least - e)

/-- The number at or above the limit of the format, if it has one, is infinite. -/
def Format.capped (f : Format) (negative : Bool) (m : Nat) (e : Int) : Binary :=
  match f.range with
  | none => .finite negative m e
  | some (_, limit) =>
    if limit < (width m : Int) + e then .infinite negative else .finite negative m e

/-- **Rounding**: the number of the format nearest to `± m · 2 ^ e`, the even one of two that are equally
    near; or, if the format drops bits, the one next to it on the side of zero. -/
def Format.round (f : Format) (negative : Bool) (m : Nat) (e : Int) : Binary :=
  if m = 0 then f.zero negative
  else
    let drop := f.excess m e
    if drop ≤ 0 then f.capped negative (m <<< (-drop).toNat) (e + drop)
    else
      let q := shift f.direction m drop.toNat
      if q = 0 then f.zero negative
      else if width q ≤ f.precision then f.capped negative q (e + drop)
      else f.capped negative (q >>> 1) (e + drop + 1)

/-- The number of the format nearest to an integer. -/
def Format.ofInt (f : Format) (n : Int) : Binary := f.round (decide (n < 0)) n.natAbs 0

/-- The number of the format nearest to a number of any other. -/
def Format.convert (f : Format) : Binary → Binary
  | .finite s m e => f.round s m e
  | .infinite s => .infinite s
  | .nan => .nan

namespace Binary

/-- The double of a number of any other format.  It is brought to the bits of a double first, so that one
    below the normal doubles is rounded twice. -/
def toDouble (x : Binary) : Binary := Format.double.convert ((Format.ofBits 53).convert x)

/-- The number with the opposite sign. -/
def neg : Binary → Binary
  | finite s m e => finite (!s) m e
  | infinite s => infinite (!s)
  | nan => nan

/-- The number without its sign. -/
def abs : Binary → Binary
  | finite _ m e => finite false m e
  | infinite _ => infinite false
  | nan => nan

/-- The first number with the sign of the second. -/
def copySign (x y : Binary) : Binary := if y.isNegative then x.abs.neg else x.abs

/-- Which of two magnitudes `m · 2 ^ e` is the greater. -/
def compareMagnitude (m : Nat) (e : Int) (n : Nat) (d : Int) : Ordering :=
  if m = 0 || n = 0 then compare m n
  else
    let top := (width m : Int) + e
    let other := (width n : Int) + d
    if top < other then .lt
    else if other < top then .gt
    else if e ≤ d then compare m (n <<< (d - e).toNat)
    else compare (m <<< (e - d).toNat) n

/-- The order of two finite numbers; zeros of either sign are equal. -/
def compareFinite (s : Bool) (m : Nat) (e : Int) (t : Bool) (n : Nat) (d : Int) : Ordering :=
  match s && m ≠ 0, t && n ≠ 0 with
  | false, true => .gt
  | true, false => .lt
  | false, false => compareMagnitude m e n d
  | true, true => compareMagnitude n d m e

/-- The order of two numbers; there is none if one is undefined. -/
def compare? : Binary → Binary → Option Ordering
  | nan, _ => none
  | _, nan => none
  | infinite s, infinite t => some (if s = t then .eq else if s then .lt else .gt)
  | infinite s, _ => some (if s then .lt else .gt)
  | _, infinite t => some (if t then .gt else .lt)
  | finite s m e, finite t n d => some (compareFinite s m e t n d)

/-- The numbers are equal. -/
def eq (x y : Binary) : Bool := compare? x y = some .eq

/-- The first number is less than the second. -/
def lt (x y : Binary) : Bool := compare? x y = some .lt

/-- The first number is at most the second. -/
def le (x y : Binary) : Bool := x.lt y || x.eq y

end Binary

example : Format.double.round false 1 (-1075) = .finite false 0 0 := by decide
example : Format.double.round false 3 (-1075) = .finite false 2 (-1074) := by decide
example : Format.double.round true 1 1024 = .infinite true := by decide

end SciCalc
