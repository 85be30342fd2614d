/-
  Real elementary functions with bits to spare.

  Each function takes a number of bits `w` and a binary number of any shape and returns its value with a
  relative error of a few units of `2 ^ -w`, whatever the size of the argument: bits that cancel are
  computed in addition.  The value for an argument so small that only the leading term counts is that term
  and a trifle that tells on which side of it the value lies, so that bits can be dropped from it rightly.
-/
import SciCalc.Binary.Integral
import SciCalc.Binary.Power
import SciCalc.Elementary.Fixed

namespace SciCalc.Elementary

open Binary

/-- One. -/
def one : Binary := .finite false 1 0

/-- Two. -/
def two : Binary := .finite false 1 1

/-- The exponent of the least power of two above a number. -/
def size (m : Nat) (e : Int) : Int := (width m : Int) + e

/-- The greatest fixed-point number with `w` fractional bits that is not above `± m · 2 ^ e`. -/
def toFixed (w : Nat) (s : Bool) (m : Nat) (e : Int) : Int :=
  let n : Int := if s then -(m : Int) else m
  if 0 ≤ e + w then n <<< (e + w).toNat else n >>> (-(e + w)).toNat

/-- A fixed-point number with `v` fractional bits as a binary number, cut to `w` bits. -/
def ofFixed (w v : Nat) (n : Int) : Binary := (Format.cutTo w).round (decide (n < 0)) n.natAbs (-v)

/-- The number with another sign, zero staying positive. -/
def opposite (x : Binary) : Binary := if x.isZero then x else x.neg

/-- The value of an odd function: that of the magnitude with the sign of the argument. -/
def oddly (f : Binary → Binary) (x : Binary) : Binary := if x.isNegative then opposite (f x.abs) else f x

/-- The number `± m · 2 ^ e` and a trifle, in relation to it below `2 ^ -w`, that makes its magnitude
    larger or smaller. -/
def nudge (w : Nat) (s : Bool) (m : Nat) (e : Int) (larger : Bool) : Binary :=
  let n := m <<< (w + 2)
  .finite s (if larger then n + 1 else n - 1) (e - (w + 2 : Nat))

/-- Half of a number. -/
def half (x : Binary) : Binary := match x with
  | .finite s m e => .finite s m (e - 1)
  | x => x

/-- Twice a number. -/
def double (x : Binary) : Binary := match x with
  | .finite s m e => .finite s m (e + 1)
  | x => x

/-- An argument of the size `k` has a square that is out of reach of all but the last bits. -/
def squareVanishes (w : Nat) (k : Int) : Bool := 2 * k + w < 16

/-! ## Constants -/

/-- The circle constant. -/
def piWide (w : Nat) : Binary := ofFixed w (w + 8) (pi (w + 8))

/-! ## Exponential and logarithm -/

/-- An exponent that no one can write down. -/
def beyond : Int := Int.ofNat (1 <<< 14400)

/-- The exponential function: `exp x = 2 ^ n · exp (x - n ln 2)`.  Of a number with an exponent that no one
    can write down only the size is kept. -/
def expWide (w : Nat) : Binary → Binary
  | .nan => .nan
  | .infinite s => if s then .zero else .infinite false
  | .finite s m e =>
    let k := size m e
    if m = 0 then one
    else if k + w < 8 then nudge w false 1 0 (!s)
    else if 14400 < k then .finite false 1 (if s then -beyond else beyond)
    else
      let v := w + k.toNat + 16
      let t := toFixed v s m e
      let unit : Int := ln2 v
      let n := t / unit
      let v := w + 16
      (Format.ofBits w).round false (expFixed v ((t - n * unit).toNat >>> k.toNat)) (n - v)

/-- The natural logarithm: `ln (2 ^ k · u) = k ln 2 + ln u` with `u` from 3/4 to 3/2.  Very close to one it
    is the difference to one. -/
def lnWide (w : Nat) : Binary → Binary
  | .nan => .nan
  | .infinite s => if s then .nan else .infinite false
  | .finite s m e =>
    if m = 0 then .infinite true
    else if s then .nan
    else
      let top := width m - 1
      let k : Int := if 3 <<< top ≤ 2 * m then e + top + 1 else e + top
      let places := (k - e).toNat
      let difference : Int := (m : Int) - (1 <<< places : Nat)
      let gap := difference.natAbs
      if k = 0 && gap = 0 then .zero
      else
        let lost := if k = 0 then places - width gap else 0
        if w < lost + 44 then .finite (decide (difference < 0)) gap (-places)
        else
          let v := w + lost + width k.natAbs + 16
          let u := (toFixed v false m (e - k)).toNat
          ofFixed w v (lnFixed v u + k * ln2 v)

/-! ## Trigonometric functions -/

/-- The number of quarter turns in `± m · 2 ^ e`, and the rest with `v` fractional bits.  A number of the
    size `k` is told from the multiples of a quarter turn with so many bits that none of its own is lost. -/
def reduceAngle (v : Nat) (s : Bool) (m : Nat) (e k : Int) : Int × Nat :=
  let t := toFixed (v + k.toNat) s m e
  let unit : Int := pi (v + k.toNat)
  let n := 2 * t / unit
  (n, (2 * t - n * unit).toNat >>> (k.toNat + 1))

/-- Cosine and sine, the angle reduced by quarter turns. -/
def cosSinWide (w : Nat) : Binary → Binary × Binary
  | .finite s m e =>
    let k := size m e
    if m = 0 then (one, .zero)
    else if squareVanishes w k then (nudge w false 1 0 false, nudge w s m e false)
    else
      let v := w + 32 + (if 0 < k then width m else (-k).toNat)
      let (quarter, rest) := reduceAngle v s m e k
      let (c, s) := cosSinFixed v rest
      let c := ofFixed w v c
      let s := ofFixed w v s
      match (quarter % 4).toNat with
      | 0 => (c, s)
      | 1 => (opposite s, c)
      | 2 => (opposite c, opposite s)
      | _ => (s, opposite c)
  | _ => (.nan, .nan)

/-- The cosine. -/
def cosWide (w : Nat) (x : Binary) : Binary := (cosSinWide w x).1

/-- The sine. -/
def sinWide (w : Nat) (x : Binary) : Binary := (cosSinWide w x).2

/-- The tangent. -/
def tanWide (w : Nat) (x : Binary) : Binary :=
  let (c, s) := cosSinWide (w + 8) x
  (Format.ofBits w).div s c

/-- The arc tangent of a positive number; beyond one it is a quarter turn less that of the reciprocal. -/
def arctanPositive (w m : Nat) (e : Int) : Binary :=
  let k := size m e
  if k + w < 44 then nudge w false m e false
  else if 2 * k + w < 36 then .finite false m e
  else if (w : Int) < k + 16 then half (piWide w)
  else
    let v := w + (-k).toNat + 16
    let below := k ≤ 0
    if below then ofFixed w v (arctanFixed v (toFixed v false m e).toNat)
    else
      let inverse := if 0 ≤ e then (1 <<< v) / (m <<< e.toNat) else (1 <<< (v + (-e).toNat)) / m
      ofFixed w (v + 1) (pi v - 2 * arctanFixed v inverse)

/-- The arc tangent. -/
def arctanWide (w : Nat) : Binary → Binary := oddly fun
  | .finite _ m e => if m = 0 then .zero else arctanPositive w m e
  | .infinite _ => half (piWide w)
  | .nan => .nan

/-- The angle of a point `(x, y)` that is not on an axis, from minus half a turn to half a turn. -/
def angleWide (w : Nat) (y x : Binary) : Binary :=
  let f := Format.ofBits (w + 8)
  let slope := arctanWide (w + 8) (f.div y x)
  if !x.isNegative then slope
  else if y.isNegative then f.sub slope (piWide (w + 8))
  else f.add slope (piWide (w + 8))

/-! ## Hyperbolic functions -/

/-- Hyperbolic cosine and sine of a magnitude, half the sum and half the difference of `exp x` and
    `exp (-x)`; beyond twice the number of bits the second is too small to matter. -/
def coshSinhPositive (w m : Nat) (e : Int) : Binary × Binary :=
  let k := size m e
  if m = 0 then (one, .zero)
  else if squareVanishes w k then (nudge w false 1 0 true, nudge w false m e true)
  else
    let x : Binary := .finite false m e
    if (width w : Int) + 2 < k then
      let y := half (expWide w x)
      (y, y)
    else
      let f := Format.ofBits (w + (-k).toNat + 8)
      let y := expWide (w + (-k).toNat + 8) x
      let z := f.div one y
      (half (f.add y z), half (f.sub y z))

/-- Hyperbolic cosine and sine. -/
def coshSinhWide (w : Nat) : Binary → Binary × Binary
  | .nan => (.nan, .nan)
  | .infinite s => (.infinite false, .infinite s)
  | .finite s m e =>
    let (c, d) := coshSinhPositive w m e
    (c, if s then opposite d else d)

/-- The hyperbolic tangent. -/
def tanhWide (w : Nat) : Binary → Binary
  | .infinite s => if s then one.neg else one
  | x =>
    let (c, s) := coshSinhWide (w + 8) x
    (Format.ofBits w).div s c

end SciCalc.Elementary
