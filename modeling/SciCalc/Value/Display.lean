/-
  How values are shown.

  Doubles have a number of significant digits and no trailing zeros; decimals lose their trailing zeros
  and are written out unless they are very large or very small; integers have all their digits; a complex
  number leaves out a zero part and a one in front of `i`.

  A numeral that is asked for at once must not be longer than `Limit.numeralDigits`.  So a large integer is
  cut in two about the middle of its digits, again and again, until the parts are small enough.
-/
import SciCalc.Value.Basic

namespace SciCalc

/-! ## Integers of any size -/

namespace Number

/-- The most digits that are written at once. -/
@[irreducible]
def directCount : Nat := 1000

/-- The numbers below this one are written at once. -/
def directBound : Nat := 10 ^ directCount

/-- The digits of a number that is written at once; one with too many digits is refused. -/
def directDigits (n : Nat) : Except Failure (List Char) :=
  if Limit.numeralDigits < digitCount n then .error (.fault .tooLong) else .ok (digits n)

/-- How many digits are cut off a number: about half of those that it has, each of its bits being worth
    `30103 / 100000` digits. -/
def cutCount (n : Nat) : Nat := (n.log2 + 1) * 30103 / 200000

/-- Digits with zeros in front, at least `width` of them in all. -/
def zeroFilled (width : Nat) (cs : List Char) : List Char :=
  List.replicate (width - cs.length) '0' ++ cs

/-- A number that is cut has four bits and more for each digit that is cut off, and one digit at least is. -/
theorem cutCount_spec {n : Nat} (h : directBound ≤ n) : 0 < cutCount n ∧ 4 * cutCount n ≤ n.log2 := by
  have hlarge : 2 ^ 7 ≤ n := Nat.le_trans (by decide +kernel) h
  have hbits : 7 ≤ n.log2 := (Nat.le_log2 (by omega)).mpr hlarge
  unfold cutCount
  omega

/-- Something is left of a number when its last digits are cut off. -/
theorem pow_cutCount_le {n : Nat} (h : directBound ≤ n) : 10 ^ cutCount n ≤ n := by
  have hpos : 0 < n := Nat.lt_of_lt_of_le (by decide +kernel) h
  calc 10 ^ cutCount n ≤ (2 ^ 4) ^ cutCount n := Nat.pow_le_pow_left (by omega) _
    _ = 2 ^ (4 * cutCount n) := (Nat.pow_mul 2 4 _).symm
    _ ≤ 2 ^ n.log2 := Nat.pow_le_pow_right Nat.two_pos (cutCount_spec h).2
    _ ≤ n := Nat.log2_self_le (by omega)

/-- Both parts of a number that is cut are smaller than it. -/
theorem parts_lt {n : Nat} (h : directBound ≤ n) : n / 10 ^ cutCount n < n ∧ n % 10 ^ cutCount n < n := by
  have hle := pow_cutCount_le h
  have hpos : 0 < 10 ^ cutCount n := Nat.pow_pos (by omega)
  have hone : 1 < 10 ^ cutCount n := Nat.one_lt_pow (Nat.ne_of_gt (cutCount_spec h).1) (by omega)
  exact ⟨Nat.div_lt_self (Nat.lt_of_lt_of_le hpos hle) hone, Nat.lt_of_lt_of_le (Nat.mod_lt n hpos) hle⟩

/-- **The digits of a number of any size**, those of its front part and, filled up with zeros, those of the
    part that is cut off. -/
def writtenDigits (n : Nat) : Except Failure (List Char) :=
  if n < directBound then directDigits n
  else do
    let count := cutCount n
    let front ← writtenDigits (n / 10 ^ count)
    let back ← writtenDigits (n % 10 ^ count)
    return front ++ zeroFilled count back
termination_by n
decreasing_by
  all_goals rename_i hlarge
  · exact (parts_lt (Nat.not_lt.mp hlarge)).1
  · exact (parts_lt (Nat.not_lt.mp hlarge)).2

end Number

/-! ## Values -/

/-- A double with at most `digits` significant digits. -/
def formatReal (digits : Nat) (x : Binary) : String :=
  if x.isZero then "0" else Binary.general digits x

/-- A decimal without trailing zeros, positional between `10 ^ -6` and its precision.  Trailing zeros are
    dropped from the number rounded to its precision. -/
def formatDecimal (x : Decimal) (precision : Nat) : Except Failure String := do
  let ctx : Context := ⟨precision, .halfEven⟩
  let y ← ofFault (ctx.entered (ctx.normalize x))
  if y.isZero then return "0"
  else if !y.isFinite then return y.text
  else if -7 < y.adjusted && y.adjusted < precision then return y.fixed
  else return y.text

/-- A complex number. -/
def formatComplex (digits : Nat) (z : Complex) : String :=
  if z.im.isZero then formatReal digits z.re
  else
    let negative := z.im.isNegative
    let magnitude := z.im.abs
    let imaginary := if magnitude.eq Double.one then "" else formatReal digits magnitude
    if z.re.isZero then (if negative then "-" else "") ++ imaginary ++ "i"
    else formatReal digits z.re ++ (if negative then "-" else "+") ++ imaginary ++ "i"

/-- A value with at most `digits` significant digits of its doubles. -/
def Value.format (digits : Nat) : Value → Except Failure String
  | real x => .ok (formatReal digits x)
  | integer n => do
    let cs ← Number.writtenDigits n.natAbs
    return String.ofList (if n < 0 then '-' :: cs else cs)
  | complex z => .ok (formatComplex digits z)
  | decimal x ctx => formatDecimal x ctx.precision

/-- A value as results show it. -/
def Value.shown (v : Value) : Except Failure String := v.format Limit.outputDigits

end SciCalc
