/-
  Computing with the digits that the arguments call for.

  A function of real numbers is computed with the bits of a double, unless an argument is a decimal: then
  it is computed with five digits more than the largest precision, written with these digits and rounded
  in the context of the first decimal.  A result with an imaginary part is a complex number of doubles.
-/
import SciCalc.Binary.Numeral
import SciCalc.Constant
import SciCalc.Elementary.Gamma
import SciCalc.Elementary.Inverse
import SciCalc.Mode

namespace SciCalc

open Elementary (Point)

/-- The bits of a double, without its limits. -/
def doubleBits : Format := .ofBits 53

namespace Value

/-- The fault of a decimal that is not read as a number, by its written form: a word may be that of a number
    but not of an integer, or not even that; a finite one has too many digits. -/
def noNumber (x : Decimal) : Failure :=
  let word := Text.lower x.text
  match x with
  | .finite .. =>
    let (whole, fraction) := Format.mantissaParts word.toList
    .fault (.longNumeral ((whole ++ fraction).filter (· ≠ '-')).length)
  | _ =>
    if (Double.read? word).isSome then
      .fault (.domain ("invalid literal for int() with base 10: " ++ Text.quoted word))
    else .fault (.domain ("could not convert string to float: " ++ Text.quoted word))

/-- The number of a value in a format; a complex number counts with its real part. -/
def toBits (f : Format) : Value → Except Failure Binary
  | real x => .ok (f.convert x)
  | integer n => .ok (f.ofInt n)
  | complex z => .ok (f.convert z.re)
  | decimal x _ =>
    match x with
    | .finite .. => (f.readDecimal? (Text.lower x.text).toList).elim (.error (noNumber x)) .ok
    | .nan false false 0 => .ok .nan
    | x => .error (noNumber x)

/-- The context of a result: the largest precision of the decimals and the rounding of the first one. -/
def resultContext? : List Value → Option Context
  | [] => none
  | decimal _ ctx :: rest =>
    match resultContext? rest with
    | some other => some ⟨max ctx.precision other.precision, ctx.rounding⟩
    | none => some ctx
  | _ :: rest => resultContext? rest

/-- A computed number as a value. -/
def ofComputed (ctx? : Option Context) (z : Point) : Except Failure Value :=
  if !z.im.isZero then
    .ok (.complex ⟨z.re.toDouble, z.im.toDouble⟩)
  else match ctx? with
    | none => .ok (.real z.re.toDouble)
    | some ctx =>
      if z.re.isFinite then do return .decimal (← ofFault (ctx.entered (ctx.ofComputed z.re))) ctx
      else .error (.numeric .notFinite)

/-- Computes a function of numbers in the format that the arguments call for. -/
def compute (f : Format → List Binary → Except Failure Point) (args : List Value) : Except Failure Value := do
  let ctx? := resultContext? args
  let format := match ctx? with
    | some ctx => Decimal.computingFormat ctx.precision
    | none => doubleBits
  let xs ← args.mapM (toBits format)
  ofComputed ctx? (← f format xs)

/-- A real number as a point. -/
def onAxis (x : Binary) : Point := ⟨x, .zero⟩

/-- Computes a real function of one number. -/
def computeReal (f : Format → Binary → Binary) (v : Value) : Except Failure Value :=
  compute (fun p xs => .ok (onAxis (f p (xs.headD .nan)))) [v]

/-- Computes a real function of two numbers. -/
def computeReal2 (f : Format → Binary → Binary → Except Failure Binary) (v w : Value) :
    Except Failure Value :=
  compute (fun p xs => match xs with
    | [x, y] => (f p x y).map onAxis
    | _ => .ok (onAxis .nan)) [v, w]

/-- Computes a function of a point with the bits of a double. -/
def computePoint (f : Format → Point → Except Failure Point) (v : Value) : Except Failure Value := do
  let z ← v.toComplex
  let w ← f doubleBits ⟨doubleBits.convert z.re, doubleBits.convert z.im⟩
  return .complex ⟨w.re.toDouble, w.im.toDouble⟩

/-- Computes a function of a point that has a value everywhere. -/
def computeEverywhere (f : Format → Point → Point) : Value → Except Failure Value :=
  computePoint fun p z => .ok (f p z)

/-- Computes the reciprocal of a function of a point. -/
def computeReciprocal (f : Format → Point → Except Fault Point) : Value → Except Failure Value :=
  computePoint fun p z => ofFault do (← f p z).inv p

/-- What stands for a function value outside the real domain: a failure, or a complex number if there are
    any. -/
def outsideDomain (m : Modes) (what : String) (fallback : Except Failure Value) : Except Failure Value :=
  if m.complexEnabled then fallback else .error (.numeric (.domain what))

/-- A complex result as a value. -/
def ofComplex (z : Except Failure Complex) : Except Failure Value := z.map .complex

/-! ## Comparing with small integers -/

/-- The order of a real number and an integer; an undefined double has none, and an undefined decimal is a
    fault. -/
def compareInt (v : Value) (n : Int) : Except Failure (Option Ordering) :=
  match v with
  | real x => .ok (x.compare? (Double.ofInt n))
  | integer m => .ok (some (compare m n))
  | complex z => .ok (z.re.compare? (Double.ofInt n))
  | decimal x _ =>
    match x.compare? (.ofInt n) with
    | some o => .ok (some o)
    | none => .error (.fault (.undefined .operation))

/-- The number is below an integer. -/
def isBelow (v : Value) (n : Int) : Except Failure Bool := do return (← v.compareInt n) = some .lt

/-- The number is at most an integer. -/
def isAtMost (v : Value) (n : Int) : Except Failure Bool := do
  let o ← v.compareInt n
  return o = some .lt || o = some .eq

/-- The order of the magnitude of a real number and one.  That of a decimal is rounded to the digits of
    the standard context first. -/
def compareMagnitudeToOne (v : Value) : Except Failure (Option Ordering) :=
  match v with
  | real x => .ok (x.abs.compare? Double.one)
  | integer m => .ok (some (compare (m.natAbs : Int) 1))
  | complex z => .ok (z.re.abs.compare? Double.one)
  | decimal x ctx => do
    let y ← ofFault (Context.standard.plus x)
    (decimal y.abs ctx).compareInt 1

end Value

end SciCalc
