/-
  Written forms of decimals.

  `text` writes every digit of the coefficient: with a point if the exponent is not positive and the number
  not too small, with an exponent otherwise (`1.50`, `1E+2`, `0E-10`).  `fixed` never has an exponent.
  `read` takes the same forms, digits of any script, and underscores anywhere.
-/
import SciCalc.Decimal.Basic
import SciCalc.Binary.Reading
import SciCalc.Binary.Text

namespace SciCalc.Decimal

/-- A digit row with the point `places` digits from its end; zeros are added in front as needed. -/
def withPoint (ds : List Char) (places : Nat) : List Char :=
  if places = 0 then ds
  else if ds.length ≤ places then '0' :: '.' :: List.replicate (places - ds.length) '0' ++ ds
  else ds.take (ds.length - places) ++ '.' :: ds.drop (ds.length - places)

/-- A sign in front of a negative number. -/
def signed (negative : Bool) (cs : List Char) : List Char := if negative then '-' :: cs else cs

/-- The written form of the undefined number. -/
def nanText (negative signaling : Bool) (payload : Nat) : List Char :=
  signed negative ((if signaling then ['s', 'N', 'a', 'N'] else ['N', 'a', 'N'])
    ++ if payload = 0 then [] else Number.digits payload)

/-- The written form that shows coefficient and exponent. -/
def chars : Decimal → List Char
  | finite s c e =>
    let ds := Number.digits c
    let lead := e + ds.length - 1
    if e ≤ 0 && -6 ≤ lead then signed s (withPoint ds (-e).toNat)
    else
      let mantissa := withPoint ds (ds.length - 1)
      signed s (mantissa ++ 'E' :: (if lead < 0 then '-' else '+') :: Number.digits lead.natAbs)
  | infinite s => signed s "Infinity".toList
  | nan s q p => nanText s q p

/-- The written form that shows coefficient and exponent. -/
def text (x : Decimal) : String := String.ofList x.chars

/-- The written form without an exponent. -/
def fixedChars : Decimal → List Char
  | finite s c e =>
    if 0 ≤ e then
      signed s (if c = 0 then ['0'] else Number.digits c ++ List.replicate e.toNat '0')
    else signed s (withPoint (Number.digits c) (-e).toNat)
  | x => x.chars

/-- The written form without an exponent. -/
def fixed (x : Decimal) : String := String.ofList x.fixedChars

/-- The exponents that a decimal may be read with lie between these bounds. -/
def readable (c : Nat) (e : Int) : Bool :=
  -1999999999999999997 ≤ e && e + Number.digitCount c - 1 ≤ 999999999999999999

/-- The payload digits of an undefined number. -/
def readPayload? (cs : List Char) : Option Nat := if cs.all Text.isDigit then some (Number.ofDigits cs) else none

/-- A decimal without outer blanks and underscores. -/
def readPlain (cs : List Char) : Except Fault Decimal :=
  let (negative, rest) := Text.takeSign cs
  let word := (Text.lower (String.ofList rest)).toList
  let refused : Except Fault Decimal := .error (.undefined .conversion)
  if word = "inf".toList || word = "infinity".toList then .ok (.infinite negative)
  else match word with
    | 's' :: 'n' :: 'a' :: 'n' :: payload =>
      match readPayload? payload with
      | some p => .ok (.nan negative true p)
      | none => refused
    | 'n' :: 'a' :: 'n' :: payload =>
      match readPayload? payload with
      | some p => .ok (.nan negative false p)
      | none => refused
    | _ =>
      match Text.readUnsigned? rest with
      | some (c, e) =>
        if readable c e then .ok (.finite negative c e) else .error (.undefined .operation)
      | none => refused

/-- The decimal that a text denotes, exact whatever its length. -/
def read (s : String) : Except Fault Decimal :=
  readPlain ((Text.asciiDigits (Text.trimChars s.toList)).filter (· ≠ '_'))

/-- The decimal written with the fewest digits that read back as the binary number. -/
def ofBinary (f : Format) : Binary → Decimal
  | .nan => .nan false false 0
  | .infinite s => .infinite s
  | .finite s m e =>
    if m = 0 then .finite s 0 (-1)
    else
      let (c, k) := Binary.shortest f m e
      let (ds, lead) := Binary.leadingDigits c k
      let places := ds.length - 1
      -- a positional form always shows a digit behind the point
      if -4 ≤ lead && lead < 16 then
        if lead < places then .finite s (Number.ofDigits ds) (lead - places)
        else .finite s (Number.ofDigits ds * 10 ^ (lead - places + 1).toNat) (-1)
      else .finite s (Number.ofDigits ds) (lead - places)

/-- The nearest number of a binary format. -/
def toBinary (f : Format) : Decimal → Binary
  | finite s c e => f.ofDecimal s c e
  | infinite s => .infinite s
  | nan .. => .nan

/-- The sign, the digits before the point and the digits behind it of the form without an exponent. -/
def parts (x : Decimal) : Bool × String × String :=
  let cs := x.fixedChars
  let digits := cs.dropWhile (· = '-')
  let whole := digits.takeWhile (· ≠ '.')
  let fraction := (digits.dropWhile (· ≠ '.')).drop 1
  (cs.head? = some '-', String.ofList whole, if fraction.isEmpty then "0" else String.ofList fraction)

example : text (.finite true 150 (-2)) = "-1.50" := by decide
example : text (.finite false 12 5) = "1.2E+6" := by decide
example : fixed (.finite false 12 5) = "1200000" := by decide

end SciCalc.Decimal
