/-
  Decimal digits of natural numbers.

  A numeral is written by halving: a number of at most `2 ^ (l + 1)` digits is split at the `2 ^ l`-th
  digit from the right, and each half is written in the same way, so that a number of a million digits
  costs no more than a few divisions of its own size.  Reading is the usual fold.
-/
import SciCalc.Number.Power
import SciCalc.Text.Numeral

namespace SciCalc.Number

/-- The character of a digit below ten. -/
def digitChar (d : Nat) : Char := Char.ofNat ('0'.toNat + d)

/-- The last `2 ^ level` decimal digits of `n`, leading zeros included. -/
def paddedDigits : Nat → Nat → List Char
  | 0, n => [digitChar (n % 10)]
  | level + 1, n =>
    let split := 10 ^ (2 ^ level : Nat)
    paddedDigits level (n / split) ++ paddedDigits level (n % split)

/-- The decimal digits of a number below `10 ^ 2 ^ level`, without leading zeros. -/
def digitsBelow : Nat → Nat → List Char
  | 0, n => [digitChar n]
  | level + 1, n =>
    let split := 10 ^ (2 ^ level : Nat)
    if n < split then digitsBelow level n
    else digitsBelow level (n / split) ++ paddedDigits level (n % split)

/-- A level `l` with `n < 10 ^ 2 ^ l`: already `2 ^ l` exceeds the number of bits. -/
def digitLevel (n : Nat) : Nat := (n.log2 + 1).log2 + 1

/-- The decimal digits of a number, most significant first. -/
def digits (n : Nat) : List Char := digitsBelow (digitLevel n) n

/-- The number of decimal digits of a number below `10 ^ 2 ^ level`. -/
def digitCountBelow : Nat → Nat → Nat
  | 0, _ => 1
  | level + 1, n =>
    let split := 10 ^ (2 ^ level : Nat)
    if n < split then digitCountBelow level n else digitCountBelow level (n / split) + 2 ^ level

/-- The number of decimal digits, one for zero. -/
def digitCount (n : Nat) : Nat := digitCountBelow (digitLevel n) n

/-- The digits of a number with zeros in front, at least `width` of them in all. -/
def digitsPadded (width n : Nat) : List Char :=
  let ds := digits n
  List.replicate (width - ds.length) '0' ++ ds

/-- The number that a row of digits denotes, after the number `n` read before it. -/
def ofDigitsFrom (n : Nat) (cs : List Char) : Nat :=
  cs.foldl (fun n c => 10 * n + Text.digitValue c) n

/-- The number that a row of ASCII digits denotes. -/
def ofDigits (cs : List Char) : Nat := ofDigitsFrom 0 cs

/-- The numeral of a natural number. -/
def natText (n : Nat) : String := String.ofList (digits n)

/-- The numeral of an integer: a minus sign in front of a negative one. -/
def intChars (n : Int) : List Char :=
  if n < 0 then '-' :: digits n.natAbs else digits n.natAbs

/-- The numeral of an integer. -/
def intText (n : Int) : String := String.ofList (intChars n)

example : natText 1234567890 = "1234567890" := by decide
example : intText (-40) = "-40" := by decide
example : digitCount 1000 = 4 := by decide

end SciCalc.Number
