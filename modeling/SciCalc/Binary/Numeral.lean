/-
  Numbers written as decimals or as fractions.

  A point of a search or of an integration may be given by a text: a decimal numeral, a fraction `p/q` of two
  integers, `inf` or `nan`.  Case and the blanks around it do not matter, and an `l` at the end of an integer
  is overlooked.
-/
import SciCalc.Binary.Power
import SciCalc.Binary.Reading
import SciCalc.Number.Fault

namespace SciCalc

namespace Text

/-- The text without the given character at its end, however often it stands there. -/
def dropTrailing (c : Char) (cs : List Char) : List Char := (cs.reverse.dropWhile (· = c)).reverse

end Text

namespace Format

open Text (readInteger? dropTrailing)

/-- The characters of a numeral in lower case before its point, and those behind it without zeros at the
    end. -/
def mantissaParts (cs : List Char) : List Char × List Char :=
  let mantissa := cs.takeWhile (· ≠ 'e')
  (mantissa.takeWhile (· ≠ '.'), dropTrailing '0' ((mantissa.dropWhile (· ≠ '.')).drop 1))

/-- The number that a decimal numeral in lower case denotes.  The digits before and behind the point are read
    as one integer, and every character behind it, an underscore too, counts as a place. -/
def readDecimal? (f : Format) (cs : List Char) : Option Binary := do
  let cs := dropTrailing 'l' cs
  let _ ← Format.double.read? (String.ofList cs)
  let power ← match cs.dropWhile (· ≠ 'e') with
    | [] => some 0
    | _ :: power => readInteger? power
  let (whole, fraction) := mantissaParts cs
  let n ← readInteger? (whole ++ fraction)
  return f.ofNumeral (decide (n < 0)) n.natAbs (power - fraction.length)

/-- The quotient of two integers. -/
def ofRatio (f : Format) (p q : Int) : Except Fault Binary :=
  if q = 0 then .error .zeroDivision
  else .ok (f.div (.finite (decide (p < 0)) p.natAbs 0) (.finite (decide (q < 0)) q.natAbs 0))

/-- **The number that a text denotes**; nothing if it denotes none. -/
def readNumber? (f : Format) (s : String) : Option (Except Fault Binary) :=
  let cs := Text.trimChars (Text.lower s).toList
  if cs = "inf".toList || cs = "+inf".toList then some (.ok (.infinite false))
  else if cs = "-inf".toList then some (.ok (.infinite true))
  else if cs = "nan".toList then some (.ok .nan)
  else match Text.splitFrom '/' [] cs with
    | [cs] => (f.readDecimal? cs).map .ok
    | [p, q] => do
      let p ← readInteger? (dropTrailing 'l' p)
      let q ← readInteger? (dropTrailing 'l' q)
      return f.ofRatio p q
    | _ => none

end Format

end SciCalc
