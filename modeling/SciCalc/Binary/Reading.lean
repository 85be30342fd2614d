/-
  Reading binary numbers.

  The decimal `c · 10 ^ k` is rounded once, whatever its length.  A text is a number if it has digits with
  at most one point, single underscores between digits, an optional sign and exponent, and blanks around
  it; `inf`, `infinity` and `nan` are numbers too.  Digits of any script are read.
-/
import SciCalc.Binary.Arithmetic
import SciCalc.Limit
import SciCalc.Number.Digits
import SciCalc.Text.Blank
import SciCalc.Text.Case

namespace SciCalc

/-- The number of the format nearest to `± c · 10 ^ k`.  As ten lies between eight and sixteen, numbers far
    out of range are recognised by their count of digits alone. -/
def Format.ofDecimal (f : Format) (negative : Bool) (c : Nat) (k : Int) : Binary :=
  if c = 0 then f.zero negative
  else
    let top := k + Number.digitCount c
    let far : Option Binary := match f.range with
      | none => none
      | some (least, limit) =>
        if limit ≤ 3 * (top - 1) then some (.infinite negative)
        else if top ≤ 0 && 3 * top < least - 1 then some (f.zero negative)
        else none
    match far with
    | some x => x
    | none =>
      if 0 ≤ k then f.round negative (c * 10 ^ k.toNat) 0
      else f.quotient negative c (10 ^ (-k).toNat) 0

namespace Text

/-- A sign in front of a text. -/
def takeSign : List Char → Bool × List Char
  | '-' :: rest => (true, rest)
  | '+' :: rest => (false, rest)
  | rest => (false, rest)

/-- The digits of any script as ASCII digits, other characters as they are. -/
def asciiDigits (cs : List Char) : List Char :=
  cs.map fun c => match digitValue? c with
    | some d => Number.digitChar d
    | none => c

/-- The text without the underscores that stand between two digits; none if another underscore is left. -/
def dropUnderscores : List Char → Option (List Char)
  | [] => some []
  | '_' :: _ => none
  | c :: '_' :: d :: rest =>
    if isDigit c && isDigit d then (dropUnderscores (d :: rest)).map (c :: ·) else none
  | c :: rest => (dropUnderscores rest).map (c :: ·)

/-- The signed whole number that stands behind an exponent mark. -/
def readExponent? (cs : List Char) : Option Int :=
  let (negative, ds) := takeSign cs
  if ds.isEmpty || !ds.all isDigit then none
  else some (if negative then -(Number.ofDigits ds : Int) else Number.ofDigits ds)

/-- An unsigned decimal numeral with ASCII digits: its coefficient and the exponent of its last digit. -/
def readUnsigned? (cs : List Char) : Option (Nat × Int) :=
  let whole := cs.takeWhile isDigit
  let rest := cs.dropWhile isDigit
  let (fraction, rest) := match rest with
    | '.' :: rest => (rest.takeWhile isDigit, rest.dropWhile isDigit)
    | rest => ([], rest)
  if whole.isEmpty && fraction.isEmpty then none
  else
    let c := Number.ofDigitsFrom (Number.ofDigits whole) fraction
    match rest with
    | [] => some (c, -(fraction.length : Int))
    | mark :: power =>
      if mark = 'e' || mark = 'E' then (readExponent? power).map fun k => (c, k - fraction.length)
      else none

/-- The blanks around a binary number: a blank of ASCII is one of the six that move a printer's head. -/
def isOuterBlank (c : Char) : Bool :=
  if c.toNat < 0x80 then c = ' ' || (9 ≤ c.toNat && c.toNat ≤ 13) else isBlank c

/-- The text without the blanks around it. -/
def trimOuter (cs : List Char) : List Char :=
  ((cs.dropWhile isOuterBlank).reverse.dropWhile isOuterBlank).reverse

/-- The integer that a text denotes: a sign and so many digits of any script as an integer may have, with
    underscores between digits and blanks around them. -/
def readInteger? (cs : List Char) : Option Int := do
  let cs ← dropUnderscores (asciiDigits (trimOuter cs))
  if Limit.numeralDigits < (takeSign cs).2.length then none else readExponent? cs

end Text

open Text

/-- The number of the format that a text without outer blanks or underscores denotes. -/
def Format.readPlain? (f : Format) (cs : List Char) : Option Binary :=
  let (negative, rest) := takeSign cs
  let word := lower (String.ofList rest)
  if word = "inf" || word = "infinity" then some (.infinite negative)
  else if word = "nan" then some .nan
  else (readUnsigned? rest).map fun (c, k) => f.ofDecimal negative c k

/-- The number of the format that a text denotes. -/
def Format.read? (f : Format) (s : String) : Option Binary :=
  match dropUnderscores (asciiDigits (trimOuter s.toList)) with
  | none => none
  | some cs => f.readPlain? cs

end SciCalc
