/-
  Written forms of binary numbers.

  `text` has the fewest digits that read back, always with a point or an exponent (`1.0`, `1e+16`);
  `general` has a given number of significant digits without trailing zeros (`1`, `0.3333`).  Either form
  is positional while the exponent of the leading digit is at least -4 and below a limit, beyond that it
  has an exponent of two digits or more.
-/
import SciCalc.Binary.Shortest

namespace SciCalc.Binary

/-- The digits without trailing zeros, but never none. -/
def stripZeros (ds : List Char) : List Char :=
  match (ds.reverse.dropWhile (· = '0')).reverse with
  | [] => ['0']
  | kept => kept

/-- The digits with the point after the digit of exponent zero; `lead` is the exponent of the first. -/
def positional (ds : List Char) (lead : Int) (fraction : Bool) : List Char :=
  if lead < 0 then '0' :: '.' :: List.replicate (-lead - 1).toNat '0' ++ ds
  else
    let whole := lead.toNat + 1
    let front := ds.take whole ++ List.replicate (whole - ds.length) '0'
    match ds.drop whole with
    | [] => if fraction then front ++ ['.', '0'] else front
    | back => front ++ '.' :: back

/-- One digit, the others behind the point, and the exponent with its sign. -/
def exponential (ds : List Char) (lead : Int) : List Char :=
  let mantissa := match ds with
    | d :: e :: rest => d :: '.' :: e :: rest
    | short => short
  mantissa ++ 'e' :: (if lead < 0 then '-' else '+') :: Number.digitsPadded 2 lead.natAbs

/-- The digits written positionally while the leading exponent is between -4 and the limit. -/
def layout (limit : Int) (fraction : Bool) (ds : List Char) (lead : Int) : List Char :=
  if -4 ≤ lead && lead < limit then positional ds lead fraction else exponential ds lead

/-- A text with a minus sign in front, if it is asked for. -/
def signed (negative : Bool) (cs : List Char) : List Char := if negative then '-' :: cs else cs

/-- The digits of a coefficient at an exponent, without trailing zeros, and the exponent of the first. -/
def leadingDigits (c : Nat) (k : Int) : List Char × Int :=
  let ds := Number.digits c
  (stripZeros ds, k + ds.length - 1)

/-- The written form with the fewest digits that read back. -/
def text (f : Format) : Binary → String
  | nan => "nan"
  | infinite s => String.ofList (signed s ['i', 'n', 'f'])
  | finite s m e =>
    if m = 0 then String.ofList (signed s ['0', '.', '0'])
    else
      let (c, k) := shortest f m e
      let (ds, lead) := leadingDigits c k
      String.ofList (signed s (layout 16 true ds lead))

/-- The written form with at most `count` significant digits; zero digits count as one. -/
def general (count : Nat) : Binary → String
  | nan => "nan"
  | infinite s => String.ofList (signed s ['i', 'n', 'f'])
  | finite s m e =>
    let count := max count 1
    if m = 0 then String.ofList (signed s ['0'])
    else
      let (c, k) := significant .toEven count m e
      let (ds, lead) := leadingDigits c k
      String.ofList (signed s (layout count false ds lead))

end SciCalc.Binary
