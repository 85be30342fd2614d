/-
  Sums, means and medians of rows of doubles.

  A row is summed in blocks of at most 128 numbers.  Within a block eight running sums take turns and are
  added in pairs at the end, so that the rounding errors of a long row stay small; a longer row is split
  in two halves, the first a multiple of eight.
-/
import SciCalc.Double.Basic

namespace SciCalc.Double

/-- The numbers added from left to right to a first one. -/
def addAll (first : Binary) (xs : List Binary) : Binary := xs.foldl add first

/-- Eight running sums after one more group of eight; what is left over when there is none. -/
def runEight : Nat → List Binary → List Binary → List Binary × List Binary
  | 0, sums, xs => (sums, xs)
  | fuel + 1, sums, xs =>
    if xs.length < 8 then (sums, xs)
    else runEight fuel (List.zipWith add sums (xs.take 8)) (xs.drop 8)

/-- Neighbouring numbers added. -/
def addPairs : List Binary → List Binary
  | x :: y :: rest => add x y :: addPairs rest
  | xs => xs

/-- The sum of at most 128 numbers. -/
def sumBlock (xs : List Binary) : Binary :=
  if xs.length < 8 then addAll .zero xs
  else
    let (sums, rest) := runEight xs.length (xs.take 8) (xs.drop 8)
    match addPairs (addPairs (addPairs sums)) with
    | [total] => addAll total rest
    | _ => .nan

/-- The sum of a row; the fuel bounds how often it is split. -/
def sumFrom : Nat → List Binary → Binary
  | 0, xs => sumBlock xs
  | fuel + 1, xs =>
    if xs.length ≤ 128 then sumBlock xs
    else
      let half := xs.length / 2 / 8 * 8
      add (sumFrom fuel (xs.take half)) (sumFrom fuel (xs.drop half))

/-- The sum of a row. -/
def sum (xs : List Binary) : Binary := sumFrom xs.length xs

/-- The arithmetic mean. -/
def mean (xs : List Binary) : Binary := div (sum xs) (ofInt xs.length)

/-- The mean square distance from the mean. -/
def variance (xs : List Binary) : Binary :=
  let middle := mean xs
  mean (xs.map fun x => let d := sub x middle; mul d d)

/-- The number or the mean of the two numbers in the middle of a sorted row. -/
def middleOf (xs : List Binary) : Binary :=
  let n := xs.length / 2
  if xs.length % 2 = 1 then mean ((xs.drop n).take 1) else mean ((xs.drop (n - 1)).take 2)

/-- The median; it is undefined if a number is. -/
def median (xs : List Binary) : Binary :=
  if xs.any (·.isNaN) then .nan else middleOf (xs.mergeSort fun x y => x.le y)

end SciCalc.Double
