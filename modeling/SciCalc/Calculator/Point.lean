/-
  Points given as plain objects.

  Where a search starts and between which bounds an integral is taken is said by numbers, or by texts that
  denote numbers.  A guess may also be a list of points.  Bounds that are the same object enclose nothing,
  whatever they are.
-/
import SciCalc.Binary.Numeral
import SciCalc.Plain
import SciCalc.Solver.Root

namespace SciCalc

namespace Text

/-- What follows a numeral that may lack any of its parts: a sign, digits, a point with digits, an
    exponent. -/
def afterPart (cs : List Char) : List Char :=
  let isDigit (c : Char) : Bool := (digitValue? c).isSome
  let rest := (takeSign cs).2.dropWhile isDigit
  let rest := match rest with
    | '.' :: behind => behind.dropWhile isDigit
    | rest => rest
  match rest with
  | 'e' :: power =>
    let digits := (takeSign power).2
    if digits.head?.any isDigit then digits.dropWhile isDigit else rest
  | rest => rest

/-- The text has the form of a complex number, `re + im j`; it may stand in parentheses, with a line feed
    behind it. -/
def isComplexForm (s : String) : Bool :=
  let cs := (lower s).toList.filter (· ≠ ' ')
  let cs := if cs.head? = some '(' then cs.drop 1 else cs
  let first := afterPart cs
  let behind := if first.head? = some 'j' then first else afterPart first
  match behind with
  | 'j' :: rest =>
    let rest := if rest.head? = some ')' then rest.drop 1 else rest
    rest = [] || rest = ['\n']
  | _ => false

end Text

namespace Plain

/-- The exact number that a truth value, an integer or a double is. -/
def exactNumber? : Plain → Option Binary
  | boolean b => some (.finite false (if b then 1 else 0) 0)
  | integer n => some (.finite (decide (n < 0)) n.natAbs 0)
  | double x => some x
  | _ => Option.none

mutual

/-- Two objects are the same: numbers by value, collections member by member. -/
def same : Plain → Plain → Bool
  | none, none => true
  | text s, text t => s = t
  | list xs, list ys => sameMembers xs ys
  | record fs, record gs => fs.length = gs.length && sameFields fs gs
  | p, q =>
    match p.exactNumber?, q.exactNumber? with
    | some x, some y => x.eq y
    | _, _ => false

/-- The members of two lists are the same. -/
def sameMembers : List Plain → List Plain → Bool
  | [], [] => true
  | x :: xs, y :: ys => same x y && sameMembers xs ys
  | _, _ => false

/-- The fields of a record are among others. -/
def sameFields : List (String × Plain) → List (String × Plain) → Bool
  | [], _ => true
  | (key, x) :: rest, gs =>
    (match gs.find? (·.1 = key) with
      | some (_, y) => same x y
      | Option.none => false) && sameFields rest gs

end

/-- What goes wrong with an object that is no point.  A text with an imaginary unit that has not the form of a
    complex number is misread before it is refused. -/
def noPoint (p : Plain) : Failure :=
  match p with
  | text s =>
    if (Text.lower s).toList.contains 'j' && !Text.isComplexForm s then
      .unexpected "AttributeError" "'NoneType' object has no attribute 'group'"
    else .unexpected "TypeError" ("cannot create mpf from " ++ p.shown)
  | p => .unexpected "TypeError" ("cannot create mpf from " ++ p.shown)

/-- The point that an object is. -/
def toPoint (p : Plain) : Except Failure Binary :=
  match p, p.exactNumber? with
  | _, some x => .ok x
  | text s, Option.none =>
    match Solver.points.readNumber? s with
    | some r => ofFault r
    | Option.none => .error p.noPoint
  | p, Option.none => .error p.noPoint

/-- The first point of a guess, and the further ones. -/
def toGuess : Plain → Except Failure (Binary × List Binary)
  | list ps => do
    match ← ps.mapM toPoint with
    | x :: further => return (x, further)
    | [] => .error (.unexpected "IndexError" "list index out of range")
  | p => do return (← p.toPoint, [])

/-- The bounds are given as numbers. -/
def areNumbers (p q : Plain) : Bool := p.exactNumber?.isSome && q.exactNumber?.isSome

end Plain

end SciCalc
