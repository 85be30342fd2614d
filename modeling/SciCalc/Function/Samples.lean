/-
  Ready-made functions on plain objects, for programs that try out registration.

  Arithmetic on plain numbers keeps to the wider of two kinds, integers before doubles before complex
  numbers.  Decimals mix with integers only and are rounded in the standard context.  Texts and lists are
  joined by a sum and repeated by a product.
-/
import SciCalc.Plain
import SciCalc.Decimal.Power

namespace SciCalc

namespace Plain

/-- The name of a kind of object in complaints about operands. -/
def operandKind : Plain → String
  | decimal _ => "decimal.Decimal"
  | p => p.kind

/-- The failure of an operation on objects that it is not for. -/
def unsupportedOperands (symbol : String) (p q : Plain) : Failure :=
  .unexpected "TypeError"
    ("unsupported operand type(s) for " ++ symbol ++ ": '" ++ p.operandKind ++ "' and '" ++ q.operandKind ++ "'")

/-- A number as a complex one; an integer beyond all doubles is a fault. -/
def toComplex? : Plain → Option (Except Fault Complex)
  | integer n => some ((Double.ofInt? n).map .ofReal)
  | double x => some (.ok (.ofReal x))
  | complex re im => some (.ok ⟨re, im⟩)
  | _ => Option.none

/-- The operations on each kind of number. -/
structure NumberOperation where
  /-- How the operation is written. -/
  symbol : String
  /-- On integers. -/
  integers : Int → Int → Except Fault Plain
  /-- On doubles. -/
  doubles : Binary → Binary → Except Fault Plain
  /-- On complex numbers. -/
  complexes : Complex → Complex → Except Fault Plain
  /-- On decimals. -/
  decimals : Decimal → Decimal → Except Fault Decimal

/-- A truth value counts as an integer. -/
def counted : Plain → Plain
  | boolean b => integer (if b then 1 else 0)
  | p => p

/-- The result of an operation on two numbers. -/
def operate (op : NumberOperation) (p q : Plain) : Except Failure Plain :=
  match p.counted, q.counted with
  | integer n, integer m => ofFault (op.integers n m)
  | decimal x, decimal y => ofFault ((op.decimals x y).map decimal)
  | decimal x, integer n => ofFault ((op.decimals x (.ofInt n)).map decimal)
  | integer n, decimal y => ofFault ((op.decimals (.ofInt n) y).map decimal)
  | double x, double y => ofFault (op.doubles x y)
  | integer n, double y => ofFault do op.doubles (← Double.ofInt? n) y
  | double x, integer m => ofFault do op.doubles x (← Double.ofInt? m)
  | p', q' =>
    match p'.toComplex?, q'.toComplex? with
    | some z, some w => ofFault do op.complexes (← z) (← w)
    | _, _ => .error (unsupportedOperands op.symbol p q)

/-- A complex number as a plain object. -/
def ofComplex (z : Complex) : Plain := complex z.re z.im

/-- The sum. -/
def plus : NumberOperation where
  symbol := "+"
  integers n m := .ok (integer (n + m))
  doubles x y := .ok (double (Double.add x y))
  complexes z w := .ok (ofComplex (z.add w))
  decimals := Context.standard.add

/-- The product. -/
def times : NumberOperation where
  symbol := "*"
  integers n m := .ok (integer (n * m))
  doubles x y := .ok (double (Double.mul x y))
  complexes z w := .ok (ofComplex (z.mul w))
  decimals := Context.standard.mul

/-- The sum of numbers, or two texts or lists joined. -/
def sum (p q : Plain) : Except Failure Plain :=
  match p, q with
  | text s, text t => .ok (text (s ++ t))
  | list xs, list ys => .ok (list (xs ++ ys))
  | p, q => operate plus p q

/-- An object a number of times, or a text or a list repeated so often. -/
def multiple (p : Plain) (n : Nat) : Except Failure Plain :=
  match p with
  | text s => .ok (text (String.join (List.replicate n s)))
  | list xs => .ok (list (List.replicate n xs).flatten)
  | p => operate times p (integer n)

/-- The quotient of complex numbers, by the ratio of the parts of the divisor, the smaller over the
    greater. -/
def complexQuotient (z w : Complex) : Except Fault Complex :=
  if w.im.abs.le w.re.abs then
    if w.re.isZero then .error .zeroDivision
    else
      let ratio := Double.div w.im w.re
      let scale := Double.add w.re (Double.mul w.im ratio)
      .ok ⟨Double.div (Double.add z.re (Double.mul z.im ratio)) scale,
        Double.div (Double.sub z.im (Double.mul z.re ratio)) scale⟩
  else if w.re.abs.le w.im.abs then
    let ratio := Double.div w.re w.im
    let scale := Double.add (Double.mul w.re ratio) w.im
    .ok ⟨Double.div (Double.add (Double.mul z.re ratio) z.im) scale,
      Double.div (Double.sub (Double.mul z.im ratio) z.re) scale⟩
  else .ok ⟨.nan, .nan⟩

/-- The quotient. -/
def quotient : NumberOperation where
  symbol := "/"
  integers n m := (Double.ratio n m).map double
  doubles x y := if y.isZero then .error .zeroDivision else .ok (double (Double.div x y))
  complexes z w := (complexQuotient z w).map ofComplex
  decimals := Context.standard.div

end Plain

/-! ## The functions -/

namespace Sample

open Plain

/-- A function on plain objects. -/
abbrev Call := List Plain → Except Failure Plain

/-- The failure of a function that is given too few or too many arguments. -/
def wrongArguments : Failure := .unexpected "TypeError" "wrong number of arguments"

/-- Twice the argument. -/
def double : Call
  | [x] => multiple x 2
  | _ => .error wrongArguments

/-- The reciprocal. -/
def inverse : Call
  | [x] => operate quotient (.integer 1) x
  | _ => .error wrongArguments

/-- The first argument plus ten times the second one. -/
def addTenfold : Call
  | [x, y] => do sum x (← multiple y 10)
  | _ => .error wrongArguments

/-- The first argument. -/
def first : Call
  | x :: _ => .ok x
  | [] => .error (.unexpected "IndexError" "tuple index out of range")

/-- A function with a result that does not depend on its arguments. -/
def constantly (p : Plain) : Call := fun _ => .ok p

/-- A function that always fails. -/
def failing (f : Failure) : Call := fun _ => .error f

/-- The smallest of the sample numbers: `10 ^ -310`. -/
def tiny : Binary := Format.double.ofDecimal false 1 (-310)

/-- The functions by name. -/
def calls : List (String × Call) :=
  [("double", double), ("inverse", inverse), ("addmul", addTenfold),
    ("count", fun args => .ok (.integer args.length)), ("first", first),
    ("seven", constantly (.integer 7)),
    ("bad_sqrt", failing (.fault (.domain "math domain error"))),
    ("big_exp", failing (.fault .overflow)),
    ("true", constantly (.boolean true)), ("text", constantly (.text "abc")),
    ("numtext", constantly (.text "1+2j")), ("none", constantly .none),
    ("imag", constantly (.complex .zero Double.two)),
    ("decimal", constantly (.decimal (.finite false 1250 (-3)))),
    ("npint", constantly (.integer 41)), ("npfloat", constantly (.double (Format.double.round false 3 (-2)))),
    ("npcomplex", constantly (.complex Double.one Double.one.neg)),
    ("mpf", constantly (.double (Format.double.round false 5 (-1)))),
    ("inf", constantly (.double (.infinite false))), ("nan", constantly (.double .nan)),
    ("tiny", constantly (.double tiny)),
    ("keyerror", failing (.unexpected "KeyError" "'k'")),
    ("calcerror", failing (.request (.custom "custom failure" "CUSTOM")))]

/-- The function of a name. -/
def find? (name : String) : Option Call := (calls.find? (·.1 = name)).map (·.2)

end Sample

end SciCalc
