/-
  Plain objects.

  What a program hands to the calculator, and what a registered function takes and returns, is a plain
  object: a number of one of the usual kinds, a truth value, a text, nothing at all, or a collection.  Every
  plain object has a written form for messages; numbers, and texts that denote numbers, become values.
-/
import SciCalc.Value.Basic

namespace SciCalc

/-- A plain object. -/
inductive Plain where
  /-- No object. -/
  | none
  | boolean (b : Bool)
  | integer (n : Int)
  | double (x : Binary)
  | complex (re im : Binary)
  | decimal (x : Decimal)
  | text (s : String)
  | list (xs : List Plain)
  | record (fields : List (String × Plain))
  /-- A value of a calculation. -/
  | value (v : Value)
deriving Inhabited

namespace Plain

/-- The name of a kind of object. -/
def kind : Plain → String
  | none => "NoneType"
  | boolean _ => "bool"
  | integer _ => "int"
  | double _ => "float"
  | complex .. => "complex"
  | decimal _ => "Decimal"
  | text _ => "str"
  | list _ => "list"
  | record _ => "dict"
  | value (.real _) => "Real"
  | value (.integer _) => "BigInt"
  | value (.complex _) => "Complex"
  | value (.decimal ..) => "DecimalValue"

/-- The component of a complex number with the fewest digits that read back and no trailing `.0`. -/
def componentText (x : Binary) : String :=
  let s := (Double.text x).toList
  match s.reverse with
  | '0' :: '.' :: rest => String.ofList rest.reverse
  | _ => String.ofList s

/-- The written form of a complex number. -/
def complexText (re im : Binary) : String :=
  if re.isZero && !re.isNegative then componentText im ++ "j"
  else "(" ++ componentText re ++ (if im.isNegative then "" else "+") ++ componentText im ++ "j)"

/-- The written form of a value of a calculation. -/
def valueText : Value → String
  | .real x => "Real(value=" ++ Double.text x ++ ")"
  | .integer n => "BigInt(value=" ++ Number.intText n ++ ")"
  | .complex z => "Complex(real=" ++ Double.text z.re ++ ", imag=" ++ Double.text z.im ++ ")"
  | .decimal x ctx =>
    "DecimalValue(value=Decimal('" ++ x.text ++ "'), precision=" ++ Number.natText ctx.precision
      ++ ", rounding=" ++ Text.quoted ctx.rounding.name ++ ")"

mutual

/-- The written form of an object. -/
def shown : Plain → String
  | none => "None"
  | boolean b => if b then "True" else "False"
  | integer n => Number.intText n
  | double x => Double.text x
  | complex re im => complexText re im
  | decimal x => "Decimal('" ++ x.text ++ "')"
  | text s => Text.quoted s
  | list xs => "[" ++ Text.join ", " (shownList xs) ++ "]"
  | record fields => "\x7b" ++ Text.join ", " (shownFields fields) ++ "\x7d"
  | value v => valueText v

/-- The written forms of the members of a list. -/
def shownList : List Plain → List String
  | [] => []
  | x :: xs => x.shown :: shownList xs

/-- The written forms of the entries of a record. -/
def shownFields : List (String × Plain) → List String
  | [] => []
  | (key, x) :: rest => (Text.quoted key ++ ": " ++ x.shown) :: shownFields rest

end

/-- The failure whose message tells an object; an integer of too many digits is a fault instead. -/
def telling (p : Plain) (failure : String → Failure) : Failure :=
  match p with
  | integer n => .telling n fun _ => failure p.shown
  | _ => failure p.shown

/-- An object as a message has it: a text as it is. -/
def inMessage : Plain → String
  | text s => s
  | decimal x => x.text
  | x => x.shown

end Plain

/-! ## Texts as numbers -/

namespace Text

/-- The word in front of a text in any case of letters, if it is one of the given ones, and the rest. -/
def takeWord? (words : List String) (cs : List Char) : Option (String × List Char) :=
  words.findSome? fun word =>
    let n := word.length
    if lower (String.ofList (cs.take n)) = word then some (word, cs.drop n) else Option.none

/-- The longest numeral in front of a text, and the rest. -/
def takeNumeral (cs : List Char) : List Char × List Char :=
  let whole := cs.takeWhile isDigit
  let rest := cs.dropWhile isDigit
  let (fraction, rest) := match rest with
    | '.' :: tail => ('.' :: tail.takeWhile isDigit, tail.dropWhile isDigit)
    | rest => ([], rest)
  let mantissa := whole ++ fraction
  match rest with
  | mark :: tail =>
    let (sign, tail) := match tail with
      | '+' :: t => (['+'], t)
      | '-' :: t => (['-'], t)
      | t => ([], t)
    let power := tail.takeWhile isDigit
    if (mark = 'e' || mark = 'E') && !power.isEmpty then
      (mantissa ++ mark :: sign ++ power, tail.dropWhile isDigit)
    else (mantissa, rest)
  | [] => (mantissa, [])

/-- The number in front of a text, and the rest. -/
def takeNumber? (cs : List Char) : Option (Binary × List Char) :=
  let (negative, rest) := takeSign cs
  match takeWord? ["infinity", "inf", "nan"] rest with
  | some (word, rest) => some (if word = "nan" then .nan else .infinite negative, rest)
  | Option.none =>
    let (numeral, rest) := takeNumeral rest
    match readUnsigned? numeral with
    | some (c, k) => some (Format.double.ofDecimal negative c k, rest)
    | Option.none => Option.none

/-- The unit with the sign in front of a text, and the rest. -/
def takeUnit (cs : List Char) : Binary × List Char :=
  match cs with
  | '-' :: rest => (Double.one.neg, rest)
  | '+' :: rest => (Double.one, rest)
  | rest => (Double.one, rest)

/-- What follows the imaginary unit. -/
def takeImaginaryMark? : List Char → Option (List Char)
  | 'j' :: rest => some rest
  | 'J' :: rest => some rest
  | _ => Option.none

/-- The complex number in front of a text, and the rest. -/
def takeComplex? (cs : List Char) : Option (Binary × Binary × List Char) :=
  match takeNumber? cs with
  | some (x, rest) =>
    match rest with
    | 'j' :: rest => some (.zero, x, rest)
    | 'J' :: rest => some (.zero, x, rest)
    | sign :: _ =>
      if sign = '+' || sign = '-' then
        let (y, rest) := (takeNumber? rest).getD (takeUnit rest)
        (takeImaginaryMark? rest).map fun rest => (x, y, rest)
      else some (x, .zero, rest)
    | [] => some (x, .zero, [])
  | Option.none =>
    let (y, rest) := takeUnit cs
    (takeImaginaryMark? rest).map fun rest => (.zero, y, rest)

/-- The blanks that may stand around a complex number. -/
def dropOuter (cs : List Char) : List Char := cs.dropWhile isOuterBlank

/-- The complex number that a text denotes; it may stand in parentheses. -/
def readComplex? (s : String) : Option (Binary × Binary) :=
  match dropUnderscores (asciiDigits (trimOuter s.toList)) with
  | Option.none => Option.none
  | some cs =>
    let (enclosed, cs) := match cs with
      | '(' :: rest => (true, dropOuter rest)
      | rest => (false, rest)
    match takeComplex? cs with
    | Option.none => Option.none
    | some (x, y, rest) =>
      match enclosed, dropOuter rest with
      | false, [] => some (x, y)
      | true, [')'] => some (x, y)
      | _, _ => Option.none

end Text

namespace Plain

/-- Whether an object counts as true: nothing at all, a zero and what is empty do not. -/
def isTrue : Plain → Bool
  | none => false
  | boolean b => b
  | integer n => n ≠ 0
  | double x => !x.isZero
  | complex re im => !(re.isZero && im.isZero)
  | decimal x => !x.isZero
  | text s => s ≠ ""
  | list xs => !xs.isEmpty
  | record fields => !fields.isEmpty
  | value _ => true

/-- The objects that an object is gone through as: the members of a list, the characters of a text, the keys
    of a record. -/
def members : Plain → Except Failure (List Plain)
  | list xs => .ok xs
  | text s => .ok (s.toList.map fun c => text c.toString)
  | record fields => .ok (fields.map fun entry => text entry.1)
  | x => .error (.unexpected "TypeError" ("'" ++ x.kind ++ "' object is not iterable"))

/-- A plain object as a value.  A decimal gets the given precision, but is not rounded to it. -/
def toValue (precision : Nat) : Plain → Except Failure Value
  | boolean b => .ok (.integer (if b then 1 else 0))
  | integer n => .ok (.integer n)
  | double x => .ok (.real x)
  | complex re im => .ok (.complex ⟨re, im⟩)
  | decimal x => .ok (.decimal x ⟨precision, .halfEven⟩)
  | value v => .ok v
  | text s =>
    match Text.readComplex? s with
    | some (x, y) => .ok (if y.isZero then .real x else .complex ⟨x, y⟩)
    | Option.none => .error (.numeric (.unsupported "str"))
  | x => .error (.numeric (.unsupported x.kind))

end Plain

/-- The number in a value. -/
def Value.toPlain : Value → Plain
  | real x => .double x
  | integer n => .integer n
  | complex z => .complex z.re z.im
  | decimal x _ => .decimal x

end SciCalc
