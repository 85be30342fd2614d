/-
  Messages from patterns.

  A pattern is a text with places for arguments: a percent sign, perhaps the name of the argument in
  parentheses, flags, a width, a precision behind a point, and the kind of the place.  `%s`, `%r` and `%a`
  write any argument, `%c` a character, `%d` an integer, `%x` and `%o` one in another base, `%f`, `%e` and
  `%g` a double; two percent signs are one.  The arguments fill the places in order, or, if the only one is
  a record, by name.

  A pattern gives no message if an argument does not fit its place, or if there are too few or too many.
-/
import SciCalc.Plain

namespace SciCalc

namespace Journal

/-! ## Places -/

/-- How a place is written. -/
structure Place where
  /-- The characters behind the percent sign that ask for a sign, for zeros or for the other side. -/
  flags : List Char
  /-- The least number of characters. -/
  width : Nat
  /-- The digits of a number, or the most characters of a text. -/
  precision : Option Nat
  /-- The kind. -/
  kind : Char
deriving DecidableEq, Inhabited

namespace Place

/-- The character is among the flags. -/
def has (p : Place) (flag : Char) : Bool := p.flags.contains flag

/-- Blanks up to the width, on the right if the place asks for it. -/
def pad (p : Place) (cs : List Char) : List Char :=
  let blanks := List.replicate (p.width - cs.length) ' '
  if p.has '-' then cs ++ blanks else blanks ++ cs

/-- A text, cut off behind the precision. -/
def text (p : Place) (s : String) : List Char :=
  p.pad (match p.precision with
    | some n => s.toList.take n
    | none => s.toList)

/-- The sign of a number. -/
def sign (p : Place) (negative : Bool) : List Char :=
  if negative then ['-'] else if p.has '+' then ['+'] else if p.has ' ' then [' '] else []

/-- A number behind its sign and the mark of its base; zeros that fill the width stand behind both. -/
def number (p : Place) (negative : Bool) (mark cs : List Char) : List Char :=
  let front := p.sign negative ++ mark
  let zeros := if p.has '0' && !p.has '-' then p.width - front.length - cs.length else 0
  p.pad (front ++ List.replicate zeros '0' ++ cs)

/-- An integer in a base. -/
def integer (p : Place) (base : Nat) (mark : List Char) (n : Int) : List Char :=
  let ds := Nat.toDigits base n.natAbs
  p.number (n < 0) (if p.has '#' then mark else []) (List.replicate (p.precision.getD 1 - ds.length) '0' ++ ds)

/-- Digits with a number of them behind the point. -/
def pointed (p : Place) (places : Nat) (ds : List Char) : List Char :=
  let whole := ds.length - places
  ds.take whole ++ (if places = 0 && !p.has '#' then [] else '.' :: ds.drop whole)

/-- A finite double with a number of places behind the point. -/
def fixed (p : Place) (places m : Nat) (e : Int) : List Char :=
  let scaled := m * 10 ^ places
  let n := if 0 ≤ e then scaled <<< e.toNat else Binary.divRound .toEven scaled (1 <<< (-e).toNat)
  p.pointed places (Number.digitsPadded (places + 1) n)

/-- As many digits of a finite double as are asked for, and the exponent of the first. -/
def leading (count m : Nat) (e : Int) : List Char × Int :=
  if m = 0 then (List.replicate count '0', 0)
  else
    let (c, k) := Binary.significant .toEven count m e
    (Number.digitsPadded count c, k + count - 1)

/-- A finite double with one digit in front of the point, and its exponent. -/
def scientific (p : Place) (ds : List Char) (lead : Int) : List Char :=
  p.pointed (ds.length - 1) ds
    ++ 'e' :: (if lead < 0 then '-' else '+') :: Number.digitsPadded 2 lead.natAbs

/-- A finite double with a number of significant digits, without zeros at the end unless the place asks for
    them. -/
def general (p : Place) (count m : Nat) (e : Int) : List Char :=
  let (all, lead) := leading count m e
  let ds := if p.has '#' then all else Binary.stripZeros all
  if -4 ≤ lead && lead < count then
    if lead < 0 then p.pointed (ds.length + (-lead).toNat - 1) (List.replicate (-lead).toNat '0' ++ ds)
    else
      let whole := lead.toNat + 1
      p.pointed (ds.length - whole) (ds ++ List.replicate (whole - ds.length) '0')
  else p.scientific ds lead

/-- The digits of a double in lower case. -/
def digits (p : Place) : Binary → List Char
  | .nan => ['n', 'a', 'n']
  | .infinite _ => ['i', 'n', 'f']
  | .finite _ m e =>
    let n := p.precision.getD 6
    match p.kind.toLower with
    | 'f' => p.fixed n m e
    | 'e' =>
      let (ds, lead) := leading (n + 1) m e
      p.scientific ds lead
    | _ => p.general (max n 1) m e

/-- A double; a kind that is a capital letter writes capitals. -/
def double (p : Place) (x : Binary) : List Char :=
  let cs := p.digits x
  p.number x.isNegative [] (if p.kind.isUpper then cs.map Char.toUpper else cs)

end Place

/-! ## Arguments -/

/-- The integer that a number without a fraction is. -/
def integer? : Plain → Option Int
  | .integer n => some n
  | .boolean b => some (if b then 1 else 0)
  | _ => none

/-- The integer that a number is, its fraction left out. -/
def wholePart? : Plain → Option Int
  | .double x => x.trunc?
  | p => integer? p

/-- The double that a number is; an integer beyond all doubles is none. -/
def doubleOf? : Plain → Option Binary
  | .double x => some x
  | p => ((integer? p).map Double.ofInt).filter (·.isFinite)

/-- A character by its code, or the only one of a text. -/
def character? (p : Plain) : Option String :=
  match p with
  | .text s => if s.length = 1 then some s else none
  | p => (integer? p).bind fun n =>
    if 0 ≤ n && n.toNat.isValidChar then some (Char.ofNat n.toNat).toString else none

/-- The characters of ASCII as they are, the others by their codes. -/
def asciiOnly (s : String) : String :=
  String.ofList (s.toList.flatMap fun c => if c.toNat < 0x80 then [c] else Text.escape c)

/-- An argument at a place. -/
def Place.argument? (p : Place) (x : Plain) : Option (List Char) :=
  match p.kind with
  | 's' => some (p.text x.inMessage)
  | 'r' => some (p.text x.shown)
  | 'a' => some (p.text (asciiOnly x.shown))
  | 'c' => (character? x).map fun s => p.pad s.toList
  | 'd' | 'i' | 'u' => (wholePart? x).map (p.integer 10 [])
  | 'o' => (integer? x).map (p.integer 8 ['0', 'o'])
  | 'x' => (integer? x).map (p.integer 16 ['0', 'x'])
  | 'X' => (integer? x).map fun n => (p.integer 16 ['0', 'x'] n).map Char.toUpper
  | 'e' | 'E' | 'f' | 'F' | 'g' | 'G' => (doubleOf? x).map p.double
  | _ => none

/-- The arguments of a pattern. -/
inductive Arguments where
  /-- They are used in order. -/
  | row (args : List Plain)
  /-- They are used by name; the record itself is an argument too, but for one place only. -/
  | named (fields : List (String × Plain)) (used : Bool)

namespace Arguments

/-- The arguments as given. -/
def ofList : List Plain → Arguments
  | [.record (entry :: rest)] => named (entry :: rest) false
  | args => row args

/-- The next argument, and the others. -/
def next? : Arguments → Option (Plain × Arguments)
  | row (x :: rest) => some (x, row rest)
  | named fields false => some (.record fields, named fields true)
  | _ => none

/-- The argument of a name. -/
def find? : Arguments → String → Option Plain
  | named fields _, name => (fields.reverse.find? (·.1 = name)).map (·.2)
  | row _, _ => none

/-- No argument is left over. -/
def done : Arguments → Bool
  | row args => args.isEmpty
  | named .. => true

end Arguments

/-! ## Filling -/

/-- What is left of a pattern, and of the arguments. -/
abbrev Rest := List Char × Arguments

/-- A number in front of a pattern, or the next argument for a star. -/
def takeNumber? (cs : List Char) (args : Arguments) : Option (Option Int × Rest) :=
  match cs with
  | '*' :: rest => do
    let (x, args) ← args.next?
    return (some (← integer? x), rest, args)
  | cs =>
    let ds := cs.takeWhile Text.isDigit
    some (if ds.isEmpty then none else some (Number.ofDigits ds), cs.dropWhile Text.isDigit, args)

/-- The precision in front of a pattern; a point alone is a precision of zero. -/
def takePrecision? (cs : List Char) (args : Arguments) : Option (Option Nat × Rest) :=
  match cs with
  | '.' :: rest => (takeNumber? rest args).map fun (n, rest) => (some (n.getD 0).toNat, rest)
  | cs => some (none, cs, args)

/-- The name in front of a pattern. -/
def takeArgumentName : List Char → Option String × List Char
  | '(' :: rest => (some (String.ofList (rest.takeWhile (· ≠ ')'))), (rest.dropWhile (· ≠ ')')).drop 1)
  | cs => (none, cs)

/-- A letter that says how long an argument is; it does not matter. -/
def dropLength : List Char → List Char
  | c :: rest => if c = 'h' || c = 'l' || c = 'L' then rest else c :: rest
  | [] => []

/-- The place behind a percent sign filled. -/
def fillPlace? (cs : List Char) (args : Arguments) : Option (List Char × Rest) := do
  let (name, cs) := takeArgumentName cs
  let flags := cs.takeWhile ("-+ #0".toList.contains ·)
  let (width, cs, args) ← takeNumber? (cs.dropWhile ("-+ #0".toList.contains ·)) args
  let width := width.getD 0
  let flags := if width < 0 then '-' :: flags else flags
  let (precision, cs, args) ← takePrecision? cs args
  match dropLength cs with
  | '%' :: rest => return (['%'], rest, args)
  | kind :: rest =>
    let (x, args) ← match name with
      | some name => (args.find? name).map (·, args)
      | none => args.next?
    let filled ← (Place.mk flags width.natAbs precision kind).argument? x
    return (filled, rest, args)
  | [] => none

/-- A pattern with its places filled; the first argument bounds the characters of the pattern. -/
def fill? : Nat → List Char → Arguments → Option (List Char)
  | _, [], args => if args.done then some [] else none
  | 0, _ :: _, _ => none
  | fuel + 1, '%' :: cs, args => do
    let (filled, rest, args) ← fillPlace? cs args
    return filled ++ (← fill? fuel rest args)
  | fuel + 1, c :: cs, args => (fill? fuel cs args).map (c :: ·)

/-- **The message of a pattern.**  Without arguments the pattern is the message. -/
def message? (pattern : String) (args : List Plain) : Option String :=
  if args.isEmpty then some pattern
  else (fill? pattern.length pattern.toList (.ofList args)).map String.ofList

end Journal

end SciCalc
