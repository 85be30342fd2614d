/-
  Plain objects written in JSON.

  A number without a point and an exponent is an integer, and any other one a double.  Beyond the standard,
  `NaN` and the infinities are doubles.  A character outside the first 65536 may be written as two escapes;
  half of such a pair stands for the replacement character.
-/
import SciCalc.Plain
import SciCalc.Text.Json

namespace SciCalc.Plain

/-- The number that four hexadecimal digits write, and the rest. -/
def takeCode (cs : List Char) : Nat × List Char :=
  ((cs.take 4).foldl (fun n c => 16 * n + Text.hexValue c) 0, cs.drop 4)

/-- The character behind `\u`, and the rest. -/
def takeEscaped (cs : List Char) : Char × List Char :=
  let (n, rest) := takeCode cs
  if 0xD800 ≤ n && n < 0xDC00 then
    match rest with
    | '\\' :: 'u' :: rest' =>
      let (m, rest'') := takeCode rest'
      if 0xDC00 ≤ m && m < 0xE000 then
        (Char.ofNat (0x10000 + (n - 0xD800) * 0x400 + (m - 0xDC00)), rest'')
      else (Char.ofNat 0xFFFD, rest)
    | _ => (Char.ofNat 0xFFFD, rest)
  else if 0xDC00 ≤ n && n < 0xE000 then (Char.ofNat 0xFFFD, rest)
  else (Char.ofNat n, rest)

/-- What letters behind a backslash stand for; other characters stand for themselves. -/
def escapes : List (Char × Char) :=
  [('n', '\n'), ('t', '\t'), ('r', '\r'), ('b', Char.ofNat 8), ('f', Char.ofNat 12)]

/-- The text up to the closing quote, and the rest; the fuel bounds its length. -/
def takeText : Nat → List Char → List Char → Option (String × List Char)
  | 0, _, _ => Option.none
  | fuel + 1, acc, cs =>
    match cs with
    | '"' :: rest => some (String.ofList acc.reverse, rest)
    | '\\' :: 'u' :: rest =>
      let (c, rest) := takeEscaped rest
      takeText fuel (c :: acc) rest
    | '\\' :: c :: rest => takeText fuel ((escapes.lookup c).getD c :: acc) rest
    | c :: rest => takeText fuel (c :: acc) rest
    | [] => Option.none

/-- A character of a number. -/
def isNumberChar (c : Char) : Bool :=
  ('0' ≤ c && c ≤ '9') || c = '-' || c = '+' || c = '.' || c = 'e' || c = 'E'

/-- The number that such characters write. -/
def ofNumberChars? (cs : List Char) : Option Plain :=
  if cs.any fun c => c = '.' || c = 'e' || c = 'E' then
    (Double.read? (String.ofList cs)).map double
  else
    match cs with
    | '-' :: ds => some (integer (-(Number.ofDigits ds : Int)))
    | ds => some (integer (Number.ofDigits ds))

/-- The text without the blanks in front of it. -/
def skipBlanks (cs : List Char) : List Char :=
  cs.dropWhile fun c => c = ' ' || c = '\n' || c = '\t' || c = '\r'

mutual

/-- The object in front of a text, and the rest; the fuel bounds the characters read. -/
def take : Nat → List Char → Option (Plain × List Char)
  | 0, _ => Option.none
  | fuel + 1, cs =>
    match skipBlanks cs with
    | '"' :: rest => (takeText fuel [] rest).map fun (s, rest) => (text s, rest)
    | '[' :: rest =>
      match skipBlanks rest with
      | ']' :: rest => some (list [], rest)
      | rest => takeMembers fuel [] rest
    | '\x7b' :: rest =>
      match skipBlanks rest with
      | '\x7d' :: rest => some (record [], rest)
      | rest => takeFields fuel [] rest
    | 't' :: 'r' :: 'u' :: 'e' :: rest => some (boolean true, rest)
    | 'f' :: 'a' :: 'l' :: 's' :: 'e' :: rest => some (boolean false, rest)
    | 'n' :: 'u' :: 'l' :: 'l' :: rest => some (none, rest)
    | 'N' :: 'a' :: 'N' :: rest => some (double .nan, rest)
    | 'I' :: rest => some (double (.infinite false), rest.drop 7)
    | '-' :: 'I' :: rest => some (double (.infinite true), rest.drop 7)
    | cs => (ofNumberChars? (cs.takeWhile isNumberChar)).map fun p => (p, cs.dropWhile isNumberChar)

/-- The members of a list up to its end, and the rest. -/
def takeMembers : Nat → List Plain → List Char → Option (Plain × List Char)
  | 0, _, _ => Option.none
  | fuel + 1, acc, cs => do
    let (p, rest) ← take fuel cs
    match skipBlanks rest with
    | ',' :: rest => takeMembers fuel (p :: acc) rest
    | ']' :: rest => some (list (p :: acc).reverse, rest)
    | _ => Option.none

/-- The fields of a record up to its end, and the rest. -/
def takeFields : Nat → List (String × Plain) → List Char → Option (Plain × List Char)
  | 0, _, _ => Option.none
  | fuel + 1, acc, cs => do
    match skipBlanks cs with
    | '"' :: rest =>
      let (key, rest) ← takeText fuel [] rest
      match skipBlanks rest with
      | ':' :: rest =>
        let (p, rest) ← take fuel rest
        match skipBlanks rest with
        | ',' :: rest => takeFields fuel ((key, p) :: acc) rest
        | '\x7d' :: rest => some (record ((key, p) :: acc).reverse, rest)
        | _ => Option.none
      | _ => Option.none
    | _ => Option.none

end

/-! ## Writing -/

mutual

/-- An object in JSON.  What JSON has no form for is null. -/
def toJson : Plain → Json
  | boolean b => .boolean b
  | integer n => .integer n
  | double x => .double x
  | text s => .text s
  | list ps => .list (toJsons ps)
  | record fields => .object (toJsonFields fields)
  | _ => .null

/-- The members of a list in JSON. -/
def toJsons : List Plain → List Json
  | [] => []
  | p :: ps => p.toJson :: toJsons ps

/-- The fields of a record in JSON. -/
def toJsonFields : List (String × Plain) → List (String × Json)
  | [] => []
  | (key, p) :: rest => (key, p.toJson) :: toJsonFields rest

end

/-! ## Reading a text -/

/-- **The object that a text writes in JSON**, if it starts with one.  Every step takes a character, so
    the length of the text is fuel enough. -/
def ofJson? (s : String) : Option Plain :=
  let cs := s.toList
  (take (cs.length + 1) cs).map (·.1)

end SciCalc.Plain
