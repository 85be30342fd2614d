/-
  Data in JSON.

  The members of lists and objects are separated by a comma and a blank.  A text keeps all printable
  characters, or only those of ASCII; the others are written as `\uhhhh`, in two halves where sixteen bits
  are not enough.
-/
import SciCalc.Binary.Text
import SciCalc.Text.Blank
import SciCalc.Text.Quoted

namespace SciCalc

/-- Data to be written. -/
inductive Json where
  | null
  | boolean (b : Bool)
  | integer (n : Int)
  | double (x : Binary)
  | text (s : String)
  | list (xs : List Json)
  | object (fields : List (String × Json))
deriving Inhabited

namespace Json

/-- A number below `2 ^ 16` with four hexadecimal digits. -/
def unit (n : Nat) : List Char := '\\' :: 'u' :: Text.hex 4 n

/-- A character by its code. -/
def escaped (c : Char) : List Char :=
  if c.toNat < 0x10000 then unit c.toNat
  else
    let n := c.toNat - 0x10000
    unit (0xD800 + n / 0x400) ++ unit (0xDC00 + n % 0x400)

/-- A character within a text. -/
def char (ascii : Bool) (c : Char) : List Char :=
  if c = '"' || c = '\\' then ['\\', c]
  else if c = '\n' then ['\\', 'n']
  else if c = '\r' then ['\\', 'r']
  else if c = '\t' then ['\\', 't']
  else if c.toNat = 8 then ['\\', 'b']
  else if c.toNat = 12 then ['\\', 'f']
  else if c.toNat < 0x20 || (ascii && 0x7E < c.toNat) then escaped c
  else [c]

/-- A text between quotes. -/
def quoted (ascii : Bool) (s : String) : String :=
  String.ofList ('"' :: s.toList.flatMap (char ascii) ++ ['"'])

/-- A number with the fewest digits that read back. -/
def number : Binary → String
  | .nan => "NaN"
  | .infinite s => if s then "-Infinity" else "Infinity"
  | x => x.text .double

mutual

/-- The written form. -/
def write (ascii : Bool) : Json → String
  | null => "null"
  | boolean b => if b then "true" else "false"
  | integer n => Number.intText n
  | double x => number x
  | text s => quoted ascii s
  | list xs => "[" ++ Text.join ", " (writeList ascii xs) ++ "]"
  | object fields => "\x7b" ++ Text.join ", " (writeFields ascii fields) ++ "\x7d"

/-- The written forms of the members of a list. -/
def writeList (ascii : Bool) : List Json → List String
  | [] => []
  | x :: xs => x.write ascii :: writeList ascii xs

/-- The written forms of the fields of an object. -/
def writeFields (ascii : Bool) : List (String × Json) → List String
  | [] => []
  | (key, x) :: rest => (quoted ascii key ++ ": " ++ x.write ascii) :: writeFields ascii rest

end

end Json

end SciCalc
