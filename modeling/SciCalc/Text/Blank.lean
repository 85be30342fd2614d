/-
  Blank characters, trimming and words.

  Blank are the characters of the Unicode property White_Space and the four separators U+001C to U+001F.
  Between tokens of an expression blanks mean nothing; a command line is split into words at them.
-/
import SciCalc.Text.Ranges

namespace SciCalc.Text

/-- The blank characters. -/
def blankRanges : List (Nat × Nat) :=
  [(0x9, 0xD), (0x1C, 0x20), (0x85, 0x85), (0xA0, 0xA0), (0x1680, 0x1680), (0x2000, 0x200A),
   (0x2028, 0x2029), (0x202F, 0x202F), (0x205F, 0x205F), (0x3000, 0x3000)]

/-- A character that separates words. -/
def isBlank (c : Char) : Bool := inRanges blankRanges c.toNat

/-- The text without its leading blanks. -/
def trimLeft (cs : List Char) : List Char := cs.dropWhile isBlank

/-- The text without its trailing blanks. -/
def trimRight (cs : List Char) : List Char := (cs.reverse.dropWhile isBlank).reverse

/-- The text without the blanks around it. -/
def trimChars (cs : List Char) : List Char := trimRight (trimLeft cs)

/-- The text without the blanks around it. -/
def trim (s : String) : String := String.ofList (trimChars s.toList)

/-- The maximal runs of characters that are not blank; `word` is the run being read, in reverse. -/
def wordsFrom (word : List Char) : List Char → List (List Char)
  | [] => if word.isEmpty then [] else [word.reverse]
  | c :: rest =>
    if isBlank c then
      if word.isEmpty then wordsFrom [] rest else word.reverse :: wordsFrom [] rest
    else wordsFrom (c :: word) rest

/-- The words of a line. -/
def words (s : String) : List String := (wordsFrom [] s.toList).map String.ofList

/-- What follows the first word of a line and the blanks after it. -/
def afterFirstWord (s : String) : String :=
  String.ofList (trimLeft ((trimLeft s.toList).dropWhile (!isBlank ·)))

/-- The pieces between the separators `sep`; `piece` is the piece being read, in reverse. -/
def splitFrom (sep : Char) (piece : List Char) : List Char → List (List Char)
  | [] => [piece.reverse]
  | c :: rest =>
    if c = sep then piece.reverse :: splitFrom sep [] rest else splitFrom sep (c :: piece) rest

/-- The pieces of a text between the separators `sep`, empty pieces included. -/
def splitAt (sep : Char) (s : String) : List String := (splitFrom sep [] s.toList).map String.ofList

/-- The lines of a text; a line feed at its end begins no further line. -/
def lines (s : String) : List String :=
  let pieces := splitAt '\n' s
  if pieces.getLast? = some "" then pieces.dropLast else pieces

/-- The texts with `sep` between them. -/
def join (sep : String) : List String → String
  | [] => ""
  | [s] => s
  | s :: t :: rest => s ++ sep ++ join sep (t :: rest)

end SciCalc.Text
