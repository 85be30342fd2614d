/-
  Valid names.

  A variable, a function, an alias and a parameter are named by an ASCII letter or underscore followed by
  ASCII letters, digits and underscores.  One line feed at the very end is overlooked.
-/
import SciCalc.Text.Numeral

namespace SciCalc.Text

/-- An ASCII letter or an underscore. -/
def isNameStart (c : Char) : Bool := isAsciiLetter c || c = '_'

/-- An ASCII letter, an ASCII digit or an underscore. -/
def isNamePart (c : Char) : Bool := isNameStart c || isDigit c

/-- Name characters up to the end of the text or to a line feed that ends it. -/
def isNameTail : List Char → Bool
  | [] => true
  | [c] => isNamePart c || c = '\n'
  | c :: rest => isNamePart c && isNameTail rest

/-- The text is a valid name. -/
def isValidName (s : String) : Bool :=
  match s.toList with
  | [] => false
  | c :: rest => isNameStart c && isNameTail rest

end SciCalc.Text
