/-
  Texts within texts.
-/
namespace SciCalc.Text

/-- The row of characters begins somewhere in the other one. -/
def hasInfixChars (needle : List Char) : List Char → Bool
  | [] => needle.isEmpty
  | c :: rest => needle.isPrefixOf (c :: rest) || hasInfixChars needle rest

/-- The first text is part of the second one. -/
def hasInfix (needle s : String) : Bool := hasInfixChars needle.toList s.toList

example : hasInfix "sin" "cosine" = true := by decide

end SciCalc.Text
