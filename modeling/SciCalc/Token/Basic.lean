/-
  Tokens.

  An expression is a row of tokens.  A token remembers where it begins, counted in characters, and in
  postfix order a function remembers how many arguments it is called with.
-/
import SciCalc.Number.Digits
import SciCalc.Text.Blank

namespace SciCalc

/-- The kinds of tokens. -/
inductive TokenKind where
  | number
  | function
  | constant
  | variable
  | operator
  | leftParen
  | rightParen
  | comma
  /-- The end of the expression. -/
  | finish
deriving DecidableEq, Inhabited

/-- The name of a kind. -/
def TokenKind.name : TokenKind → String
  | number => "Number"
  | function => "Function"
  | constant => "Constant"
  | .variable => "Variable"
  | operator => "Operator"
  | leftParen => "LeftParen"
  | rightParen => "RightParen"
  | comma => "Comma"
  | finish => "EndOfInput"

/-- The kinds. -/
def TokenKind.all : List TokenKind :=
  [number, function, constant, .variable, operator, leftParen, rightParen, comma, finish]

/-- A token. -/
structure Token where
  /-- What the token is. -/
  kind : TokenKind
  /-- Its text; for a prefix operator in postfix order, the key of the operator. -/
  value : String
  /-- Where it begins. -/
  position : Int
  /-- How many arguments a function in postfix order is called with, if that is known. -/
  argumentCount : Option Int
deriving DecidableEq, Inhabited

namespace Token

/-- The token is the end of the expression. -/
def isFinish (t : Token) : Bool := t.kind = .finish

/-- The tokens with single blanks between them, without the end. -/
def render (ts : List Token) : String := Text.join " " ((ts.filter (!·.isFinish)).map (·.value))

/-- A token in postfix order: a function is written with its argument count. -/
def described (t : Token) : String :=
  if t.kind = .function then
    t.value ++ "/" ++ (match t.argumentCount with
      | some n => Number.intText n
      | none => "None")
  else t.value

/-- Tokens in postfix order with single blanks between them. -/
def describe (ts : List Token) : String := Text.join " " (ts.map described)

end Token

end SciCalc
