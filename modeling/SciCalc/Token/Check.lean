/-
  A first check of tokens.

  Before tokens are put into postfix order, brackets are matched and operators that follow operators are
  looked for.  The check goes through all tokens and lists every problem.
-/
import SciCalc.Failure
import SciCalc.Operator.Basic
import SciCalc.Token.Basic

namespace SciCalc

namespace Token

/-- Why tokens cannot form an expression. -/
inductive CheckCause where
  | empty
  | unmatchedRight (position : Int)
  | consecutiveOperators (previous value : String) (position : Int)
  /-- So many left parentheses are not closed. -/
  | unmatchedLeft (count : Nat)
deriving DecidableEq

/-- A problem as an issue. -/
def CheckCause.issue : CheckCause → Issue
  | empty => StructuralCause.empty.issue
  | unmatchedRight position => (StructuralCause.unmatchedRight position).issue
  | consecutiveOperators previous value position =>
    ⟨"Consecutive operators '" ++ previous ++ "' and '" ++ value ++ "' at position "
        ++ Number.intText position, "CONSECUTIVE_OPERATORS", some position⟩
  | unmatchedLeft count =>
    ⟨"Unmatched left parenthesis (" ++ Number.natText count ++ " unclosed)", "UNMATCHED_LEFT_PAREN", none⟩

/-- An operator that cannot follow the token before it. -/
def followsOperator (t : Operators) (previous : Option Token) (token : Token) : Option CheckCause :=
  match previous with
  | some p =>
    if p.kind = .operator && token.kind = .operator && !t.canBeUnary token.value then
      some (.consecutiveOperators p.value token.value token.position)
    else none
  | none => none

/-- The problems of tokens, while `depth` parentheses are open. -/
def problemsFrom (t : Operators) : Nat → Option Token → List Token → List CheckCause
  | depth, _, [] => if 0 < depth then [.unmatchedLeft depth] else []
  | depth, previous, token :: rest =>
    match token.kind, depth with
    | .leftParen, depth => problemsFrom t (depth + 1) (some token) rest
    | .rightParen, 0 => .unmatchedRight token.position :: problemsFrom t 0 (some token) rest
    | .rightParen, depth + 1 => problemsFrom t depth (some token) rest
    | _, depth =>
      (followsOperator t previous token).toList ++ problemsFrom t depth (some token) rest

/-- **The problems of a row of tokens.** -/
def problems (t : Operators) (ts : List Token) : List CheckCause :=
  match ts.filter (!·.isFinish) with
  | [] => [.empty]
  | ts => problemsFrom t 0 none ts

end Token

end SciCalc
