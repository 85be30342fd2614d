/-
  Tokens in postfix order.

  An expression is rearranged so that every operator and every function follows its operands.  Operators
  and open parentheses wait in `pending` until what they apply to is complete; `operandDue` tells whether
  the next token has to begin an operand.  A parenthesis behind a function name opens a call, which counts
  its commas, so that the function leaves with the number of its arguments.

  A run over the tokens lists what it finds: problems of structure, and the calls that are closed.  The
  conversion fails with the first problem; the check turns everything found into issues, unless a message
  would tell an integer of too many digits.
-/
import SciCalc.Token.Basic
import SciCalc.Failure
import SciCalc.Vocabulary

namespace SciCalc

namespace Postfix

/-- What waits for its operands or its end. -/
inductive Pending where
  /-- An operator. -/
  | operator (token : Token)
  /-- An open parenthesis, the function it is a call of, and the commas so far. -/
  | paren (token : Token) (call : Option Token) (commas : Nat)
deriving DecidableEq

/-- Something found on the way. -/
inductive Finding where
  /-- The tokens do not form an expression. -/
  | problem (cause : StructuralCause)
  /-- A call of a function is closed. -/
  | call (name : String) (count : Nat) (position : Int)
deriving DecidableEq

/-- How far the rearrangement is. -/
structure State where
  /-- The tokens in postfix order so far, the last one first. -/
  output : List Token
  /-- What waits, the innermost first. -/
  pending : List Pending
  /-- The next token has to begin an operand. -/
  operandDue : Bool
  /-- The token before. -/
  previous : Option Token

/-- The state before the first token. -/
def State.initial : State := ⟨[], [], true, none⟩

/-- What a step finds and where it leads. -/
abbrev Step := List Finding × State

/-- A problem, if there is one. -/
def problemIf (b : Bool) (cause : StructuralCause) : List Finding := if b then [.problem cause] else []

/-- The number of open parentheses. -/
def depth : List Pending → Nat
  | [] => 0
  | .operator _ :: rest => depth rest
  | .paren .. :: rest => depth rest + 1

/-- The token before is of a kind. -/
def State.follows (s : State) (kind : TokenKind) : Bool :=
  match s.previous with
  | some t => t.kind = kind
  | none => false

/-- The waiting operators inside the innermost parenthesis leave. -/
def release (output : List Token) : List Pending → List Token × List Pending
  | .operator t :: rest => release (t :: output) rest
  | pending => (output, pending)

/-- A waiting operator binds its operand before a new operator does. -/
def bindsFirst (top incoming : Operator) : Bool :=
  incoming.precedence < top.precedence
    || (top.precedence = incoming.precedence && incoming.grouping = .left)

/-- The waiting operators that bind before a new one leave. -/
def releaseStronger (ops : Operators) (incoming : Operator) (output : List Token) :
    List Pending → List Token × List Pending
  | .operator t :: rest =>
    match ops.find? t.value with
    | some top =>
      if bindsFirst top incoming then releaseStronger ops incoming (t :: output) rest
      else (output, .operator t :: rest)
    | none => (output, .operator t :: rest)
  | pending => (output, pending)

/-! ## Steps -/

/-- An operand is complete with its token. -/
def onOperand (s : State) (t : Token) : Step :=
  (problemIf (!s.operandDue) (.missingOperator t.value t.position),
    { s with output := t :: s.output, operandDue := false })

/-- A function name waits at the parenthesis that has to follow it. -/
def onFunction (s : State) (t : Token) (next : Option Token) : Step :=
  let opens := next.any (·.kind = .leftParen)
  (problemIf (!s.operandDue) (.missingOperator t.value t.position)
      ++ problemIf (!opens) (.missingParenthesis t.value t.position),
    { s with operandDue := opens })

/-- A parenthesis opens a group, or a call if it follows a function name. -/
def onLeftParen (maxDepth : Int) (s : State) (t : Token) : Step :=
  let call := s.previous.filter (·.kind = .function)
  (problemIf (!s.operandDue) (.missingOperator "(" t.position)
      ++ problemIf (maxDepth ≤ depth s.pending) (.tooDeep maxDepth t.position),
    { s with pending := .paren t call 0 :: s.pending, operandDue := true })

/-- What is wrong with an operand that is missing in front of a right parenthesis. -/
def missingBeforeRight (s : State) (t : Token) : StructuralCause :=
  if s.follows .comma then .emptyArgument t.position
  else if s.follows .leftParen then .emptyParentheses t.position
  else .missingOperand ")" t.position

/-- A parenthesis closes the innermost group or call. -/
def onRightParen (s : State) (t : Token) : Step :=
  match release s.output s.pending with
  | (output, .paren _ call commas :: rest) =>
    let noArguments := call.isSome && s.follows .leftParen
    let found := problemIf (s.operandDue && !noArguments) (missingBeforeRight s t)
    match call with
    | some f =>
      let count := if noArguments then 0 else commas + 1
      (found ++ [.call f.value count f.position],
        { s with
          output := { f with argumentCount := some count } :: output
          pending := rest
          operandDue := false })
    | none => (found, { s with output := output, pending := rest, operandDue := false })
  | _ => ([.problem (.unmatchedRight t.position)], s)

/-- A comma separates the arguments of the innermost call. -/
def onComma (s : State) (t : Token) : Step :=
  match release s.output s.pending with
  | (output, .paren open? (some f) commas :: rest) =>
    (problemIf s.operandDue (.emptyArgument t.position),
      { s with
        output := output
        pending := .paren open? (some f) (commas + 1) :: rest
        operandDue := true })
  | _ => ([.problem (.commaOutsideCall t.position)], s)

/-- An operator where an operand is due is a prefix operator. -/
def onPrefix (ops : Operators) (s : State) (t : Token) : Step :=
  match ops.unary? t.value with
  | some o => ([], { s with pending := .operator { t with value := o.key } :: s.pending })
  | none =>
    ([.problem (if s.follows .operator then .consecutiveOperators t.position
        else .missingOperand t.value t.position)], s)

/-- An operator behind an operand is a binary operator. -/
def onBinary (ops : Operators) (s : State) (t : Token) : Step :=
  match ops.binary? t.value with
  | some incoming =>
    let (output, pending) := releaseStronger ops incoming s.output s.pending
    ([], { s with output := output, pending := .operator t :: pending, operandDue := true })
  | none => ([.problem (.notBinary t.value t.position)], { s with operandDue := true })

/-- The end may not come where an operand is due. -/
def onFinish (s : State) (t : Token) : List Finding :=
  problemIf s.operandDue
    (if s.follows .operator then .trailingOperator t.position else .unexpectedEnd t.position)

/-- The step over a token that is not the end. -/
def step (ops : Operators) (maxDepth : Int) (s : State) (t : Token) (next : Option Token) : Step :=
  match t.kind with
  | .function => onFunction s t next
  | .leftParen => onLeftParen maxDepth s t
  | .rightParen => onRightParen s t
  | .comma => onComma s t
  | .operator => if s.operandDue then onPrefix ops s t else onBinary ops s t
  | _ => onOperand s t

/-! ## The run -/

/-- What waits after the last token: operators leave, open parentheses are problems. -/
def finish (output : List Token) : List Pending → List Finding × List Token
  | [] => ([], output.reverse)
  | .operator t :: rest => finish (t :: output) rest
  | .paren t _ _ :: rest =>
    let (found, tokens) := finish output rest
    (.problem (.unmatchedLeft t.position) :: found, tokens)

/-- The run over tokens from a state on. -/
def runFrom (ops : Operators) (maxDepth : Int) : State → List Token → List Finding × List Token
  | s, [] => finish s.output s.pending
  | s, t :: rest =>
    if t.isFinish then
      let (found, tokens) := finish s.output s.pending
      (onFinish s t ++ found, tokens)
    else
      let (found, s') := step ops maxDepth s t rest.head?
      let (more, tokens) := runFrom ops maxDepth { s' with previous := some t } rest
      (found ++ more, tokens)

/-- The run over a row of tokens: what it finds, and the tokens in postfix order. -/
def run (ops : Operators) (maxDepth : Int) (ts : List Token) : List Finding × List Token :=
  if ts.head?.all (·.isFinish) then ([.problem .empty], [])
  else runFrom ops maxDepth .initial ts

/-- The first problem of structure found. -/
def firstProblem? (found : List Finding) : Option StructuralCause :=
  found.findSome? fun
    | .problem cause => some cause
    | .call .. => none

/-- **The tokens in postfix order**, or the first problem of structure. -/
def ofTokens (ops : Operators) (maxDepth : Int) (ts : List Token) :
    Except StructuralCause (List Token) :=
  let (found, tokens) := run ops maxDepth ts
  match firstProblem? found with
  | some cause => .error cause
  | none => .ok tokens

/-! ## The check -/

/-- A finding as an issue; a call that fits its function is none. -/
def Finding.issue? (functions : Option Registry) : Finding → Option Issue
  | .problem cause => some cause.issue
  | .call name count position =>
    match functions with
    | none => none
    | some r =>
      (r.checkCall name count).bind fun failure =>
        failure.report?.map fun report => { report.issue with position := some position }

/-- All problems of structure, and the calls that do not fit their functions. -/
def issues (v : Vocabulary) (maxDepth : Int) (ts : List Token) : List Issue :=
  (run v.operators maxDepth ts).1.filterMap (Finding.issue? v.functions)

/-- The failure that tells of a finding; none tells of a call that fits its function. -/
def Finding.failure? (functions : Option Registry) : Finding → Option Failure
  | .problem cause => some cause.failure
  | .call name count _ => functions.bind fun r => r.checkCall name count

/-- What comes of a message that cannot be told. -/
def Finding.untold? (functions : Option Registry) (f : Finding) : Option Failure :=
  (f.failure? functions).filter (·.report?.isNone)

/-- What comes of the first message that cannot be told. -/
def firstUntold? (functions : Option Registry) (found : List Finding) : Option Failure :=
  found.findSome? (Finding.untold? functions)

/-- **The check of a row of tokens**, which ends with all issues or fails with a message that cannot be
    told. -/
def validate (v : Vocabulary) (maxDepth : Int) (ts : List Token) : Except Failure (List Issue) :=
  match firstUntold? v.functions (run v.operators maxDepth ts).1 with
  | some failure => .error failure
  | none => .ok (issues v maxDepth ts)

end Postfix

end SciCalc
