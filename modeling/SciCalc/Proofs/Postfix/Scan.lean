/-
  Rearranging with two stacks.

  The conversion and the check as one scan over a stack of tokens and a stack of frames, one frame for each
  open parenthesis.  Function names and parentheses wait on the stack of tokens; that the two stacks belong
  together is nowhere said and has to be proved.  A scan that raises stops at the first problem, and one
  that collects notes it down and goes on; both can stop at a message that cannot be told, and at a stack
  that is empty.
-/
import SciCalc.Postfix.Basic

namespace SciCalc.Postfix

/-- An open parenthesis, whether it belongs to a call, and the commas so far. -/
structure Frame where
  paren : Token
  isCall : Bool
  commas : Nat

/-- Why a scan stops. -/
inductive Halt where
  /-- A failure is raised. -/
  | raised (failure : Failure)
  /-- A token is taken from an empty stack. -/
  | emptyStack

/-- How far a scan is. -/
structure Scan where
  /-- The tokens in postfix order so far, the last one first. -/
  output : List Token
  /-- The tokens that wait, the top first. -/
  stack : List Token
  /-- The open parentheses, the innermost first. -/
  frames : List Frame
  /-- The next token has to begin an operand. -/
  operandDue : Bool
  /-- The token before. -/
  previous : Option Token
  /-- The issues so far, where problems are collected. -/
  issues : Option (List Issue)

namespace Scan

/-! ## Reports -/

/-- The state before the first token. -/
def start (issues : Option (List Issue)) : Scan := ⟨[], [], [], true, none, issues⟩

/-- The token before is of a kind. -/
def follows (c : Scan) (kind : TokenKind) : Bool :=
  match c.previous with
  | some t => t.kind = kind
  | none => false

/-- A failure is noted down as an issue at a place, or raised if its message cannot be told. -/
def collect (c : Scan) (is : List Issue) (failure : Failure) (position : Option Int) : Except Halt Scan :=
  match failure.report? with
  | some r => .ok { c with issues := some (is ++ [{ r.issue with position := position }]) }
  | none => .error (.raised failure)

/-- A problem is raised or noted down. -/
def report (c : Scan) (cause : StructuralCause) : Except Halt Scan :=
  match c.issues with
  | none => .error (.raised cause.failure)
  | some is => c.collect is cause.failure cause.position

/-- A problem is reported if there is one. -/
def reportIf (c : Scan) (b : Bool) (cause : StructuralCause) : Except Halt Scan :=
  if b then c.report cause else .ok c

/-- Where problems are collected, a closed call is checked against its function. -/
def checkCall (c : Scan) (functions : Option Registry) (f : Token) (count : Nat) : Except Halt Scan :=
  match c.issues with
  | none => .ok c
  | some is =>
    match functions.bind fun r => r.checkCall f.value count with
    | none => .ok c
    | some failure => c.collect is failure f.position

/-! ## Stacks -/

/-- Takes the top of the stack. -/
def pop (c : Scan) : Except Halt (Token × Scan) :=
  match c.stack with
  | [] => .error .emptyStack
  | t :: rest => .ok (t, { c with stack := rest })

/-- Tokens go from the stack to the output down to a left parenthesis. -/
def unwind (output : List Token) : List Token → List Token × List Token
  | [] => (output, [])
  | t :: rest => if t.kind = .leftParen then (output, t :: rest) else unwind (t :: output) rest

/-- Operators that bind before a new one go from the stack to the output. -/
def unwindStronger (ops : Operators) (incoming : Operator) (output : List Token) :
    List Token → List Token × List Token
  | [] => (output, [])
  | t :: rest =>
    if t.kind = .operator then
      match ops.find? t.value with
      | none => (output, t :: rest)
      | some top =>
        if bindsFirst top incoming then unwindStronger ops incoming (t :: output) rest
        else (output, t :: rest)
    else (output, t :: rest)

/-! ## Steps -/

/-- An operand goes to the output. -/
def onOperand (c : Scan) (t : Token) : Except Halt Scan := do
  let c ← c.reportIf (!c.operandDue) (.missingOperator t.value t.position)
  return { c with output := t :: c.output, operandDue := false }

/-- A function name waits if a left parenthesis follows. -/
def onFunction (c : Scan) (t : Token) (next : Option Token) : Except Halt Scan := do
  let c ← c.reportIf (!c.operandDue) (.missingOperator t.value t.position)
  if next.any (·.kind = .leftParen) then
    return { c with stack := t :: c.stack, operandDue := true }
  else
    let c ← c.report (.missingParenthesis t.value t.position)
    return { c with operandDue := false }

/-- A left parenthesis opens a frame.  It belongs to a call if the token before is a function name and lies
    on top of the stack. -/
def onLeftParen (maxDepth : Int) (c : Scan) (t : Token) : Except Halt Scan := do
  let c ← c.reportIf (!c.operandDue) (.missingOperator "(" t.position)
  let c ← c.reportIf (maxDepth ≤ c.frames.length) (.tooDeep maxDepth t.position)
  let isCall := c.follows .function && c.stack.head? = c.previous
  return { c with frames := ⟨t, isCall, 0⟩ :: c.frames, stack := t :: c.stack, operandDue := true }

/-- What is wrong with an operand that is missing in front of a right parenthesis. -/
def missingBeforeRight (c : Scan) (t : Token) : StructuralCause :=
  if c.follows .comma then .emptyArgument t.position
  else if c.follows .leftParen then .emptyParentheses t.position
  else .missingOperand ")" t.position

/-- Closes a frame: the tokens above its left parenthesis go to the output, the parenthesis is taken from the
    stack, and for a call the function name below it. -/
def close (functions : Option Registry) (c : Scan) (frame : Frame) (emptyCall : Bool) :
    Except Halt Scan := do
  let (output, stack) := unwind c.output c.stack
  let (_, c) ← pop { c with output := output, stack := stack }
  if frame.isCall then
    let (f, c) ← c.pop
    let count := if emptyCall then 0 else frame.commas + 1
    let c ← c.checkCall functions f count
    return { c with
      output := { f with argumentCount := some (count : Int) } :: c.output
      operandDue := false }
  else
    return { c with operandDue := false }

/-- A right parenthesis closes the innermost frame. -/
def onRightParen (functions : Option Registry) (c : Scan) (t : Token) : Except Halt Scan :=
  match c.frames with
  | [] => c.report (.unmatchedRight t.position)
  | frame :: frames => do
    let emptyCall := frame.isCall && c.follows .leftParen
    let c ← { c with frames := frames }.reportIf (c.operandDue && !emptyCall) (c.missingBeforeRight t)
    c.close functions frame emptyCall

/-- A comma ends an argument of the innermost frame, which has to be that of a call. -/
def onComma (c : Scan) (t : Token) : Except Halt Scan :=
  match c.frames with
  | ⟨paren, true, commas⟩ :: frames => do
    let c ← c.reportIf c.operandDue (.emptyArgument t.position)
    let (output, stack) := unwind c.output c.stack
    return { c with
      output := output
      stack := stack
      frames := ⟨paren, true, commas + 1⟩ :: frames
      operandDue := true }
  | _ => c.report (.commaOutsideCall t.position)

/-- An operator where an operand is due is a prefix operator. -/
def onPrefix (ops : Operators) (c : Scan) (t : Token) : Except Halt Scan :=
  match ops.unary? t.value with
  | some o => return { c with stack := { t with value := o.key } :: c.stack }
  | none =>
    c.report (if c.follows .operator then .consecutiveOperators t.position
      else .missingOperand t.value t.position)

/-- An operator behind an operand is a binary operator. -/
def onBinary (ops : Operators) (c : Scan) (t : Token) : Except Halt Scan :=
  match ops.binary? t.value with
  | some incoming =>
    let (output, stack) := unwindStronger ops incoming c.output c.stack
    return { c with output := output, stack := t :: stack, operandDue := true }
  | none => do
    let c ← c.report (.notBinary t.value t.position)
    return { c with operandDue := true }

/-- The step over a token that is not the end. -/
def step (v : Vocabulary) (maxDepth : Int) (c : Scan) (t : Token) (next : Option Token) :
    Except Halt Scan :=
  match t.kind with
  | .function => c.onFunction t next
  | .leftParen => c.onLeftParen maxDepth t
  | .rightParen => c.onRightParen v.functions t
  | .comma => c.onComma t
  | .operator => if c.operandDue then c.onPrefix v.operators t else c.onBinary v.operators t
  | _ => c.onOperand t

/-- The step over a token, which is then the token before. -/
def advance (v : Vocabulary) (maxDepth : Int) (c : Scan) (t : Token) (next : Option Token) :
    Except Halt Scan := do
  let c ← c.step v maxDepth t next
  return { c with previous := some t }

/-- The end may not come where an operand is due. -/
def onFinish (c : Scan) (t : Token) : Except Halt Scan :=
  c.reportIf c.operandDue
    (if c.follows .operator then .trailingOperator t.position else .unexpectedEnd t.position)

/-! ## The run -/

/-- The steps over tokens up to the end. -/
def loop (v : Vocabulary) (maxDepth : Int) : Scan → List Token → Except Halt Scan
  | c, [] => .ok c
  | c, t :: rest =>
    if t.isFinish then c.onFinish t
    else do
      let c ← c.advance v maxDepth t rest.head?
      loop v maxDepth c rest

/-- What waits at the end: operators go to the output, open parentheses are reported, and function names
    are dropped. -/
def drain (c : Scan) : List Token → Except Halt Scan
  | [] => .ok c
  | t :: rest =>
    if t.kind = .leftParen then do
      let c ← c.report (.unmatchedLeft t.position)
      drain c rest
    else if t.kind = .operator then drain { c with output := t :: c.output } rest
    else drain c rest

/-- The scan over a row of tokens. -/
def run (v : Vocabulary) (maxDepth : Int) (issues : Option (List Issue)) (ts : List Token) :
    Except Halt Scan :=
  if ts.head?.all (·.isFinish) then (start issues).report .empty
  else do
    let c ← loop v maxDepth (start issues) ts
    drain c c.stack

/-- The tokens in postfix order, the scan raising the first problem. -/
def parse (v : Vocabulary) (maxDepth : Int) (ts : List Token) : Except Halt (List Token) :=
  (run v maxDepth none ts).map (·.output.reverse)

/-- All issues, the scan collecting them. -/
def validate (v : Vocabulary) (maxDepth : Int) (ts : List Token) : Except Halt (List Issue) :=
  (run v maxDepth (some []) ts).map (·.issues.getD [])

/-! ## Reaching -/

/-- The scan over `before`, with the rest of the tokens behind it, comes to a state. -/
inductive Reaches (v : Vocabulary) (maxDepth : Int) (issues : Option (List Issue)) :
    List Token → Scan → List Token → Prop where
  | start (ts : List Token) : Reaches v maxDepth issues [] (start issues) ts
  | step {before : List Token} {c c' : Scan} {t : Token} {rest : List Token} :
      Reaches v maxDepth issues before c (t :: rest) → t.isFinish = false →
      c.advance v maxDepth t rest.head? = .ok c' →
      Reaches v maxDepth issues (before ++ [t]) c' rest

end Scan

end SciCalc.Postfix
