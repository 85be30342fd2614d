/-
  Evaluation of tokens in postfix order.

  A stack holds the values that are not used yet: an operand is pushed, an operator or a function takes its
  operands from the top and leaves its result, brought into the active regime.  The tokens have a value if
  exactly one is left.  A function that was defined by an expression evaluates that expression with its
  arguments bound to the parameters.  The expression sees these and the calculator's variables, and nothing
  of what its caller has bound; only so many of these calls can be active at once.
-/
import SciCalc.Bindings
import SciCalc.Function.Rules
import SciCalc.Operator.Rules
import SciCalc.Vocabulary

namespace SciCalc

/-- What an evaluation depends on. -/
structure Environment where
  /-- The operators and functions. -/
  vocabulary : Vocabulary
  /-- The modes. -/
  modes : Modes
  /-- The variables of the calculator. -/
  bindings : Bindings
  /-- The names bound for this evaluation alone; they hide variables. -/
  scope : Bindings
  /-- The number of the first draw of a random number. -/
  draw : Nat

/-- How a function is applied to values; the number is that of the draw of a random number. -/
abbrev Caller := Function → Nat → List Value → Except Failure Value

/-- The values that wait, the last one first, and the number of operations so far. -/
structure Machine where
  /-- The values. -/
  stack : List Value
  /-- The operations. -/
  operations : Nat

/-- The result of an evaluation. -/
structure Outcome where
  /-- The value. -/
  value : Value
  /-- How many operators and functions were applied. -/
  operations : Nat
deriving DecidableEq

namespace Evaluation

/-- The machine before the first token. -/
def start : Machine := ⟨[], 0⟩

/-- Pushes an operand. -/
def push (s : Machine) (v : Value) : Machine := { s with stack := v :: s.stack }

/-- Pushes the result of an operation that used the values not in `rest`. -/
def pushResult (m : Modes) (s : Machine) (rest : List Value) (v : Value) : Except Failure Machine := do
  return ⟨(← m.normalize v) :: rest, s.operations + 1⟩

/-- The value of a constant in the active regime. -/
def constantValue (m : Modes) (name : String) : Except Failure Value := do
  match Constant.find? name with
  | none => .error (.unknown .constant name)
  | some c => m.normalize (← c.toValue (if m.regime = .decimal then some m.context else none))

/-- What a name is bound to. -/
def lookup (env : Environment) (name : String) : Option Value :=
  (env.scope.find? name).orElse fun _ => env.bindings.find? name

/-- The value of a variable in the active regime. -/
def variableValue (env : Environment) (name : String) : Except Failure Value :=
  match lookup env name with
  | none => .error (.unknown .variable name)
  | some v => env.modes.normalize v

/-- The number of arguments of a call: the recorded one, or the fixed number that the function takes. -/
def argumentCount (f : Function) (recorded : Option Int) : Except Failure Int :=
  match recorded, f.arity with
  | some n, _ => .ok n
  | none, .exactly n => .ok n
  | none, .variadic => .error (.arity (.unknownCount f.name))

/-- Applies a function to the values on top of the stack. -/
def applyFunction (call : Caller) (env : Environment) (s : Machine) (t : Token) :
    Except Failure Machine := do
  match env.vocabulary.function? t.value with
  | none => .error (.unknown .function t.value)
  | some f =>
    let n ← argumentCount f t.argumentCount
    match f.arityProblem? n with
    | some failure => .error failure
    | none =>
      if (s.stack.length : Int) < n then .error (.structural (.functionUnderflow f.name t.position))
      else
        let count := n.toNat
        let v ← call f (env.draw + s.operations) (s.stack.take count).reverse
        pushResult env.modes s (s.stack.drop count) v

/-- Applies an operator to the values on top of the stack.  Two operands are brought to one kind first. -/
def applyOperator (env : Environment) (s : Machine) (t : Token) : Except Failure Machine := do
  match env.vocabulary.operators.find? t.value with
  | none => .error (.unknown .operator t.value)
  | some o =>
    match o.rule, s.stack with
    | .unary rule, v :: rest => pushResult env.modes s rest (← rule.apply v)
    | .binary rule, w :: v :: rest =>
      pushResult env.modes s rest (← rule.apply env.modes (← Value.promote v w))
    | _, _ => .error (.structural (.operatorUnderflow o.symbol t.position))

/-- The step over one token. -/
def step (call : Caller) (env : Environment) (s : Machine) (t : Token) : Except Failure Machine := do
  match t.kind with
  | .number => return push s (← env.modes.literal t.value)
  | .constant => return push s (← constantValue env.modes t.value)
  | .variable => return push s (← variableValue env t.value)
  | .function => applyFunction call env s t
  | .operator => applyOperator env s t
  | _ => .error (.structural (.unexpectedToken t.value t.position))

/-- The steps over a row of tokens. -/
def run (call : Caller) (env : Environment) : Machine → List Token → Except Failure Machine
  | s, [] => .ok s
  | s, t :: rest =>
    match step call env s t with
    | .error failure => .error failure
    | .ok s' => run call env s' rest

/-- The result, if exactly one value is left. -/
def finish (s : Machine) : Except Failure Outcome :=
  match s.stack with
  | [v] => .ok ⟨v, s.operations⟩
  | vs => .error (.structural (.leftover vs.length))

/-- The result of tokens in postfix order, given how functions are applied.  Faults of plain arithmetic
    become failures of the evaluation. -/
def evaluateWith (call : Caller) (env : Environment) (ts : List Token) : Except Failure Outcome :=
  match run call env start ts with
  | .error failure => .error failure.translated
  | .ok s => finish s

/-! ## Calls -/

/-- The environment inside a call: the parameters are bound to the arguments, and no other name is bound
    besides the variables. -/
def enter (env : Environment) (parameters : List String) (args : List Value) (draw : Nat) : Environment :=
  { env with
    scope := parameters.zip args
    draw := scramble draw }

/-- How functions are applied while so many more calls of defined functions may be active. -/
def callAt : Nat → Environment → Caller
  | allowance, env, f, draw, args =>
    match f.implementation, allowance with
    | .builtin rule, _ => rule.apply env.modes draw args
    | .host call, _ => do (← call (args.map (·.toPlain))).toValue env.modes.precision
    | .defined name _ _, 0 => .error (.structural (.recursionTooDeep name))
    | .defined _ parameters body, allowance + 1 =>
      let inner := enter env parameters args draw
      match evaluateWith (callAt allowance inner) inner body with
      | .ok outcome => .ok outcome.value
      | .error failure => .error failure

end Evaluation

/-- How functions are applied. -/
def Environment.call (env : Environment) : Caller := Evaluation.callAt Limit.nesting env

/-- **The value of tokens in postfix order**, and the number of operations. -/
def Environment.evaluate (env : Environment) (ts : List Token) : Except Failure Outcome :=
  Evaluation.evaluateWith env.call env ts

end SciCalc
