/-
  The calculator.

  A calculator has modes, operators, functions and variables; it remembers the last successful calculations
  and counts all of them.  A calculation never fails to give a result: what goes wrong is told in it.
-/
import SciCalc.Calculator.Result
import SciCalc.Evaluation.Basic
import SciCalc.Postfix.Basic
import SciCalc.Token.Check
import SciCalc.Token.Lexer

namespace SciCalc

/-- A calculator. -/
structure Calculator where
  /-- The modes. -/
  modes : Modes
  /-- The operators. -/
  operators : Operators
  /-- The functions. -/
  functions : Registry
  /-- The variables. -/
  bindings : Bindings
  /-- The remembered calculations, the oldest first. -/
  history : List HistoryEntry
  /-- How many calculations are remembered. -/
  historySize : Nat
  /-- The last successful result. -/
  lastResult : Option CalculationResult
  /-- The number of calculations. -/
  calculations : Nat
  /-- The number of successes. -/
  succeeded : Nat
  /-- The number of failures. -/
  failed : Nat

namespace Calculator

/-- A new calculator that remembers so many calculations. -/
def new (historySize : Nat) : Calculator :=
  ⟨.initial, .calculator, .builtins, [], [], historySize, none, 0, 0, 0⟩

/-- The vocabulary of expressions. -/
def vocabulary (c : Calculator) : Vocabulary := ⟨c.operators, some c.functions⟩

/-- What an evaluation depends on. -/
def environment (c : Calculator) : Environment :=
  ⟨c.vocabulary, c.modes, c.bindings, [], 1000003 * c.calculations⟩

/-! ## From a text to a value -/

/-- The tokens of an expression. -/
def tokens (c : Calculator) (expression : Plain) : Except LexicalCause (List Token) :=
  Token.ofPlain c.vocabulary c.modes.complexEnabled Limit.inputLength expression

/-- Tokens in postfix order. -/
def rearrange (c : Calculator) (ts : List Token) : Except StructuralCause (List Token) :=
  Postfix.ofTokens c.operators Limit.nesting ts

/-- The tokens of an expression in postfix order. -/
def compile (c : Calculator) (expression : Plain) : Except Failure (List Token) :=
  match c.tokens expression with
  | .error cause => .error (.lexical cause)
  | .ok ts => (c.rearrange ts).mapError StructuralCause.failure

/-- The expression in postfix order, as a text. -/
def postfixText (c : Calculator) (expression : Plain) : Except Failure String :=
  (c.compile expression).map Token.describe

/-! ## Results -/

/-- The last `size` entries. -/
def lastEntries {α : Type} (size : Nat) (entries : List α) : List α := entries.drop (entries.length - size)

/-- Records a success. -/
def succeed (c : Calculator) (expression : String) (v : Value) (formatted : String)
    (tokenCount postfixLength operationCount : Nat) : CalculationResult × Calculator :=
  let r := CalculationResult.success v formatted tokenCount postfixLength operationCount
  (r, { c with
    history := lastEntries c.historySize (c.history ++ [⟨expression, v, formatted, c.modes⟩])
    lastResult := some r
    succeeded := c.succeeded + 1 })

/-- Counts a failure. -/
def failWith (c : Calculator) (message code : String) (tokenCount postfixLength : Nat) :
    CalculationResult × Calculator :=
  (.failure message code tokenCount postfixLength, { c with failed := c.failed + 1 })

/-- Counts a failure. -/
def fail (c : Calculator) (f : Failure) (tokenCount postfixLength : Nat) : CalculationResult × Calculator :=
  c.failWith f.outcome.1 f.outcome.2 tokenCount postfixLength

/-- The calculator with one more calculation begun. -/
def begin (c : Calculator) : Calculator := { c with calculations := c.calculations + 1 }

/-- The text of an expression that is a text. -/
def expressionText : Plain → String
  | .text s => s
  | _ => ""

/-- The value of an expression and how it is shown, with the numbers of tokens known when it is settled. -/
def evaluate (c : Calculator) (expression : Plain) :
    Nat × Nat × Except Failure (Outcome × String) :=
  match c.tokens expression with
  | .error cause => (0, 0, .error (.lexical cause))
  | .ok ts =>
    match c.rearrange ts with
    | .error cause => (ts.length - 1, 0, .error cause.failure)
    | .ok ps =>
      (ts.length - 1, ps.length, do
        let outcome ← c.environment.evaluate ps
        return (outcome, ← outcome.value.shown))

/-- **Evaluates an expression.**  The result is remembered if there is a value. -/
def calculate (c : Calculator) (expression : Plain) : CalculationResult × Calculator :=
  match c.begin.evaluate expression with
  | (tokenCount, postfixLength, .ok (outcome, formatted)) =>
    c.begin.succeed (expressionText expression) outcome.value formatted tokenCount postfixLength
      outcome.operations
  | (tokenCount, postfixLength, .error f) => c.begin.fail f tokenCount postfixLength

/-- **Checks an expression** without evaluating it: the tokens first, then their order. -/
def validate (c : Calculator) (expression : Plain) : ValidationResult :=
  match c.tokens expression with
  | .error cause => .invalid .tokenization [cause.message]
  | .ok ts =>
    match Token.problems c.operators ts with
    | cause :: causes => .invalid .tokenization ((cause :: causes).map (·.issue.message))
    | [] =>
      match Postfix.validate c.vocabulary Limit.nesting ts with
      | .error failure => .invalid .error [failure.outcome.1]
      | .ok (issue :: issues) => .invalid .parsing ((issue :: issues).map (·.message))
      | .ok [] =>
        match c.rearrange ts with
        | .error cause => .invalid .error [cause.failure.outcome.1]
        | .ok ps => ⟨true, [], .complete, ts.length - 1, ps.length⟩

/-! ## Variables -/

/-- The name of a variable: a valid name that is no function and no constant. -/
def variableName (c : Calculator) (name : Plain) : Except Failure String :=
  match Registry.validName name with
  | none => .error (name.telling fun shown => .request (.variableName shown))
  | some s =>
    if c.functions.contains s || Vocabulary.isConstant s then .error (.request (.variableInUse s))
    else .ok s

/-- The calculator with a variable bound. -/
def bind (c : Calculator) (name : String) (v : Value) : Calculator :=
  { c with bindings := Bindings.put name v c.bindings }

/-- Evaluates an expression and binds a variable to its value. -/
def assign (c : Calculator) (name expression : Plain) : CalculationResult × Calculator :=
  match c.variableName name with
  | .error f => c.fail f 0 0
  | .ok s =>
    match c.calculate expression with
    | (r, c) =>
      match r.succeeded, r.value with
      | true, some v => (r, c.bind s v)
      | _, _ => (r, c)

/-- Binds a variable to a plain object. -/
def setVariable (c : Calculator) (name value : Plain) : Except Failure Calculator := do
  let s ← c.variableName name
  return c.bind s (← value.toValue c.modes.precision)

/-- The calculator without a variable; the flag says whether there was one. -/
def deleteVariable (c : Calculator) (name : String) : Bool × Calculator :=
  (c.bindings.contains name, { c with bindings := c.bindings.erase name })

/-- The calculator without variables. -/
def clearVariables (c : Calculator) : Calculator := { c with bindings := [] }

/-- The calculator without remembered calculations. -/
def clearHistory (c : Calculator) : Calculator := { c with history := [] }

end Calculator

end SciCalc
