/-
  What the calculator answers.

  The result of a calculation has a value and its written form, or the message and code of a failure,
  together with how many tokens, postfix tokens and operations there were.  The result of a check has the
  messages of the problems and the stage that found them.
-/
import SciCalc.Failure
import SciCalc.Mode
import SciCalc.Text.Json

namespace SciCalc

/-- The result of a calculation. -/
structure CalculationResult where
  /-- There is a value. -/
  succeeded : Bool
  /-- The value. -/
  value : Option Value
  /-- The value as it is shown. -/
  formatted : Option String
  /-- The message of the failure. -/
  error : Option String
  /-- The code of the failure. -/
  errorCode : Option String
  /-- The number of tokens. -/
  tokenCount : Nat
  /-- The number of tokens in postfix order. -/
  postfixLength : Nat
  /-- The number of operations. -/
  operationCount : Nat
  /-- How long the evaluation took, in milliseconds. -/
  elapsed : Binary
deriving DecidableEq, Inhabited

namespace CalculationResult

/-- The result of a failure. -/
def failure (message code : String) (tokenCount postfixLength : Nat) : CalculationResult :=
  ⟨false, none, none, some message, some code, tokenCount, postfixLength, 0, .zero⟩

/-- The result of a success. -/
def success (v : Value) (formatted : String) (tokenCount postfixLength operationCount : Nat) :
    CalculationResult :=
  ⟨true, some v, some formatted, none, none, tokenCount, postfixLength, operationCount, .zero⟩

/-- A finite double rounded to a number of decimal places, a tie to the even digit. -/
def roundPlaces (places : Nat) : Binary → Binary
  | .finite s m e =>
    let n := m * 10 ^ places
    let q := if 0 ≤ e then n <<< e.toNat else Binary.divRound .toEven n (2 ^ (-e).toNat)
    Format.double.ofDecimal s q (-places)
  | x => x

/-- A field that is left out if there is nothing in it. -/
def optional (key : String) (field : Option String) : List (String × Json) :=
  match field with
  | some s => [(key, .text s)]
  | none => []

/-- The fields of a result. -/
def fields (r : CalculationResult) : List (String × Json) :=
  ("ok", Json.boolean r.succeeded)
    :: optional "result" r.formatted ++ optional "type" (r.value.map (·.kind))
      ++ optional "error" r.error ++ optional "error_code" r.errorCode
      ++ [("token_count", .integer r.tokenCount), ("rpn_length", .integer r.postfixLength),
        ("operation_count", .integer r.operationCount), ("elapsed_ms", .double (roundPlaces 3 r.elapsed))]

/-- A text in quotes, or the word for no text. -/
def shownText (s : Option String) : String :=
  match s with
  | some s => Text.quoted s
  | none => "None"

/-- A result on one line. -/
def describe (r : CalculationResult) : String :=
  if r.succeeded then "CalculationResult(succeeded=True, formatted=" ++ shownText r.formatted ++ ")"
  else "CalculationResult(succeeded=False, error=" ++ shownText r.error ++ ")"

end CalculationResult

/-- The stage of a check that decides its result. -/
inductive Stage where
  | tokenization
  | parsing
  | complete
  /-- Something that is no problem of the expression. -/
  | error
deriving DecidableEq, Inhabited

/-- The name of a stage. -/
def Stage.name : Stage → String
  | tokenization => "tokenization"
  | parsing => "parsing"
  | complete => "complete"
  | error => "error"

/-- The stages. -/
def Stage.all : List Stage := [tokenization, parsing, complete, error]

/-- The result of a check. -/
structure ValidationResult where
  /-- There is no problem. -/
  valid : Bool
  /-- The messages of the problems. -/
  errors : List String
  /-- The stage that found them. -/
  stage : Stage
  /-- The number of tokens. -/
  tokenCount : Nat
  /-- The number of tokens in postfix order. -/
  postfixLength : Nat
deriving DecidableEq, Inhabited

namespace ValidationResult

/-- The result of a check that finds problems. -/
def invalid (stage : Stage) (errors : List String) : ValidationResult := ⟨false, errors, stage, 0, 0⟩

/-- The fields of a result. -/
def fields (r : ValidationResult) : List (String × Json) :=
  [("valid", .boolean r.valid), ("errors", .list (r.errors.map .text)), ("stage", .text r.stage.name)]
    ++ if r.valid then
        [("token_count", .integer r.tokenCount), ("rpn_length", .integer r.postfixLength)]
      else []

end ValidationResult

/-- A calculation that is remembered. -/
structure HistoryEntry where
  /-- The expression. -/
  expression : String
  /-- Its value. -/
  value : Value
  /-- The value as it was shown. -/
  formatted : String
  /-- The modes in force. -/
  modes : Modes
deriving DecidableEq

end SciCalc
