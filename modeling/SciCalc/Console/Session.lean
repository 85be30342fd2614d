/-
  Sessions at the console.

  A console has a calculator and a format for results.  A typed line is answered by notes and leaves a
  console behind; the session goes on until the user leaves or there are no more lines.
-/
import SciCalc.Calculator.Overview
import SciCalc.Console.Command
import SciCalc.Console.Manual
import SciCalc.Console.Setting

namespace SciCalc

/-- A console. -/
structure Console where
  /-- The calculator. -/
  calculator : Calculator
  /-- How results are written. -/
  format : Console.OutputFormat

namespace Console

/-- A console with a new calculator. -/
def new (format : OutputFormat) : Console := ⟨.new Limit.history, format⟩

/-- The answer to a line. -/
structure Reply where
  /-- What is written. -/
  notes : List Note
  /-- The console after the line. -/
  console : Console
  /-- The session goes on. -/
  goesOn : Bool

/-! ## Calculations -/

/-- The entry of the journal for a calculation that failed. -/
def failureEntries (r : CalculationResult) : List Note :=
  match r.error, r.errorCode with
  | some message, some code =>
    [.entry ⟨.debug, "calculator", "Calculation failed: " ++ code ++ " - " ++ message⟩]
  | _, _ => []

/-- Evaluates an expression. -/
def evaluate (c : Console) (expression : String) : CalculationResult × List Note × Console :=
  let (r, calculator) := c.calculator.calculate (.text expression)
  (r, failureEntries r, { c with calculator })

/-- Assigns the value of an expression to a variable.  A name that is refused is not noted in the journal. -/
def assign (c : Console) (name expression : String) : CalculationResult × List Note × Console :=
  let (r, calculator) := c.calculator.assign (.text name) (.text expression)
  let entries := match c.calculator.variableName (.text name) with
    | .ok _ => failureEntries r
    | .error _ => []
  (r, entries, { c with calculator })

/-- Sets a mode. -/
def setMode (c : Console) (s : ModeSetting) : Except Failure (Note × Console) := do
  let modes ← s.apply c.calculator.modes
  return (.entry (s.entry modes), { c with calculator := { c.calculator with modes } })

/-! ## Listings -/

/-- A number in at least three columns. -/
def column (n : Nat) : String :=
  let cs := Number.digits n
  String.ofList (List.replicate (3 - cs.length) ' ' ++ cs)

/-- The lines of the remembered calculations, numbered from `n` on. -/
def historyLines : Nat → List HistoryEntry → List Note
  | _, [] => []
  | n, h :: rest =>
    .line (column n ++ "  " ++ h.expression ++ " = " ++ h.formatted) :: historyLines (n + 1) rest

/-- The lines of the variables. -/
def variableLines (bindings : Bindings) : Except Failure (List Note) := do
  if bindings.isEmpty then return [.line "No variables defined."]
  else bindings.mapM fun (name, v) => do return .line (name ++ " = " ++ (← v.shown))

/-- A list of functions on a line. -/
def functionLine (names : List String) : Note :=
  .line (if names.isEmpty then "No functions found." else Text.join ", " names)

/-- The functions of a category, or all of them. -/
def functionNames (c : Calculator) : Option String → List String
  | some category => (c.functions.byCategory category).map (·.name)
  | none => c.functionNames

/-- The line that tells of a definition. -/
def definitionLine (format : OutputFormat) (name : String) (parameters : List String) (body : String) :
    String :=
  if format = .json then
    (Json.object [("ok", .boolean true), ("function_defined", .text name), ("params", .texts parameters),
      ("body", .text body)]).write true
  else "Defined " ++ name ++ "(" ++ Text.join ", " parameters ++ ")"

/-! ## Commands -/

/-- What a command writes before the session ends. -/
def farewell : String := "Goodbye."

/-- **Performs a command.** -/
def perform (c : Console) : Command → Except Failure Reply
  | .quit => .ok ⟨[.line farewell], c, false⟩
  | .help => .ok ⟨[.line commandsText], c, true⟩
  | .history => .ok ⟨historyLines 1 c.calculator.history, c, true⟩
  | .bindings => do return ⟨← variableLines c.calculator.bindings, c, true⟩
  | .clear =>
    .ok ⟨[.line "Variables and history cleared."],
      { c with calculator := c.calculator.clearVariables.clearHistory }, true⟩
  | .modes => .ok ⟨[.line c.calculator.modes.describe], c, true⟩
  | .setMode name value => do
    let (note, c) ← c.setMode (← ModeSetting.ofCommand name value)
    return ⟨[note, .line c.calculator.modes.describe], c, true⟩
  | .functions category => .ok ⟨[functionLine (functionNames c.calculator category)], c, true⟩
  | .rearrange expression => do
    return ⟨[.line (← c.calculator.postfixText (.text expression))], c, true⟩
  | .define name parameters body =>
    match c.calculator.defineFunction (.text name) (parameters.map .text) (.text body) with
    | (.ok _, calculator) =>
      .ok ⟨[.line (definitionLine c.format name parameters body)], { c with calculator }, true⟩
    | (.error f, _) => .error f
  | .assign name expression =>
    let (r, entries, c) := c.assign name expression
    .ok ⟨entries ++ [.result r (some name)], c, true⟩
  | .evaluate expression =>
    let (r, entries, c) := c.evaluate expression
    .ok ⟨entries ++ [.result r none], c, true⟩

/-- What is written when a command fails. -/
def failureNotes (f : Failure) : List Note :=
  match f.report? with
  | some r => [.failure r.message]
  | none => [.entry ⟨.error, "cli", "Unexpected error in REPL: " ++ f.message⟩, .failure f.message]

/-- **The reply to a typed line.**  A blank line is passed over. -/
def reply (c : Console) (line : String) : Reply :=
  let line := Text.trim line
  if line.isEmpty then ⟨[], c, true⟩
  else match c.perform (.ofLine line) with
    | .ok r => r
    | .error f => ⟨failureNotes f, c, true⟩

/-! ## Sessions -/

/-- What is written when there are no more lines. -/
def ending : Note := .line ("\n" ++ farewell)

/-- Everything that is written while lines are typed. -/
def transcript (c : Console) : List String → List Note
  | [] => [.prompt, ending]
  | line :: rest =>
    let r := c.reply line
    .prompt :: r.notes ++ if r.goesOn then transcript r.console rest else []

end Console

end SciCalc
