/-
  What the console writes.

  A note is a line of the output, a result, a line of the error output or an entry of the journal.  Results
  are written for people or as data.
-/
import SciCalc.Calculator.Result
import SciCalc.Journal.Entry

namespace SciCalc

namespace Console

/-- How results are written. -/
inductive OutputFormat where
  /-- For people. -/
  | human
  /-- As data. -/
  | json
  /-- For people, but the postfix order as data. -/
  | mixed
deriving DecidableEq, Inhabited

/-- Something that the console writes. -/
inductive Note where
  /-- A line of the output. -/
  | line (text : String)
  /-- The invitation to type a line. -/
  | prompt
  /-- The result of a calculation, and the variable it is assigned to. -/
  | result (r : CalculationResult) (bound : Option String)
  /-- A line of the error output. -/
  | complaint (text : String)
  /-- An entry of the journal. -/
  | entry (e : Journal.Entry)
deriving DecidableEq, Inhabited

/-- A line that tells what went wrong. -/
def Note.failure (message : String) : Note := .line ("Error: " ++ message)

/-- A result as data; the variable it is assigned to is the last field. -/
def resultData (r : CalculationResult) (bound : Option String) : Json :=
  .object (r.fields ++ (bound.map fun name => ("variable", Json.text name)).toList)

/-- A result for people. -/
def resultText (r : CalculationResult) (bound : Option String) : String :=
  if !r.succeeded then "Error: " ++ r.error.getD "None"
  else (bound.map (· ++ " = ")).getD "" ++ r.formatted.getD "None"

/-- What the invitation looks like. -/
def promptText : String := ">>> "

/-- What a note adds to the output. -/
def Note.output (f : OutputFormat) : Note → String
  | line text => text ++ "\n"
  | prompt => promptText
  | result r bound =>
    (if f = .json then (resultData r bound).write false else resultText r bound) ++ "\n"
  | complaint _ => ""
  | entry _ => ""

end Console

end SciCalc
