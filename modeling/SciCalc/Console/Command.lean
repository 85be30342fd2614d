/-
  What a typed line asks for.

  A line whose first word is a command in any case of letters, with as many words behind it as the command
  takes, is that command.  Any other line is the definition of a function, `f(x, y) = body`, an assignment,
  `x = expression`, or an expression.  Two equals signs are a comparison and no assignment.
-/
import SciCalc.Text.Blank
import SciCalc.Text.Case
import SciCalc.Text.Name

namespace SciCalc

namespace Console

/-- What a line asks for. -/
inductive Command where
  | quit
  | help
  | history
  | bindings
  | clear
  | modes
  | setMode (name value : String)
  | functions (category : Option String)
  /-- The expression in postfix order. -/
  | rearrange (expression : String)
  | define (name : String) (parameters : List String) (body : String)
  | assign (name expression : String)
  | evaluate (expression : String)
deriving DecidableEq, Inhabited

namespace Command

/-- The command that the words of a line are. -/
def ofWords? (line : String) : Option Command :=
  match Text.words line with
  | [] => none
  | word :: args =>
    match Text.lower word, args with
    | "quit", _ => some .quit
    | "exit", _ => some .quit
    | "help", _ => some .help
    | "history", [] => some .history
    | "vars", [] => some .bindings
    | "clear", [] => some .clear
    | "modes", [] => some .modes
    | "mode", [name, value] => some (.setMode name value)
    | "functions", [] => some (.functions none)
    | "functions", [category] => some (.functions (some category))
    | "rpn", _ :: _ => some (.rearrange (Text.afterFirstWord line))
    | _, _ => none

/-- The name in front of a text, and the rest. -/
def takeName? (cs : List Char) : Option (List Char × List Char) :=
  match Text.trimLeft cs with
  | c :: rest =>
    if Text.isNameStart c then some (c :: rest.takeWhile Text.isNamePart, rest.dropWhile Text.isNamePart)
    else none
  | [] => none

/-- The line that a text is, without a line feed behind it. -/
def takeLine? (cs : List Char) : Option (List Char) :=
  match cs.takeWhile (· ≠ '\n'), cs.dropWhile (· ≠ '\n') with
  | [], _ => none
  | line, [] => some line
  | line, ['\n'] => some line
  | _, _ => none

/-- The line behind a single equals sign in front of a text. -/
def takeRight? (cs : List Char) : Option (List Char) :=
  match Text.trimLeft cs with
  | '=' :: '=' :: _ => none
  | '=' :: rest => takeLine? (Text.trimLeft rest)
  | _ => none

/-- The text in parentheses in front of a text, and the rest. -/
def takeParameters? (cs : List Char) : Option (List Char × List Char) :=
  match Text.trimLeft cs with
  | '(' :: rest =>
    match rest.dropWhile (· ≠ ')') with
    | ')' :: behind => some (rest.takeWhile (· ≠ ')'), behind)
    | _ => none
  | _ => none

/-- The names between commas; empty ones are left out. -/
def parameterNames (cs : List Char) : List String :=
  ((Text.splitAt ',' (String.ofList cs)).map Text.trim).filter (!·.isEmpty)

/-- The definition that a line is. -/
def definition? (line : String) : Option Command := do
  let (name, rest) ← takeName? line.toList
  let (parameters, rest) ← takeParameters? rest
  let body ← takeRight? rest
  return .define (String.ofList name) (parameterNames parameters) (Text.trim (String.ofList body))

/-- The assignment that a line is. -/
def assignment? (line : String) : Option Command := do
  let (name, rest) ← takeName? line.toList
  let expression ← takeRight? rest
  return .assign (String.ofList name) (String.ofList expression)

/-- **What a line asks for.** -/
def ofLine (line : String) : Command :=
  ((ofWords? line).or ((definition? line).or (assignment? line))).getD (.evaluate line)

example : ofLine "f( x ,, y ) = x*y" = .define "f" ["x", "y"] "x*y" := by decide +kernel
example : ofLine "x == 5" = .evaluate "x == 5" := by decide +kernel

end Command

end Console

end SciCalc
