/-
  The program from its call to its end.

  A call is answered at once, or it opens a session.  Before that the calculator is set up: first the modes,
  then the variables, each of which is assigned the value of an expression.
-/
import SciCalc.Console.Session

namespace SciCalc

namespace Console

/-- What a call comes to. -/
inductive Course where
  /-- Something is written, and the program ends with a code. -/
  | ends (notes : List Note) (code : Nat)
  /-- Something is written, and a session begins. -/
  | opens (notes : List Note) (console : Console)
  /-- The program breaks off. -/
  | breaksOff (failure : Failure)

/-- Puts notes in front. -/
def Course.prepend (before : List Note) : Course → Course
  | ends notes code => ends (before ++ notes) code
  | opens notes console => opens (before ++ notes) console
  | breaksOff failure => breaksOff failure

/-- The failure of a text that is an empty value. -/
def missingText : Failure := .unexpected "AttributeError" "a text is missing"

/-- Codes with which the program ends. -/
def Course.success : Nat := 0

/-- The code of a call whose expression has no value. -/
def Course.failed : Nat := 1

/-- The code of a call that makes no sense. -/
def Course.refused : Nat := 2

open Course (success failed refused)

/-! ## Setting up -/

/-- Sets modes one after the other, and goes on with the console that has them. -/
def withModes (c : Console) (settings : List ModeSetting) (next : Console → Course) : Course :=
  match settings with
  | [] => next c
  | s :: rest =>
    match c.setMode s with
    | .ok (note, c) => (c.withModes rest next).prepend [note]
    | .error f => .ends [.complaint ("Error: " ++ f.message)] refused

/-- The name and the expression of a binding. -/
def splitBinding? (text : String) : Option (String × String) :=
  match Word.splitEquals? text.toList with
  | some (name, expression) =>
    let expression := Text.trim (String.ofList expression)
    if expression.isEmpty then none else some (Text.trim (String.ofList name), expression)
  | none => none

/-- Binds variables one after the other, and goes on with the console that has them. -/
def withBindings (c : Console) (bindings : List (Option String)) (next : Console → Course) : Course :=
  match bindings with
  | [] => next c
  | none :: _ => .breaksOff missingText
  | some text :: rest =>
    match splitBinding? text with
    | none => .ends [.complaint ("Error: " ++ (RequestCause.bindingForm text).message)] refused
    | some (name, expression) =>
      let (r, entries, c) := c.assign name expression
      if r.succeeded then (c.withBindings rest next).prepend entries
      else
        let cause := RequestCause.bindingValue name (r.error.getD "") (r.errorCode.getD "")
        .ends (entries ++ [.complaint ("Error: " ++ cause.message)]) refused

/-! ## Single expressions -/

/-- The expression of a call without blanks around it and without an invitation copied in front of it. -/
def cleanExpression (s : String) : String :=
  let s := Text.trim s
  if ">>>".toList.isPrefixOf s.toList then Text.trim (String.ofList (s.toList.drop 3)) else s

/-- Checks an expression. -/
def checkCourse (c : Console) (expression : String) : Course :=
  let v := c.calculator.validate (.text expression)
  let notes := match c.format with
    | .json => [.line ((Json.object v.fields).write false)]
    | _ => if v.valid then [.line "Valid expression"] else v.errors.map .failure
  .ends notes (if v.valid then success else failed)

/-- The notes of an expression in postfix order. -/
def postfixNotes (c : Console) (expression : String) : List Note :=
  match c.calculator.postfixText (.text expression) with
  | .ok text =>
    match c.format with
    | .human => [.line ("RPN: " ++ text)]
    | _ => [.line ((Json.object [("rpn", .text text)]).write false)]
  | .error f => [.entry ⟨.debug, "cli", "No RPN for " ++ Text.quoted expression ++ ": " ++ f.message⟩]

/-- Evaluates an expression. -/
def evaluateCourse (c : Console) (expression : String) : Course :=
  let (r, entries, _) := c.evaluate expression
  .ends (entries ++ [.result r none]) (if r.succeeded then success else failed)

/-- Answers a call that has an expression. -/
def expressionCourse (c : Console) (a : Arguments) (expression : String) : Course :=
  let expression := cleanExpression expression
  if expression.isEmpty then .ends [.failure "Empty input. Please enter a valid expression."] failed
  else if a.check then c.checkCourse expression
  else
    (c.evaluateCourse expression).prepend (if a.postfixForm then c.postfixNotes expression else [])

/-! ## Calls -/

/-- What arguments come to. -/
def ofArguments (a : Arguments) : Course :=
  if a.journalLevel = none then .breaksOff missingText
  else if a.version then .ends [.line Limit.version] success
  else
    (Console.new a.format).withModes (ModeSetting.ofArguments a) fun c =>
      c.withBindings a.bindings fun c =>
        match a.expression with
        | some (some expression) => c.expressionCourse a expression
        | some none => .breaksOff missingText
        | none => .opens [.line welcomeText] c

/-- The arguments in whose terms notes are written. -/
def Call.arguments : Call → Arguments
  | .perform a => a
  | _ => .initial

/-- **What a call comes to.** -/
def Call.course : Call → Course
  | .help => .ends [.line optionsText] success
  | .misuse => .ends [.complaint usageText] refused
  | .perform a => Console.ofArguments a

/-- Whether a note is written by a program whose journal has the level. -/
def Note.isWritten (l : Option Journal.Level) : Note → Bool
  | .entry e => l.any fun l => Journal.keeps l.weight e.level
  | _ => true

/-- Everything that a call writes when a text is typed, and the code with which it ends, unless it breaks
    off. -/
def Call.run (call : Call) (input : String) : Except Failure (List Note × Nat) :=
  let written (notes : List Note) := notes.filter (Note.isWritten call.arguments.journalLevel)
  match call.course with
  | .ends notes code => .ok (written notes, code)
  | .opens notes c => .ok (written (notes ++ c.transcript (Text.lines input)), success)
  | .breaksOff failure => .error failure

end Console

end SciCalc
