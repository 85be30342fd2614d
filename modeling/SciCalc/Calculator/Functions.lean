/-
  Making and removing functions of a calculator.

  A program can register a function of its own; an expression over parameters can be defined as a function.
  A function of the user can be defined anew, a built-in one cannot.  Nothing changes if a definition is
  refused before the old function is given up.
-/
import SciCalc.Calculator.Basic

namespace SciCalc

namespace Calculator

/-- Registers a function that the program around the calculator computes; the flag says whether it was
    added. -/
def registerFunction (c : Calculator) (name arity : Plain)
    (call : Option (List Plain → Except Failure Plain)) (description category : String) :
    Except Failure (Bool × Calculator) := do
  match call with
  | none => .error (.registration (.notCallable name.inMessage))
  | some call =>
    let (functions, added) ← c.functions.register name arity (some (.host call)) description category true
    return (added, { c with functions := functions })

/-- The name of a parameter; one that is not valid, or that a function or constant has, is refused. -/
def parameterName (c : Calculator) (parameter : Plain) : Except Failure String :=
  match parameter with
  | .text name =>
    if !Text.isValidName name then .error (.registration (.parameterName name))
    else if c.functions.contains name || Vocabulary.isConstant name then
      .error (.registration (.parameterInUse name))
    else .ok name
  | _ => .error (.unexpected "TypeError" "a parameter is no text")

/-- Some name stands twice in a list. -/
def hasDuplicates : List String → Bool
  | [] => false
  | s :: rest => rest.contains s || hasDuplicates rest

/-- The text that is told about a defined function. -/
def definitionText (name : String) (parameters : List String) (body : Plain) : String :=
  name ++ "(" ++ Text.join ", " parameters ++ ") = " ++ body.inMessage

/-- The functions without the one that is to be defined anew. -/
def withoutOld (functions : Registry) (name : String) : Registry :=
  match functions.find? name with
  | some f => functions.erase f.name
  | none => functions

/-- The name that a definition gives to a function; that of a built-in function is refused. -/
def definedName (c : Calculator) (name : Plain) : Except Failure String :=
  match name with
  | .text s =>
    if (c.functions.find? s).any (!·.userDefined) then .error (.registration (.redefineBuiltin s)) else .ok s
  | _ => .error (.unexpected "AttributeError" "a name is no text")

/-- The name, the parameters and the expression in postfix order of a definition that is not refused. -/
def checkDefinition (c : Calculator) (name : Plain) (parameters : List Plain) (body : Plain) :
    Except Failure (String × List String × List Token) := do
  let ps ← parameters.mapM c.parameterName
  if hasDuplicates ps then .error (.registration .duplicateParameters)
  else return (← c.definedName name, ps, ← c.compile body)

/-- **Defines a function by an expression** over parameters; the flag says whether it was added.  The old
    function of that name is given up before the name itself is found to be valid. -/
def defineFunction (c : Calculator) (name : Plain) (parameters : List Plain) (body : Plain) :
    Except Failure Bool × Calculator :=
  match c.checkDefinition name parameters body with
  | .error f => (.error f, c)
  | .ok (s, ps, ts) =>
    let functions := withoutOld c.functions s
    match functions.register name (.integer ps.length) (some (.defined s ps ts)) (definitionText s ps body)
        "user" true with
    | .ok (functions, added) => (.ok added, { c with functions := functions })
    | .error f => (.error f, { c with functions := functions })

/-- Removes a function of the user; the flag says whether there was one. -/
def removeFunction (c : Calculator) (name : String) : Except Failure (Bool × Calculator) := do
  let (functions, removed) ← c.functions.remove name
  return (removed, { c with functions := functions })

/-- Makes an alias of a function. -/
def createAlias (c : Calculator) (name target : Plain) : Except Failure Calculator := do
  return { c with functions := ← c.functions.createAlias name target }

/-- The functions without those of the user and the aliases of these. -/
def builtinsOnly (functions : Registry) : Registry :=
  (functions.functions.filter (·.userDefined)).foldl (fun r f => r.erase f.name) functions

/-- **The calculator as it was at the beginning**, except for the aliases of built-in functions. -/
def reset (c : Calculator) : Calculator :=
  { c with
    modes := .initial
    functions := builtinsOnly c.functions
    bindings := []
    history := []
    lastResult := none
    calculations := 0
    succeeded := 0
    failed := 0 }

end Calculator

end SciCalc
