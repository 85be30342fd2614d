/-
  Functions.

  A function has a name in lower case, takes a fixed number of arguments or one and more, and is computed
  by a built-in rule, by the program around the calculator, or by an expression that was compiled when the
  function was defined.
-/
import SciCalc.Function.Builtin
import SciCalc.Plain
import SciCalc.Token.Basic

namespace SciCalc

/-- What computes a function. -/
inductive Implementation where
  /-- A built-in rule. -/
  | builtin (rule : Builtin)
  /-- The program around the calculator, which gets and gives plain objects. -/
  | host (call : List Plain → Except Failure Plain)
  /-- An expression in postfix order over named parameters; `name` is the name as it was written. -/
  | defined (name : String) (parameters : List String) (body : List Token)
deriving Inhabited

/-- A function and what is told about it. -/
structure Function where
  /-- The name, in lower case. -/
  name : String
  /-- How many arguments it takes. -/
  arity : Arity
  /-- What computes it. -/
  implementation : Implementation
  /-- A short help text. -/
  description : String
  /-- The group it is listed in. -/
  category : String
  /-- The user made it, and can remove it. -/
  userDefined : Bool
deriving Inhabited

namespace Function

/-- The failure of a call with a number of arguments that does not fit.  Its message tells the number of
    arguments that the function takes and the number of those that it gets. -/
def arityProblem? (f : Function) (count : Int) : Option Failure :=
  match f.arity with
  | .variadic => if count < 1 then some (.arity (.noArguments f.name)) else none
  | .exactly n =>
    if count = n then none
    else some (.telling n fun _ => .telling count fun _ => .arity (.wrongCount f.name n count))

/-- The names that signatures give to the first few arguments. -/
def argumentNames : List String := ["x", "y", "z", "w"]

/-- How a call of the function is written. -/
def signature (f : Function) : String :=
  match f.arity with
  | .variadic => f.name ++ "(x1, x2, ...)"
  | .exactly n =>
    let names :=
      if n ≤ argumentNames.length then argumentNames.take n
      else (List.range n).map fun i => "x" ++ Number.natText (i + 1)
    f.name ++ "(" ++ Text.join ", " names ++ ")"

end Function

end SciCalc
