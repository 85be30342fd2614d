/-
  The vocabulary of expressions: the operators and, unless there are none, the functions.
-/
import SciCalc.Constant
import SciCalc.Function.Registry
import SciCalc.Operator.Basic

namespace SciCalc

/-- The operators and functions that expressions can use. -/
structure Vocabulary where
  /-- The operators. -/
  operators : Operators
  /-- The functions, if expressions can call any. -/
  functions : Option Registry
deriving Inhabited

namespace Vocabulary

/-- The operators alone. -/
def basic : Vocabulary := ⟨.basic, none⟩

/-- The function of a name. -/
def function? (v : Vocabulary) (name : String) : Option Function := v.functions.bind (·.find? name)

/-- The name is that of a function. -/
def isFunction (v : Vocabulary) (name : String) : Bool := (v.function? name).isSome

/-- The name is that of a constant. -/
def isConstant (name : String) : Bool := (Constant.find? name).isSome

end Vocabulary

end SciCalc
