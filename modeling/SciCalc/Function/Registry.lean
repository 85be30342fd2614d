/-
  The functions of a calculator.

  Names count in any case of letters.  A name that is taken keeps its first meaning, so that no built-in
  function is replaced by accident.  An alias is another name of a function; functions and aliases are
  listed in the order in which they were made.
-/
import SciCalc.Function.Basic
import SciCalc.Text.Name
import SciCalc.Text.Search

namespace SciCalc

/-- The functions and their aliases. -/
structure Registry where
  /-- The functions. -/
  functions : List Function
  /-- The aliases, each with the name of its function. -/
  aliasTable : List (String × String)
deriving Inhabited

/-- What is told about a function. -/
structure Documentation where
  /-- The function. -/
  function : Function
  /-- Its aliases in order. -/
  aliases : List String

/-- How many functions there are. -/
structure RegistryStatistics where
  /-- All functions. -/
  total : Nat
  /-- Those the user made. -/
  userDefined : Nat
  /-- The aliases of functions that there are. -/
  aliases : Nat
  /-- The functions of each category. -/
  categories : List (String × Nat)
deriving DecidableEq

namespace Registry

/-- The aliases that a registry may begin with. -/
def defaultAliases : List (String × String) :=
  [("arcsin", "asin"), ("arccos", "acos"), ("arctan", "atan"), ("minimum", "min"),
   ("maximum", "max"), ("absolute", "abs")]

/-- A registry without functions. -/
def empty (withAliases : Bool) : Registry := ⟨[], if withAliases then defaultAliases else []⟩

/-! ## Looking up -/

/-- The function of a lower-case name. -/
def lookup? (r : Registry) (key : String) : Option Function := r.functions.find? (·.name = key)

/-- What a lower-case name stands for as an alias. -/
def aliasTarget? (r : Registry) (key : String) : Option String :=
  (r.aliasTable.find? (·.1 = key)).map (·.2)

/-- The key under which a name is looked up. -/
def resolve (r : Registry) (name : String) : String :=
  let key := Text.lower name
  (r.aliasTarget? key).getD key

/-- The function of a name. -/
def find? (r : Registry) (name : String) : Option Function := r.lookup? (r.resolve name)

/-- The name is that of a function. -/
def contains (r : Registry) (name : String) : Bool := (r.find? name).isSome

/-- Whether a call with so many arguments fits a function. -/
def checkCall (r : Registry) (name : String) (count : Int) : Option Failure :=
  match r.find? name with
  | none => some (.unknown .function name)
  | some f => f.arityProblem? count

/-! ## Making and removing functions -/

/-- The lower-case name is taken by a function or an alias. -/
def isTaken (r : Registry) (key : String) : Bool :=
  (r.lookup? key).isSome || (r.aliasTarget? key).isSome

/-- Adds a function unless its name is taken; the flag says whether it was added. -/
def add (r : Registry) (f : Function) : Registry × Bool :=
  if r.isTaken f.name then (r, false) else ({ r with functions := r.functions ++ [f] }, true)

/-- The text of a valid name. -/
def validName (name : Plain) : Option String :=
  match name with
  | .text s => if Text.isValidName s then some s else none
  | _ => none

/-- The arity that a number stands for: -1 is any number of arguments. -/
def arityOf (n : Plain) : Option Arity :=
  match n with
  | .integer n => if 0 ≤ n then some (.exactly n.toNat) else if n = -1 then some .variadic else none
  | _ => none

/-- Registers a function.  The name, the number of arguments and the implementation are checked in this
    order; then the function is added unless its name is taken. -/
def register (r : Registry) (name arity : Plain) (implementation : Option Implementation)
    (description category : String) (userDefined : Bool) : Except Failure (Registry × Bool) :=
  match validName name with
  | none => .error (name.telling fun shown => .registration (.functionName shown))
  | some s =>
    match arityOf arity with
    | none => .error (arity.telling fun shown => .registration (.arity s shown))
    | some a =>
      match implementation with
      | none => .error (.registration (.notCallable s))
      | some i => .ok (r.add ⟨Text.lower s, a, i, description, category, userDefined⟩)

/-- The registry without a function and its aliases. -/
def erase (r : Registry) (key : String) : Registry :=
  ⟨r.functions.filter (·.name ≠ key), r.aliasTable.filter (·.2 ≠ key)⟩

/-- Removes a function that the user made; the flag says whether there was one. -/
def remove (r : Registry) (name : String) : Except Failure (Registry × Bool) :=
  match r.find? name with
  | none => .ok (r, false)
  | some f =>
    if f.userDefined then .ok (r.erase f.name, true)
    else .error (.registration (.removeBuiltin f.name))

/-! ## Aliases -/

/-- The table with an entry set: in its place if there is one, and else at the end. -/
def setAlias (key target : String) : List (String × String) → List (String × String)
  | [] => [(key, target)]
  | entry :: rest => if entry.1 = key then (key, target) :: rest else entry :: setAlias key target rest

/-- The name of the function that an alias is to stand for. -/
def aliasedName (r : Registry) (target : Plain) : Except Failure String :=
  match target with
  | .text s => ((r.find? s).map (·.name)).elim (.error (.registration (.noSuchFunction s))) .ok
  | _ => .error (.unexpected "AttributeError" "the name of a function is no text")

/-- Makes an alias of a function. -/
def createAlias (r : Registry) (name target : Plain) : Except Failure Registry :=
  match validName name with
  | none => .error (name.telling fun shown => .registration (.aliasName shown))
  | some s => do
    let f ← r.aliasedName target
    let key := Text.lower s
    if (r.lookup? key).isSome then .error (.registration (.nameInUse key))
    else return { r with aliasTable := setAlias key f r.aliasTable }

/-- Removes an alias; the flag says whether there was one. -/
def removeAlias (r : Registry) (name : String) : Registry × Bool :=
  let key := Text.lower name
  ({ r with aliasTable := r.aliasTable.filter (·.1 ≠ key) }, (r.aliasTarget? key).isSome)

/-- The aliases of functions that there are. -/
def aliases (r : Registry) : List (String × String) :=
  r.aliasTable.filter fun entry => (r.lookup? entry.2).isSome

/-- The aliases of one function. -/
def aliasesOf (r : Registry) (key : String) : List String :=
  (r.aliasTable.filter (·.2 = key)).map (·.1)

/-! ## Listings -/

/-- The functions of a category; the query is taken in lower case. -/
def byCategory (r : Registry) (query : String) : List Function :=
  r.functions.filter (·.category = Text.lower query)

/-- The elements in their first appearances. -/
def distinct : List String → List String
  | [] => []
  | s :: rest => s :: (distinct rest).filter (· ≠ s)

/-- The texts in the order of their characters. -/
def sorted (names : List String) : List String := names.mergeSort fun a b => !decide (b < a)

/-- The categories in order. -/
def categories (r : Registry) : List String := sorted (distinct (r.functions.map (·.category)))

/-- What is told about a function. -/
def documentation (r : Registry) (name : String) : Option Documentation :=
  (r.find? name).map fun f => ⟨f, sorted (r.aliasesOf f.name)⟩

/-- The functions whose name, category, description or alias has the text in it. -/
def search (r : Registry) (query : String) : List Function :=
  let needle := Text.lower (Text.trim query)
  if needle.isEmpty then []
  else r.functions.filter fun f =>
    (f.name :: f.category :: Text.lower f.description :: r.aliasesOf f.name).any
      (Text.hasInfix needle)

/-- The counts. -/
def statistics (r : Registry) : RegistryStatistics where
  total := r.functions.length
  userDefined := (r.functions.filter (·.userDefined)).length
  aliases := r.aliases.length
  categories := (distinct (r.functions.map (·.category))).map fun c =>
    (c, (r.functions.filter (·.category = c)).length)

end Registry

end SciCalc
