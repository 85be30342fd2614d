/-
  What a calculator tells about itself.

  The modes, operators, constants and functions, and the counts of a calculator are listed as data.  Names
  of settings and kinds are those that the settings accept.
-/
import SciCalc.Calculator.Functions

namespace SciCalc

open Json (object text list boolean)

/-- A count as data. -/
def Json.count (n : Nat) : Json := .integer n

/-- Texts as data. -/
def Json.texts (ss : List String) : Json := .list (ss.map .text)

/-! ## Modes -/

namespace Modes

/-- The modes as data. -/
def fields (m : Modes) : List (String × Json) :=
  [("angle_mode", text m.angle.name), ("precision_mode", text m.regime.name),
    ("complex_mode", text m.complexPolicy.name), ("precision", .count m.precision),
    ("rounding_mode", text m.rounding.name)]

/-- The labels of the modes. -/
def labels (m : Modes) : List (String × Json) :=
  [("angle_mode", text m.angle.label), ("precision_mode", text m.regime.label),
    ("complex_mode", text m.complexPolicy.label)]

/-- The modes with their labels. -/
def summary (m : Modes) : List (String × Json) := m.fields ++ [("labels", object m.labels)]

end Modes

/-! ## Vocabulary -/

/-- An operator as data. -/
def Operator.fields (o : Operator) : List (String × Json) :=
  [("key", text o.key), ("symbol", text o.symbol), ("arity", .count o.rule.arity),
    ("precedence", .integer o.precedence), ("associativity", text o.grouping.name),
    ("description", text o.description)]

/-- The value of a constant as it is listed. -/
def Constant.valueText (c : Constant) : String :=
  if c.isComplex then "i" else formatReal Limit.outputDigits c.value

/-- A constant as data. -/
def Constant.fields (c : Constant) : List (String × Json) :=
  [("name", text c.name), ("value", text c.valueText), ("description", text c.description)]

/-- A number of arguments as data. -/
def Arity.json : Arity → Json
  | .variadic => text "variadic"
  | .exactly n => .count n

/-- The documentation of a function as data. -/
def Documentation.fields (d : Documentation) : List (String × Json) :=
  [("name", text d.function.name), ("signature", text d.function.signature),
    ("arity", d.function.arity.json), ("description", text d.function.description),
    ("category", text d.function.category), ("user_defined", boolean d.function.userDefined),
    ("aliases", .texts d.aliases)]

/-- The counts of functions as data. -/
def RegistryStatistics.fields (s : RegistryStatistics) : List (String × Json) :=
  [("total", .count s.total), ("builtin", .count (s.total - s.userDefined)),
    ("user_defined", .count s.userDefined), ("aliases", .count s.aliases),
    ("categories", object (s.categories.map fun entry => (entry.1, .count entry.2)))]

/-! ## Counts -/

/-- The counts of a calculator. -/
structure Statistics where
  /-- The calculations begun. -/
  calculations : Nat
  /-- Those with a value. -/
  succeeded : Nat
  /-- Those without one. -/
  failed : Nat
  /-- The remembered calculations. -/
  historySize : Nat
  /-- The variables. -/
  bindings : Nat
  /-- The functions. -/
  functions : RegistryStatistics
  /-- The operators. -/
  operators : Nat
  /-- The constants. -/
  constants : Nat
  /-- The modes in force. -/
  modes : Modes
deriving DecidableEq

/-- The counts of a calculator as data. -/
def Statistics.fields (s : Statistics) : List (String × Json) :=
  [("calculations", .count s.calculations), ("succeeded", .count s.succeeded),
    ("failed", .count s.failed), ("history_size", .count s.historySize),
    ("variables", .count s.bindings), ("functions", object s.functions.fields),
    ("operators", .count s.operators), ("constants", .count s.constants),
    ("modes", object s.modes.fields)]

namespace Calculator

/-- The counts of a calculator. -/
def statistics (c : Calculator) : Statistics where
  calculations := c.calculations
  succeeded := c.succeeded
  failed := c.failed
  historySize := c.history.length
  bindings := c.bindings.length
  functions := c.functions.statistics
  operators := c.operators.all.length
  constants := Constant.all.length
  modes := c.modes

/-- The names of all functions. -/
def functionNames (c : Calculator) : List String := c.functions.functions.map (·.name)

end Calculator

end SciCalc
