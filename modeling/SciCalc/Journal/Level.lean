/-
  Levels of the journal.

  An entry has a level; a journal keeps the entries whose level reaches its threshold.  A threshold of zero
  is none of its own, and the one for warnings applies.
-/
import SciCalc.Failure
import SciCalc.Text.Case

namespace SciCalc

namespace Journal

/-- The level of an entry. -/
inductive Level where
  | debug
  | info
  | warning
  | error
  | critical
deriving DecidableEq, Inhabited

namespace Level

/-- The weight of a level. -/
def weight : Level → Nat
  | debug => 10
  | info => 20
  | warning => 30
  | error => 40
  | critical => 50

/-- The name of a level. -/
def name : Level → String
  | debug => "DEBUG"
  | info => "INFO"
  | warning => "WARNING"
  | error => "ERROR"
  | critical => "CRITICAL"

/-- The levels, the lightest first. -/
def all : List Level := [debug, info, warning, error, critical]

/-- The level of a name. -/
def ofName? (name : String) : Option Level := all.find? (·.name = name)

/-- Other names of levels. -/
def otherNames : List (String × Level) := [("WARN", warning), ("FATAL", critical)]

/-- The level of a name or of another name. -/
def ofAnyName? (name : String) : Option Level := (ofName? name).or (otherNames.lookup name)

end Level

/-- What a name in capital letters stands for as a threshold. -/
inductive Threshold where
  /-- The weight that entries have to reach. -/
  | weight (n : Nat)
  /-- A text that is no name of a threshold. -/
  | text
  /-- Not even a text. -/
  | thing
deriving DecidableEq

/-- The thresholds by name.  Two names are taken by something else. -/
def thresholds : List (String × Threshold) :=
  (Level.all.map fun l => (l.name, Threshold.weight l.weight))
    ++ Level.otherNames.map (fun entry => (entry.1, Threshold.weight entry.2.weight))
    ++ [("NOTSET", .weight 0), ("BASIC_FORMAT", .text), ("_STYLES", .thing)]

/-- The threshold that a text names in any case of letters; any other text is that for information. -/
def thresholdOf (text : String) : Except Failure Nat :=
  match thresholds.lookup (Text.capitals text) with
  | some (.weight n) => .ok n
  | some .text => .error (.fault (.domain ("Unknown level: " ++ Text.quoted text)))
  | some .thing => .error (.unexpected "TypeError" "Level not an integer or a valid string")
  | none => .ok Level.info.weight

/-- The threshold that applies. -/
def effective (threshold : Nat) : Nat := if threshold = 0 then Level.warning.weight else threshold

/-- A journal with the threshold keeps entries of the level. -/
def keeps (threshold : Nat) (l : Level) : Bool := effective threshold ≤ l.weight

end Journal

end SciCalc
