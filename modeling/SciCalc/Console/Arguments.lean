/-
  The arguments of a call.

  The settings of a call are taken one after the other: each must fit its option, and the one that asks for
  help ends the reading.  Of two settings of one option the later one counts, except that all bindings of
  variables are kept.
-/
import SciCalc.Console.Note
import SciCalc.Console.Options
import SciCalc.Mode

namespace SciCalc

namespace Console

/-- The arguments of a call. -/
structure Arguments where
  /-- The expression, perhaps an empty value; without one the session is interactive. -/
  expression : Option (Option String)
  /-- How results are written. -/
  format : OutputFormat
  /-- The unit of angles. -/
  angle : Option String
  /-- The regime. -/
  regime : Option String
  /-- The policy for complex results. -/
  complexPolicy : Option String
  /-- The number of digits of decimals, perhaps an empty value. -/
  precision : Option (Option Int)
  /-- The rounding. -/
  rounding : Option String
  /-- The variables and their expressions, as they were written; an empty value among them. -/
  bindings : List (Option String)
  /-- Whether to show the postfix order too. -/
  postfixForm : Bool
  /-- Whether to check instead of evaluating. -/
  check : Bool
  /-- Whether to tell the version only. -/
  version : Bool
  /-- The level of the journal, unless it is an empty value. -/
  journalLevel : Option Journal.Level
  /-- The file that the journal is written to as well. -/
  journalFile : Option String
deriving DecidableEq, Inhabited

namespace Arguments

/-- The arguments of a call without words. -/
def initial : Arguments where
  expression := none
  format := .human
  angle := none
  regime := none
  complexPolicy := none
  precision := none
  rounding := none
  bindings := []
  postfixForm := false
  check := false
  version := false
  journalLevel := some .info
  journalFile := none

/-- The format of a name. -/
def format? (name : String) : Option OutputFormat :=
  if name = "json" then some .json else if name = "human" then some .human else none

/-- A name that is one of those given. -/
def among? (names : List String) (name : String) : Option String :=
  if names.contains name then some name else none

/-- The level of a name that can be chosen for the journal. -/
def level? (name : String) : Option Journal.Level :=
  (Journal.Level.ofName? name).filter (· ≠ .critical)

/-- The arguments with the value of an option taken; nothing if it does not fit. -/
def takeValue? (a : Arguments) (switch : Switch) (text : String) : Option Arguments :=
  match switch with
  | .expression => some { a with expression := some (some text) }
  | .format => (format? text).map fun f => { a with format := f }
  | .angle => (among? (AngleUnit.all.map (·.name)) text).map fun v => { a with angle := some v }
  | .regime => (among? (Regime.all.map (·.name)) text).map fun v => { a with regime := some v }
  | .complexPolicy =>
    (among? (ComplexPolicy.all.map (·.name)) text).map fun v => { a with complexPolicy := some v }
  | .precision => (Text.readInteger? text.toList).map fun n => { a with precision := some (some n) }
  | .rounding => some { a with rounding := some text }
  | .binding => some { a with bindings := a.bindings ++ [some text] }
  | .journalLevel => (level? text).map fun l => { a with journalLevel := some l }
  | .journalFile => some { a with journalFile := some text }
  | _ => some a

/-- The arguments with an option taken that has no value, or an empty one. -/
def takeEmpty (a : Arguments) : Switch → Arguments
  | .expression => { a with expression := some none }
  | .format => { a with format := .mixed }
  | .angle => { a with angle := none }
  | .regime => { a with regime := none }
  | .complexPolicy => { a with complexPolicy := none }
  | .precision => { a with precision := some none }
  | .rounding => { a with rounding := none }
  | .binding => { a with bindings := a.bindings ++ [none] }
  | .postfixForm => { a with postfixForm := true }
  | .check => { a with check := true }
  | .version => { a with version := true }
  | .journalLevel => { a with journalLevel := none }
  | .journalFile => { a with journalFile := none }
  | .help => a

/-- The arguments with a setting taken; nothing if its value does not fit. -/
def take? (a : Arguments) (s : Setting) : Option Arguments :=
  match s.value with
  | some text => a.takeValue? s.switch text
  | none => some (a.takeEmpty s.switch)

/-- The arguments with settings taken in order. -/
def takeAll? (a : Arguments) : List Setting → Option Arguments
  | [] => some a
  | s :: rest => (a.take? s).bind (takeAll? · rest)

end Arguments

/-- What a call asks for. -/
inductive Call where
  /-- To tell what can be asked for. -/
  | help
  /-- Nothing that makes sense. -/
  | misuse
  | perform (a : Arguments)
deriving DecidableEq

namespace Call

/-- What settings ask for, given what becomes of the arguments when all of them are taken.  A request for
    help counts if all settings before it fit. -/
def ofSettings (settings : List Setting) (finish : Arguments → Call) : Call :=
  let before := settings.takeWhile (·.switch ≠ .help)
  match Arguments.initial.takeAll? before with
  | none => .misuse
  | some a => if before.length < settings.length then .help else finish a

/-- **What a call asks for.** -/
def ofWords (words : List String) : Call :=
  match readCall words with
  | .broken settings => ofSettings settings fun _ => .misuse
  | .settings all superfluous => ofSettings all fun a => if superfluous then .misuse else .perform a

end Call

end Console

end SciCalc
