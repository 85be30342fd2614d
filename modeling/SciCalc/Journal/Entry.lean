/-
  Entries of the journal.

  An entry has a level, the part of the program it comes from and a message, and is written on one line
  behind the moment at which it was made.
-/
import SciCalc.Journal.Level
import SciCalc.Journal.Moment

namespace SciCalc

namespace Journal

/-- The name of the whole program, and of the part that has no name of its own. -/
def program : String := "sciexpr"

/-- An entry. -/
structure Entry where
  /-- How much it matters. -/
  level : Level
  /-- The part of the program that made it. -/
  source : String
  /-- What it says. -/
  message : String
deriving DecidableEq, Inhabited

namespace Entry

/-- The entry without the moment. -/
def body (e : Entry) : String :=
  "[" ++ e.level.name ++ "] " ++ program ++ "." ++ e.source ++ ": " ++ e.message

/-- The line of an entry that was made at a moment. -/
def line (t : Moment) (e : Entry) : String := t.text ++ " " ++ e.body

end Entry

end Journal

end SciCalc
