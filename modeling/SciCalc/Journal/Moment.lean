/-
  Moments.

  A moment is a number of microseconds since the beginning of 1970.  Its written form is that of the
  Gregorian calendar in universal time, `2000-02-29T00:00:00`; the microseconds follow if there are any.
-/
import SciCalc.Binary.Integral
import SciCalc.Binary.Shortest
import SciCalc.Double.Basic
import SciCalc.Number.Digits

namespace SciCalc

namespace Journal

/-- A moment. -/
structure Moment where
  /-- The microseconds since the beginning of 1970. -/
  microseconds : Int
deriving DecidableEq, Inhabited

namespace Moment

/-- The microseconds of a second. -/
def perSecond : Int := 1000000

/-- A number of seconds since the beginning of 1970. -/
def ofSeconds (n : Int) : Moment := ⟨n * perSecond⟩

/-- The double nearest to a million. -/
def million : Binary := Double.ofInt perSecond

/-- The integer nearest to a finite double, a half to the even one. -/
def nearest : Binary → Int
  | .finite s m e =>
    let n := if 0 ≤ e then m <<< e.toNat else Binary.divRound .toEven m (2 ^ (-e).toNat)
    if s then -(n : Int) else n
  | _ => 0

/-- Seconds given by a double: the fraction is scaled to microseconds and rounded by itself. -/
def ofDouble (x : Binary) : Moment :=
  let whole := x.trunc?.getD 0
  let fraction := Double.sub x (Double.ofInt whole)
  ⟨whole * perSecond + nearest (Double.mul fraction million)⟩

/-! ## The calendar -/

/-- The days of four hundred years. -/
def eraDays : Int := 146097

/-- The year, month and day of a number of days since the beginning of 1970.  Years are counted from March,
    so that a leap day is the last one. -/
def date (days : Int) : Int × Nat × Nat :=
  -- day zero of the count is the first of March of the year zero
  let shifted := days + 719468
  let era := shifted.fdiv eraDays
  let day := (shifted.fmod eraDays).toNat
  let year := (day - day / 1460 + day / 36524 - day / 146096) / 365
  let rest := day - (365 * year + year / 4 - year / 100)
  let month := (5 * rest + 2) / 153
  let dayOfMonth := rest - (153 * month + 2) / 5 + 1
  let calendarMonth := if month < 10 then month + 3 else month - 9
  ((year : Int) + era * 400 + (if calendarMonth ≤ 2 then 1 else 0), calendarMonth, dayOfMonth)

/-- A number with at least so many digits. -/
def padded (width n : Nat) : String := String.ofList (Number.digitsPadded width n)

/-- The written form of a moment. -/
def text (t : Moment) : String :=
  let seconds := t.microseconds.fdiv perSecond
  let micro := (t.microseconds.fmod perSecond).toNat
  let (year, month, day) := date (seconds.fdiv 86400)
  let second := (seconds.fmod 86400).toNat
  padded 4 year.toNat ++ "-" ++ padded 2 month ++ "-" ++ padded 2 day ++ "T"
    ++ padded 2 (second / 3600) ++ ":" ++ padded 2 (second / 60 % 60) ++ ":" ++ padded 2 (second % 60)
    ++ if micro = 0 then "" else "." ++ padded 6 micro

example : (ofSeconds 951782400).text = "2000-02-29T00:00:00" := by decide +kernel

end Moment

end Journal

end SciCalc
