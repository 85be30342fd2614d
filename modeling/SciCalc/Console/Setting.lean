/-
  Settings of modes by commands and options.

  A mode is set by its name and a text; the journal notes the name that the mode has from then on.
-/
import SciCalc.Console.Arguments

namespace SciCalc

namespace Console

/-- A mode to be set. -/
inductive ModeSetting where
  | angle (name : String)
  | regime (name : String)
  | complexPolicy (name : String)
  /-- The digits of decimals, if a number of them is given at all. -/
  | precision (digits : Option Int)
  | rounding (name : String)
deriving DecidableEq, Inhabited

namespace ModeSetting

/-- The modes with the setting. -/
def apply (m : Modes) : ModeSetting → Except Failure Modes
  | angle name => m.setAngle (.text name)
  | regime name => m.setRegime (.text name)
  | complexPolicy name => m.setComplex (.text name)
  | precision digits => m.setPrecision ((digits.map Plain.integer).getD (.list []))
  | rounding name => m.setRounding (.text name)

/-- What the journal says about modes that have the setting. -/
def message (m : Modes) : ModeSetting → String
  | angle _ => "Angle mode set to " ++ m.angle.name
  | regime _ => "Precision mode set to " ++ m.regime.name
  | complexPolicy _ => "Complex mode set to " ++ m.complexPolicy.name
  | precision _ => "Precision set to " ++ Number.natText m.precision ++ " digits"
  | rounding _ => "Rounding mode set to " ++ m.rounding.name

/-- The entry of the journal for modes that have the setting. -/
def entry (m : Modes) (s : ModeSetting) : Journal.Entry := ⟨.debug, "modes", s.message m⟩

/-- The setting that a command asks for. -/
def ofCommand (name value : String) : Except Failure ModeSetting :=
  match Text.lower name with
  | "angle" => .ok (.angle value)
  | "precision_mode" => .ok (.regime value)
  | "complex" => .ok (.complexPolicy value)
  | "rounding" => .ok (.rounding value)
  | key =>
    if key = "digits" || key = "precision" then
      match Text.readInteger? value.toList with
      | some n => .ok (.precision (some n))
      | none => .error (.request (.precisionText value))
    else .error (.request (.unknownMode name))

/-- The settings that arguments ask for, in the order in which they are made.  An empty rounding is none. -/
def ofArguments (a : Arguments) : List ModeSetting :=
  (a.angle.map angle).toList ++ (a.regime.map regime).toList ++ (a.complexPolicy.map complexPolicy).toList
    ++ (a.precision.map precision).toList ++ ((a.rounding.filter (· ≠ "")).map rounding).toList

end ModeSetting

end Console

end SciCalc
