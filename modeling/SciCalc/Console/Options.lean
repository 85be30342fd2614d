/-
  Options of a call.

  An option has a long name and perhaps a short one.  A long name may be cut short while it is clear which
  one is meant, and its value may follow an equals sign.  A short name may be followed by its value at once,
  or, if it takes none, by other short names.  A word that begins with a dash but is a number, or has a blank
  in it, is a value; nothing follows two dashes that could be of use, and attached to an option they are an empty value.
-/
import SciCalc.Text.Blank
import SciCalc.Text.Numeral

namespace SciCalc

namespace Console

/-- The options. -/
inductive Switch where
  | help
  | expression
  | format
  | angle
  | regime
  | complexPolicy
  | precision
  | rounding
  /-- Binds a variable. -/
  | binding
  /-- Shows the postfix order too. -/
  | postfixForm
  /-- Checks instead of evaluating. -/
  | check
  | version
  | journalLevel
  | journalFile
deriving DecidableEq, Inhabited

namespace Switch

/-- The names of options. -/
def names : List (String × Switch) :=
  [("-h", help), ("--help", help), ("-e", expression), ("--eval", expression), ("--format", format),
    ("--angle", angle), ("--precision-mode", regime), ("--complex", complexPolicy), ("-p", precision),
    ("--precision", precision), ("--rounding", rounding), ("--var", binding), ("--rpn", postfixForm),
    ("--validate", check), ("-v", version), ("--version", version), ("--log-level", journalLevel),
    ("--log-file", journalFile)]

/-- The option of a name. -/
def ofName? (name : String) : Option Switch := names.lookup name

/-- The option takes a value. -/
def takesValue : Switch → Bool
  | help => false
  | postfixForm => false
  | check => false
  | version => false
  | _ => true

end Switch

/-- What a word of a call is. -/
inductive Word where
  /-- A value, or nothing of use. -/
  | value (text : String)
  /-- An option, whether by its long name, and what is attached to it. -/
  | option (switch : Switch) (long : Bool) (attached : Option String)
  /-- An option that there is not. -/
  | unknown
  /-- A long name cut too short. -/
  | ambiguous
  /-- Two dashes. -/
  | separator
deriving DecidableEq

namespace Word

/-- The parts of a word before and behind the first equals sign. -/
def splitEquals? (cs : List Char) : Option (List Char × List Char) :=
  match cs.dropWhile (· ≠ '=') with
  | _ :: behind => some (cs.takeWhile (· ≠ '='), behind)
  | [] => none

/-- A number with a minus sign. -/
def isNegativeNumber : List Char → Bool
  | '-' :: cs =>
    let isDigit (c : Char) := (Text.digitValue? c).isSome
    -- a line feed at the very end is overlooked
    let cs := if cs.getLast? = some '\n' then cs.dropLast else cs
    let behind := cs.dropWhile isDigit
    match behind with
    | [] => !cs.isEmpty
    | '.' :: fraction => !fraction.isEmpty && fraction.all isDigit
    | _ => false
  | _ => false

/-- The long options whose names begin with a text. -/
def completions (start : List Char) : List Switch :=
  (Switch.names.filter fun entry => start.isPrefixOf entry.1.toList).map (·.2)

/-- A word that begins like a long name. -/
def ofLong (cs : List Char) : Option Word :=
  let (start, attached) := match splitEquals? cs with
    | some (start, behind) => (start, some (String.ofList behind))
    | none => (cs, none)
  match completions start with
  | [] => none
  | [switch] => some (.option switch true attached)
  | _ => some .ambiguous

/-- A word that begins with a short name. -/
def ofShort (cs : List Char) : Option Word :=
  (Switch.ofName? (String.ofList (cs.take 2))).map fun switch =>
    .option switch false (some (String.ofList (cs.drop 2)))

/-- A word whose part before an equals sign is a name. -/
def ofEquation? (cs : List Char) : Option Word := do
  let (start, behind) ← splitEquals? cs
  let switch ← Switch.ofName? (String.ofList start)
  return .option switch (2 < start.length) (some (String.ofList behind))

/-- A word that begins with a dash and is longer than it. -/
def ofDashed (cs : List Char) : Word :=
  let named := if cs[1]? = some '-' then ofLong cs else ofShort cs
  match (ofEquation? cs).or named with
  | some w => w
  | none =>
    if isNegativeNumber cs || cs.contains ' ' then .value (String.ofList cs) else .unknown

/-- **What a word is**, unless it stands behind two dashes. -/
def ofText (s : String) : Word :=
  if s = "--" then .separator
  else match Switch.ofName? s with
    | some switch => .option switch (2 < s.length) none
    | none =>
      match s.toList with
      | '-' :: c :: rest => ofDashed ('-' :: c :: rest)
      | _ => .value s

/-- The words of a call up to two dashes. -/
def ofTexts : List String → List Word
  | [] => []
  | s :: rest =>
    match ofText s with
    | .separator => [.separator]
    | w => w :: ofTexts rest

end Word

/-- An option with its value. -/
structure Setting where
  /-- The option. -/
  switch : Switch
  /-- Its value, if it takes one that is not empty. -/
  value : Option String
deriving DecidableEq

/-- The value that is attached to an option. -/
def attachedValue (text : String) : Option String := if text = "--" then none else some text

/-- The settings of a word, and the option at its end that waits for a value in the next word. -/
structure Expansion where
  /-- The settings. -/
  settings : List Setting
  /-- The option that waits. -/
  waiting : Option Switch
deriving DecidableEq

/-- A setting in front of others. -/
def Expansion.prepend (s : Setting) (e : Expansion) : Expansion := { e with settings := s :: e.settings }

/-- The settings that an option makes with what is attached to it.  The first argument bounds the short
    names in a word. -/
def expand : Nat → Switch → Bool → Option String → Option Expansion
  | _, switch, _, none =>
    if switch.takesValue then some ⟨[], some switch⟩ else some ⟨[⟨switch, none⟩], none⟩
  | fuel, switch, long, some attached =>
    if switch.takesValue then some ⟨[⟨switch, attachedValue attached⟩], none⟩
    else
      match fuel, long, attached.toList with
      | fuel + 1, false, c :: rest => do
        let next ← Switch.ofName? (String.ofList ['-', c])
        let e ← expand fuel next false (if rest.isEmpty then none else some (String.ofList rest))
        return e.prepend ⟨switch, none⟩
      | _, _, _ => none

/-- How far the words of a call make sense. -/
inductive Reading where
  /-- The settings in order, and whether something of no use is among the words. -/
  | settings (all : List Setting) (superfluous : Bool)
  /-- The settings before a word that makes no sense. -/
  | broken (before : List Setting)

namespace Reading

/-- Puts settings in front. -/
def prepend (before : List Setting) : Reading → Reading
  | settings all superfluous => settings (before ++ all) superfluous
  | broken all => broken (before ++ all)

/-- Notes that something is of no use. -/
def withSuperfluous : Reading → Reading
  | settings all _ => settings all true
  | r => r

end Reading

/-- The settings of words, behind a word whose settings are given. -/
def readWords : Expansion → List Word → Reading
  | ⟨before, none⟩, [] => .settings before false
  | ⟨_, some _⟩, [] => .broken []
  | ⟨before, some switch⟩, .value s :: rest =>
    (readWords ⟨[], none⟩ rest).prepend (before ++ [⟨switch, some s⟩])
  | ⟨_, some _⟩, _ :: _ => .broken []
  | ⟨before, none⟩, .option switch long attached :: rest =>
    (match expand ((attached.getD "").length + 1) switch long attached with
      | some e => readWords e rest
      | none => .broken []).prepend before
  | ⟨before, none⟩, _ :: rest => ((readWords ⟨[], none⟩ rest).withSuperfluous).prepend before

/-- **The settings of a call.**  If a name is cut too short, nothing makes sense. -/
def readCall (words : List String) : Reading :=
  let ws := Word.ofTexts words
  if ws.contains .ambiguous then .broken [] else readWords ⟨[], none⟩ ws

end Console

end SciCalc
