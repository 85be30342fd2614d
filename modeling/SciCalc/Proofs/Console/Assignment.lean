/-
  Assignments at the console.

  1. **Lines** (`words_assignmentLine`, `exists_trim_assignmentLine`) — the line `name = e` has the words of the
     expression behind the name and the equals sign, and trimming it trims the expression from behind alone.

  2. **Commands** (`ofWords?_cases`, `ofLine_assignmentLine`) — the line is the assignment of the trimmed expression
     unless a command takes it first (`Taken`).  It is the definition of no function, for no parenthesis follows the
     name.

  3. **Replies** (`reply_of_taken`) — a command that takes the line leaves the console as it is.

  4. **Theorem** (`reply_assignmentLine`) — any other line binds the name to the value of the expression, as an
     assignment to the calculator does; the trimmed expression has the same value (`Calculator.value_trim`).  Not all
     names can be assigned in this way (`assignments_taken`).
-/
import SciCalc.Console.Session
import SciCalc.Proofs.Calculator.Namespace
import SciCalc.Proofs.Calculator.Trimming

namespace SciCalc

open Attempt

variable {name e line : String} {ws : List String}

namespace Text

/-- A name has no blanks, and it is not empty. -/
theorem solid_of_isName (h : isName name = true) :
    name.toList ≠ [] ∧ ∀ c ∈ name.toList, isBlank c = false := by
  obtain ⟨c, rest, heq, hstart, hrest⟩ := exists_of_isName h
  have hfirst : isNamePart c = true := by
    rw [isNamePart, hstart, Bool.true_or]
  have hall : ∀ d ∈ name.toList, isNamePart d = true := by
    rw [heq]
    exact List.forall_mem_cons.mpr ⟨hfirst, List.all_eq_true.mp hrest⟩
  refine ⟨?_, fun d hd => Token.isBlank_of_isNamePart (isNamePart_token (hall d hd))⟩
  rw [heq]
  exact List.cons_ne_nil _ _

end Text

namespace Console

/-! ## Lines -/

/-- The line that assigns an expression to a name. -/
def assignmentLine (name expression : String) : String := name ++ " = " ++ expression

theorem toList_assignmentLine (name e : String) :
    (assignmentLine name e).toList = name.toList ++ ' ' :: (['='] ++ ' ' :: e.toList) := by
  have hsign : " = ".toList = [' ', '=', ' '] := rfl
  rw [assignmentLine, String.toList_append, String.toList_append, hsign, List.append_assoc]
  rfl

/-- The words of the line are the name, the equals sign and those of the expression. -/
theorem words_assignmentLine (hname : Text.isName name = true) :
    Text.words (Text.trim (assignmentLine name e)) = name :: "=" :: Text.words e := by
  obtain ⟨hne, hsolid⟩ := Text.solid_of_isName hname
  have hequals : ∀ c ∈ ['='], Text.isBlank c = false := List.forall_mem_singleton.mpr (by decide)
  rw [Text.words_trim, Text.words, toList_assignmentLine, Text.wordsFrom_word hne hsolid (by decide),
    Text.wordsFrom_word (List.cons_ne_nil _ _) hequals (by decide), List.map_cons, String.ofList_toList]
  rfl

/-- Trimming the line trims the expression from behind. -/
theorem exists_trim_assignmentLine (hname : Text.isName name = true) (he : Text.trimChars e.toList ≠ []) :
    ∃ gap, Token.Blanks gap ∧ (Text.trim (assignmentLine name e)).toList =
      name.toList ++ ' ' :: (['='] ++ ' ' :: (gap ++ Text.trimChars e.toList)) := by
  obtain ⟨hne, hsolid⟩ := Text.solid_of_isName hname
  obtain ⟨gap, gap', hsplit, hgap, hgap', -, hlast⟩ := Text.exists_margins e.toList
  refine ⟨gap, hgap, ?_⟩
  have hline : (assignmentLine name e).toList =
      (name.toList ++ ' ' :: (['='] ++ ' ' :: (gap ++ Text.trimChars e.toList))) ++ gap' := by
    rw [toList_assignmentLine]
    conv => lhs; rw [hsplit]
    simp only [List.append_assoc, List.cons_append]
  have hfirst : (assignmentLine name e).toList.head?.any Text.isBlank = false := by
    rw [toList_assignmentLine]
    cases hcs : name.toList with
    | nil => exact absurd hcs hne
    | cons c cs => exact hsolid c (by rw [hcs]; exact List.mem_cons_self)
  rw [Text.trim, String.toList_ofList, Text.trimChars, Text.trimLeft, Text.dropWhile_of_stops hfirst, hline]
  refine Text.trimRight_append hgap' ?_
  -- the last character is that of the trimmed expression
  have hends : name.toList ++ ' ' :: (['='] ++ ' ' :: (gap ++ Text.trimChars e.toList)) =
      (name.toList ++ ' ' :: (['='] ++ ' ' :: gap)) ++ Text.trimChars e.toList := by
    simp only [List.append_assoc, List.cons_append]
  rw [hends, List.getLast?_append_of_ne_nil _ he]
  exact hlast

/-! ## Commands -/

/-- A command takes the line: some commands look at the first word alone, and one takes two words behind it. -/
def Taken (name : String) (ws : List String) : Prop :=
  Text.lower name ∈ ["quit", "exit", "help", "rpn"] ∨ Text.lower name = "mode" ∧ ws.length = 1

instance (name : String) (ws : List String) : Decidable (Taken name ws) := inferInstanceAs (Decidable (_ ∨ _))

namespace Command

/-- **The command that the words of the line are**, if they are one. -/
theorem ofWords?_cases (hwords : Text.words line = name :: "=" :: ws) (hne : ws ≠ []) :
    (Text.lower name ∈ ["quit", "exit"] ∧ ofWords? line = some .quit) ∨
    (Text.lower name = "help" ∧ ofWords? line = some .help) ∨
    (Text.lower name = "rpn" ∧ ofWords? line = some (.rearrange (Text.afterFirstWord line))) ∨
    (Text.lower name = "mode" ∧ ∃ w, ws = [w] ∧ ofWords? line = some (.setMode "=" w)) ∨
    (¬ Taken name ws ∧ ofWords? line = none) := by
  unfold ofWords?
  rw [hwords]
  dsimp only
  split
  case h_1 h => exact Or.inl ⟨by rw [h]; decide, rfl⟩
  case h_2 h => exact Or.inl ⟨by rw [h]; decide, rfl⟩
  case h_3 h => exact Or.inr (Or.inl ⟨h, rfl⟩)
  case h_8 h heq =>
    obtain ⟨rfl, hws⟩ := List.cons.inj heq
    exact Or.inr (Or.inr (Or.inr (Or.inl ⟨h, _, hws, rfl⟩)))
  case h_10 h heq => exact absurd (List.cons.inj heq).2 hne
  case h_11 h _ => exact Or.inr (Or.inr (Or.inl ⟨h, rfl⟩))
  case h_12 hquit hexit hhelp _ _ _ _ hmode _ _ hrpn =>
    refine Or.inr (Or.inr (Or.inr (Or.inr ⟨?_, rfl⟩)))
    rintro (hmem | ⟨h, hlength⟩)
    · simp only [List.mem_cons, List.not_mem_nil, or_false] at hmem
      rcases hmem with h | h | h | h
      · exact hquit h
      · exact hexit h
      · exact hhelp h
      · exact hrpn _ _ h rfl
    · obtain ⟨w, rfl⟩ := List.length_eq_one_iff.mp hlength
      exact hmode _ _ h rfl
  all_goals
    rename_i heq
    cases heq

/-- The name that a text begins with is taken from it. -/
theorem takeName?_append (hname : Text.isName name = true) {rest : List Char}
    (hrest : rest.head?.any Text.isNamePart = false) :
    takeName? (name.toList ++ rest) = some (name.toList, rest) := by
  obtain ⟨c, cs, heq, hstart, hcs⟩ := Text.exists_of_isName hname
  have hall := List.all_eq_true.mp hcs
  have hfirst : Text.isBlank c = false := by
    refine (Text.solid_of_isName hname).2 c ?_
    rw [heq]
    exact List.mem_cons_self
  have hstops : (c :: (cs ++ rest)).head?.any Text.isBlank = false := hfirst
  rw [takeName?, heq, List.cons_append, Text.trimLeft, Text.dropWhile_of_stops hstops]
  dsimp only
  rw [if_pos hstart, Text.takeWhile_append_of_stops hall hrest, Text.dropWhile_append_of_stops hall hrest]

/-- A text without line feeds is one line. -/
theorem takeLine?_of_not_mem {cs : List Char} (hne : cs ≠ []) (hline : '\n' ∉ cs) : takeLine? cs = some cs := by
  have hall : ∀ c ∈ cs, (decide (c ≠ '\n')) = true := by
    intro c hc
    refine decide_eq_true ?_
    rintro rfl
    exact hline hc
  rw [takeLine?, List.takeWhile_eq_self_iff.mpr hall, List.dropWhile_eq_nil_iff.mpr hall]
  cases cs with
  | nil => exact absurd rfl hne
  | cons c cs => rfl

/-- What stands behind an equals sign and a blank is what is assigned. -/
theorem takeRight?_equals {gap core : List Char} (hgap : Token.Blanks gap) (hne : core ≠ [])
    (hcore : core.head?.any Text.isBlank = false) (hline : '\n' ∉ core) :
    takeRight? (' ' :: (['='] ++ ' ' :: (gap ++ core))) = some core := by
  have hleft : Text.trimLeft (' ' :: (['='] ++ ' ' :: (gap ++ core))) = '=' :: ' ' :: (gap ++ core) := rfl
  have hright : Text.trimLeft (' ' :: (gap ++ core)) = core := Text.trimLeft_append hgap hcore
  rw [takeRight?, hleft]
  split
  case h_1 heq => exact absurd (List.cons.inj (List.cons.inj heq).2).1 (by decide)
  case h_2 heq =>
    obtain ⟨-, rfl⟩ := List.cons.inj heq
    rw [hright]
    exact takeLine?_of_not_mem hne hline
  case h_3 hother => exact absurd rfl (hother _)

/-- **The line is the assignment of the trimmed expression**, unless a command takes it. -/
theorem ofLine_assignmentLine (hname : Text.isName name = true) (he : Text.trimChars e.toList ≠ [])
    (hline : '\n' ∉ Text.trimChars e.toList)
    (hnone : ofWords? (Text.trim (assignmentLine name e)) = none) :
    ofLine (Text.trim (assignmentLine name e)) = .assign name (Text.trim e) := by
  obtain ⟨gap, hgap, htrim⟩ := exists_trim_assignmentLine hname he
  obtain ⟨-, -, -, -, -, hfirst, -⟩ := Text.exists_margins e.toList
  have hblank : Text.isNamePart ' ' = false := by decide
  have htaken : takeName? (Text.trim (assignmentLine name e)).toList =
      some (name.toList, ' ' :: (['='] ++ ' ' :: (gap ++ Text.trimChars e.toList))) := by
    rw [htrim]
    exact takeName?_append hname hblank
  have hdefinition : definition? (Text.trim (assignmentLine name e)) = none := by
    rw [definition?, htaken]
    rfl
  have hassignment : assignment? (Text.trim (assignmentLine name e)) = some (.assign name (Text.trim e)) := by
    rw [assignment?, htaken]
    simp only [Option.bind_eq_bind, Option.bind_some, takeRight?_equals hgap he hfirst hline, String.ofList_toList]
    rfl
  rw [ofLine, hnone, hdefinition, hassignment]
  rfl

/-- A line is the command of its words. -/
theorem ofLine_of_ofWords? {command : Command} (h : ofWords? line = some command) : ofLine line = command := by
  rw [ofLine, h]
  rfl

end Command

/-! ## Replies -/

variable {c : Console}

/-- The reply to a line that is not blank is what its command leads to; one that fails changes nothing. -/
theorem reply_of_ofLine {command : Command} (hne : Text.trim line ≠ "")
    (h : Command.ofLine (Text.trim line) = command) :
    c.reply line = match c.perform command with
      | .ok r => r
      | .error f => ⟨failureNotes f, c, true⟩ := by
  have hblank : (Text.trim line).isEmpty = false := by
    rw [← Bool.not_eq_true, String.isEmpty_iff]
    exact hne
  rw [reply, hblank, h]
  rfl

/-- The line of an assignment is not blank. -/
theorem trim_assignmentLine_ne (hname : Text.isName name = true) (he : Text.trimChars e.toList ≠ []) :
    Text.trim (assignmentLine name e) ≠ "" := by
  obtain ⟨gap, -, hline⟩ := exists_trim_assignmentLine hname he
  intro h
  rw [h] at hline
  exact List.append_ne_nil_of_right_ne_nil _ (List.cons_ne_nil _ _) hline.symm

/-- **A command that takes the line leaves the console as it is.** -/
theorem reply_of_taken (hname : Text.isName name = true) (he : Text.trimChars e.toList ≠ [])
    (htaken : Taken name (Text.words e)) :
    (c.reply (assignmentLine name e)).console = c ∧
      ((c.reply (assignmentLine name e)).goesOn = true ↔ Text.lower name ∉ ["quit", "exit"]) := by
  have hne := trim_assignmentLine_ne hname he
  rcases Command.ofWords?_cases (words_assignmentLine hname) (Text.words_ne_nil he) with
    ⟨hleave, hcommand⟩ | ⟨hkey, hcommand⟩ | ⟨hkey, hcommand⟩ | ⟨hkey, w, -, hcommand⟩ | ⟨hfree, -⟩
  · rw [reply_of_ofLine hne (Command.ofLine_of_ofWords? hcommand), perform]
    exact ⟨rfl, iff_of_false Bool.false_ne_true (not_not.mpr hleave)⟩
  · rw [reply_of_ofLine hne (Command.ofLine_of_ofWords? hcommand), perform, hkey]
    exact ⟨rfl, iff_of_true rfl (by decide)⟩
  · rw [reply_of_ofLine hne (Command.ofLine_of_ofWords? hcommand), perform, hkey]
    cases c.calculator.postfixText (.text (Text.afterFirstWord (Text.trim (assignmentLine name e)))) with
    | ok text => exact ⟨rfl, iff_of_true rfl (by decide)⟩
    | error f => exact ⟨rfl, iff_of_true rfl (by decide)⟩
  · -- no mode is named by an equals sign
    have hunknown : c.perform (.setMode "=" w) = .error (.request (.unknownMode "=")) := rfl
    rw [reply_of_ofLine hne (Command.ofLine_of_ofWords? hcommand), hunknown, hkey]
    exact ⟨rfl, iff_of_true rfl (by decide)⟩
  · exact absurd htaken hfree

/-- **A line that no command takes assigns the trimmed expression.** -/
theorem reply_of_not_taken (hname : Text.isName name = true) (he : Text.trimChars e.toList ≠ [])
    (hline : '\n' ∉ Text.trimChars e.toList) (hfree : ¬ Taken name (Text.words e)) :
    (c.reply (assignmentLine name e)).goesOn = true ∧
      (c.reply (assignmentLine name e)).console =
        { c with calculator := (c.calculator.assign (.text name) (.text (Text.trim e))).2 } := by
  have hnone : Command.ofWords? (Text.trim (assignmentLine name e)) = none := by
    rcases Command.ofWords?_cases (words_assignmentLine hname) (Text.words_ne_nil he) with
      ⟨hkey, -⟩ | ⟨hkey, -⟩ | ⟨hkey, -⟩ | ⟨hkey, w, hw, -⟩ | ⟨-, hnone⟩
    · exact absurd (Or.inl (List.mem_append_left ["help", "rpn"] hkey)) hfree
    · exact absurd (Or.inl (by rw [hkey]; decide)) hfree
    · exact absurd (Or.inl (by rw [hkey]; decide)) hfree
    · exact absurd (Or.inr ⟨hkey, by rw [hw]; rfl⟩) hfree
    · exact hnone
  rw [reply_of_ofLine (trim_assignmentLine_ne hname he) (Command.ofLine_assignmentLine hname he hline hnone)]
  exact ⟨rfl, rfl⟩

/-! ## Theorem -/

/-- **Assignments assign, where no command takes them.**  Typed on one line at the console of a reachable calculator,
    `name = e` binds a name of no function and no constant to the value of the expression, as an assignment of the
    expression does, and the session goes on.  A command takes the line if the name is that of one that does not look
    at the words behind it, or of the one that sets a mode and the expression is one word; then nothing is assigned,
    and the session ends if the name is that of a command that ends it. -/
theorem reply_assignmentLine (reached : Calculator.Reachable c.calculator) (hname : Text.isName name = true)
    (hfunction : c.calculator.functions.contains name = false) (hconstant : Vocabulary.isConstant name = false)
    {v : Value} (hvalue : (c.calculator.calculate (.text e)).1.value = some v) :
    (¬ Taken name (Text.words e) → '\n' ∉ (Text.trim e).toList →
      (c.reply (assignmentLine name e)).goesOn = true ∧
      (c.reply (assignmentLine name e)).console =
        { c with calculator := (c.calculator.assign (.text name) (.text (Text.trim e))).2 } ∧
      (c.reply (assignmentLine name e)).console.calculator.bindings =
        (c.calculator.assign (.text name) (.text e)).2.bindings ∧
      (c.reply (assignmentLine name e)).console.calculator.bindings.find? name = some v) ∧
    (Taken name (Text.words e) →
      (c.reply (assignmentLine name e)).console = c ∧
      ((c.reply (assignmentLine name e)).goesOn = true ↔ Text.lower name ∉ ["quit", "exit"])) := by
  have he := Calculator.trimChars_ne_nil_of_value reached hvalue
  refine ⟨fun hfree hline => ?_, reply_of_taken hname he⟩
  rw [Text.trim, String.toList_ofList] at hline
  obtain ⟨hgoes, hconsole⟩ := reply_of_not_taken (c := c) hname he hline hfree
  have haccepted := Calculator.variableName_of_isName hname hfunction hconstant
  have bound : ∀ {expression : String}, (c.calculator.calculate (.text expression)).1.value = some v →
      (c.calculator.assign (.text name) (.text expression)).2.bindings = c.calculator.bindings.put name v := by
    intro expression h
    rw [Calculator.assign_of_name haccepted, h]
    exact congrArg (Bindings.put name v) (Calculator.bindings_calculate c.calculator (.text expression))
  refine ⟨hgoes, hconsole, ?_, ?_⟩
  · rw [hconsole, bound hvalue]
    exact bound (Calculator.value_trim reached hvalue)
  · rw [hconsole]
    show Bindings.find? (c.calculator.assign _ _).2.bindings name = _
    rw [bound (Calculator.value_trim reached hvalue), Bindings.find?_put]

/-- In the line `Mode = \t-y // 2 ` there are too many words for a command, so that the value of the expression between
    the blanks is assigned; the line `Mode = 5` is a command. -/
theorem reply_assignmentLine_mode :
    let c : Console := ⟨Calculator.session 10 [.assign (.text "y") (.text "7")], .human⟩
    let v := Value.real (Double.ofInt (-4))
    (c.calculator.calculate (.text "\t-y // 2 ")).1.value = some v ∧
      (c.reply "Mode = \t-y // 2 ").goesOn = true ∧
      (c.reply "Mode = \t-y // 2 ").console.calculator =
        (c.calculator.assign (.text "Mode") (.text "-y // 2")).2 ∧
      (c.reply "Mode = \t-y // 2 ").console.calculator.bindings.find? "Mode" = some v ∧
      (c.calculator.calculate (.text "5")).1.value = some (.real (Double.ofInt 5)) ∧
      (c.reply "Mode = 5").console = c := by
  intro c v
  have reached : Calculator.Reachable c.calculator := Calculator.reachable_session 10 _
  have hfunction : c.calculator.functions.contains "Mode" = false := by decide +kernel
  have hconstant : Vocabulary.isConstant "Mode" = false := by decide +kernel
  have hvalue : (c.calculator.calculate (.text "\t-y // 2 ")).1.value = some v := by decide +kernel
  have hfive : (c.calculator.calculate (.text "5")).1.value = some (.real (Double.ofInt 5)) := by decide +kernel
  have hfree : ¬ Taken "Mode" (Text.words "\t-y // 2 ") := by decide +kernel
  have htaken : Taken "Mode" (Text.words "5") := by decide +kernel
  have htrim : Text.trim "\t-y // 2 " = "-y // 2" := by decide
  have hline : '\n' ∉ (Text.trim "\t-y // 2 ").toList := by decide
  clear_value c v
  obtain ⟨hgoes, hconsole, -, hbound⟩ :=
    (reply_assignmentLine reached (by decide) hfunction hconstant hvalue).1 hfree hline
  have hsame := ((reply_assignmentLine reached (by decide) hfunction hconstant hfive).2 htaken).1
  rw [htrim] at hconsole
  exact ⟨hvalue, hgoes, congrArg calculator hconsole, hbound, hfive, hsame⟩

/-- **Where a command takes an assignment.**  The names of four commands, and with one word behind the equals sign that
    of the command for a mode, can be assigned, but not at the console: the lines `mode = 5`, `help = 5` and `rpn = 5`
    bind nothing, and neither do `quit = 5` and `exit = 5`, which end the session. -/
theorem assignments_taken :
    let c := new .human
    (∀ name ∈ ["mode", "help", "rpn", "quit", "exit"], Text.isName name = true ∧
      c.calculator.functions.contains name = false ∧ Vocabulary.isConstant name = false ∧
      (c.calculator.assign (.text name) (.text "5")).2.bindings.find? name = some (.real (Double.ofInt 5)) ∧
      (c.reply (assignmentLine name "5")).console.calculator.bindings.find? name = none) ∧
    (c.reply "quit = 5").goesOn = false ∧ (c.reply "exit = 5").goesOn = false := by
  decide +kernel

end Console

end SciCalc
