/-
  Variables that are read back.

  1. **Names alone** (`lexes_name`, `calculate_name`) — a name that is no function and no constant is one token
     and its own postfix order; a calculation of it gives what it is bound to, brought into the active regime.

  2. **Theorem** (`read_after_assign`) — a name has the value that was assigned to it.  The name must not be
     longer than an expression may be, and the value no stray one of the exact regime (`not_always_read_back`).
-/
import SciCalc.Proofs.Calculator.Display
import SciCalc.Proofs.Token.Argument
import SciCalc.Proofs.Value.Rereading

namespace SciCalc

/-! ## Names -/

namespace Text

/-- The text is a name and nothing more: a line feed behind it is not overlooked. -/
def isName (s : String) : Bool :=
  match s.toList with
  | [] => false
  | c :: rest => isNameStart c && rest.all isNamePart

/-- A name is a first character and others. -/
theorem exists_of_isName {s : String} (h : isName s = true) :
    ∃ c rest, s.toList = c :: rest ∧ isNameStart c = true ∧ rest.all isNamePart = true := by
  unfold isName at h
  rcases hs : s.toList with _ | ⟨c, rest⟩
  · rw [hs] at h
    cases h
  · rw [hs] at h
    exact ⟨c, rest, rfl, Bool.and_eq_true_iff.mp h⟩

/-- A name is valid. -/
theorem isValidName_of_isName {s : String} (h : isName s = true) : isValidName s = true := by
  have tail : ∀ cs : List Char, cs.all isNamePart = true → isNameTail cs = true := by
    intro cs
    induction cs with
    | nil => exact fun _ => rfl
    | cons c rest ih =>
      intro hall
      obtain ⟨hc, hrest⟩ := Bool.and_eq_true_iff.mp hall
      cases rest with
      | nil => rw [isNameTail, hc, Bool.true_or]
      | cons d rest => rw [isNameTail, hc, ih hrest, Bool.true_and]; exact nofun
  obtain ⟨c, rest, heq, hstart, hrest⟩ := exists_of_isName h
  unfold isValidName
  rw [heq]
  exact Bool.and_eq_true_iff.mpr ⟨hstart, tail rest hrest⟩

/-- A name begins with a character that begins a name in an expression as well. -/
theorem isNameStart_token {c : Char} (h : isNameStart c = true) : Token.isNameStart c = true := by
  unfold isNameStart at h
  unfold Token.isNameStart isLetter
  rcases Bool.or_eq_true_iff.mp h with h | h <;> simp [h]

theorem isNamePart_token {c : Char} (h : isNamePart c = true) : Token.isNamePart c = true := by
  rcases Bool.or_eq_true_iff.mp h with h | h
  · rw [Token.isNamePart, isNameStart_token h, Bool.true_or]
  · rw [Token.isNamePart, h, Bool.or_true]

/-- A name is one in expressions. -/
theorem isName_token {s : String} (h : isName s = true) : Token.IsName s := by
  obtain ⟨c, rest, heq, hstart, hrest⟩ := exists_of_isName h
  exact ⟨c, rest, heq, isNameStart_token hstart, fun d hd => isNamePart_token (List.all_eq_true.mp hrest d hd)⟩

end Text

/-- **A name alone is one token.** -/
theorem Token.lexes_name {v : Vocabulary} {complex : Bool} {name : String} (h : IsName name) :
    Lexes v complex true 0 name.toList
      [⟨classify v complex name, name, 0, none⟩, ⟨.finish, "", (name.length : Nat), none⟩] := by
  have hend : Lexes v complex (opensOperand (classify v complex name)) (0 + name.toList.length) [] _ := .finish
  have hname : Reads v complex true (classify v complex name) name.toList [] := h.reads rfl
  have hlexes := Lexes.token hname hend
  rwa [List.append_nil, Nat.zero_add, String.ofList_toList, String.length_toList] at hlexes

/-! ## Values that are shown -/

/-- The sign of a decimal zero is not shown. -/
theorem Value.shown_unsigned (v : Value) : v.unsigned.shown = v.shown := by
  unfold unsigned
  split
  · rename_i s e ctx
    have hzero : ∀ s, formatDecimal (.finite s 0 e) ctx.precision =
        if ctx.precision = 0 then .error (.fault (.domain "valid range for prec is [1, MAX_PREC]")) else .ok "0" := by
      intro s
      unfold formatDecimal Context.entered
      dsimp only
      split <;> rfl
    exact (hzero false).trans (hzero s).symm
  · rfl

theorem Value.kind_unsigned (v : Value) : v.unsigned.kind = v.kind := by
  unfold unsigned
  split <;> rfl

namespace Calculator

variable {c : Calculator} {name : String} {p expression : Plain} {v w : Value}

/-- An assignment has a value if its name is accepted and the calculation has this value. -/
theorem value_assign_iff :
    (c.assign p expression).1.value = some v ↔
      (∃ name, c.variableName p = .ok name) ∧ (c.calculate expression).1.value = some v := by
  cases hname : c.variableName p with
  | error failure =>
    constructor
    · intro h
      rw [assign, hname] at h
      cases h
    · rintro ⟨⟨name, h⟩, -⟩
      cases h
  | ok name => rw [assign_of_name hname, and_iff_right ⟨name, rfl⟩]

/-- A name that is accepted is that of no function and of no constant. -/
theorem variableName_eq_ok {s : String} (h : c.variableName p = .ok s) :
    p = .text s ∧ c.functions.contains s = false ∧ Vocabulary.isConstant s = false := by
  unfold variableName at h
  split at h
  · cases h
  · rename_i t hvalid
    split at h
    · cases h
    · rename_i hfree
      cases h
      rw [Bool.or_eq_true, not_or, Bool.not_eq_true, Bool.not_eq_true] at hfree
      exact ⟨(Registry.validName_eq_some hvalid).1, hfree⟩

/-- A name of no function and of no constant is accepted. -/
theorem variableName_of_isName {s : String} (hname : Text.isName s = true)
    (hfunction : c.functions.contains s = false) (hconstant : Vocabulary.isConstant s = false) :
    c.variableName (.text s) = .ok s := by
  have hvalid : Registry.validName (.text s) = some s := if_pos (Text.isValidName_of_isName hname)
  rw [variableName, hvalid]
  dsimp only
  rw [hfunction, hconstant, if_neg (by decide)]

/-- The tokens of a name alone. -/
theorem tokens_name (reached : Reachable c) (hname : Token.IsName name) (hlength : name.length ≤ Limit.inputLength) :
    c.tokens (.text name) =
      .ok [⟨Token.classify c.vocabulary c.modes.complexEnabled name, name, 0, none⟩,
        ⟨.finish, "", (name.length : Nat), none⟩] := by
  have separable : c.vocabulary.operators.Separable :=
    Operators.separable_of_table (Or.inr reached.coherent.operators)
  exact (Token.tokenize_eq_ok_iff separable).mpr ⟨Int.ofNat_le.mpr hlength, Token.lexes_name hname⟩

/-- A name of no function and of no constant is that of a variable. -/
theorem classify_variable (hfunction : c.functions.contains name = false)
    (hconstant : Vocabulary.isConstant name = false) :
    Token.classify c.vocabulary c.modes.complexEnabled name = .variable := by
  have hnone : Constant.find? name = none := Option.not_isSome_iff_eq_none.mp (Bool.eq_false_iff.mp hconstant)
  have hfunction' : c.vocabulary.isFunction name = false := hfunction
  rw [Token.classify, hfunction', if_neg (by decide), hnone]

/-- **A name alone is calculated as what it is bound to**, brought into the active regime. -/
theorem calculate_name (reached : Reachable c) (hname : Token.IsName name)
    (hlength : name.length ≤ Limit.inputLength) (hfunction : c.functions.contains name = false)
    (hconstant : Vocabulary.isConstant name = false) (hbound : c.bindings.find? name = some v)
    (hread : c.modes.normalize v = .ok w) {shown : String} (hshown : w.shown = .ok shown) :
    (c.calculate (.text name)).1.succeeded = true ∧ (c.calculate (.text name)).1.value = some w := by
  have htokens := tokens_name reached hname hlength
  rw [classify_variable hfunction hconstant] at htokens
  have hlookup : Evaluation.lookup c.begin.environment name = some v := hbound
  have heval : c.begin.environment.evaluate [⟨.variable, name, 0, none⟩] = .ok ⟨w, 0⟩ :=
    (evaluate_variable hlookup rfl w).mpr hread
  exact calculate_of_stages htokens (Postfix.ofTokens_operand c.operators (Or.inr (Or.inr rfl)) name 0 _) heval hshown

/-- **The value of a calculation is read again as itself.** -/
theorem rereads_of_calculate (reached : Reachable c) (h : (c.calculate expression).1.value = some v) :
    c.modes.Rereads v := by
  obtain ⟨ts, ps, outcome, -, -, heval, rfl⟩ := exists_outcome_of_calculate h
  have hleast : Limit.leastPrecision ≤ c.begin.environment.modes.precision := reached.limited.1
  exact Evaluation.evaluateWith_holds (Modes.normalize_rereads hleast) (Modes.literal_rereads hleast) ps outcome heval

/-! ## Theorem -/

/-- **What has been assigned is read back.**  A calculation of the name gives the value of the assignment, where
    only a decimal zero may have lost its sign. -/
theorem read_after_assign (reached : Reachable c) (hname : Text.isName name = true)
    (hlength : name.length ≤ Limit.inputLength)
    (hvalue : (c.assign (.text name) expression).1.value = some v) (hstray : c.modes.regime = .exact → ¬ v.Stray) :
    ∃ w, ((c.assign (.text name) expression).2.calculate (.text name)).1.succeeded = true ∧
      ((c.assign (.text name) expression).2.calculate (.text name)).1.value = some w ∧
      w.kind = v.kind ∧ (w = v ∨ w = v.unsigned) := by
  obtain ⟨⟨s, haccepted⟩, hcalculated⟩ := value_assign_iff.mp hvalue
  obtain ⟨heq, hfunction, hconstant⟩ := variableName_eq_ok haccepted
  obtain rfl := Plain.text.inj heq
  obtain ⟨hbound, hmodes⟩ := (Binds.assign haccepted hvalue).perform
  obtain ⟨_, _, _, shown, -, -, -, -, hshown, -⟩ := exists_stages_of_calculate hcalculated
  have reached' : Reachable (c.assign (.text name) expression).2 :=
    reached.perform (.assign (.text name) expression)
  have hfunction' : (c.assign (.text name) expression).2.functions.contains name = false := by
    rwa [(sameSettings_assign c _ _).functions]
  have hread : ∀ {w}, c.modes.normalize v = .ok w →
      (c.assign (.text name) expression).2.modes.normalize v = .ok w := by
    intro w h
    have hmodes' : (c.assign (.text name) expression).2.modes = c.modes := hmodes
    rwa [hmodes']
  -- so a calculation of the name gives what the value is read as
  have read := fun {w : Value} =>
    calculate_name (w := w) reached' (Text.isName_token hname) hlength hfunction' hconstant hbound
  rcases rereads_of_calculate reached hcalculated hstray with hkept | ⟨-, hkept⟩
  · obtain ⟨hsucceeded, hresult⟩ := read (hread hkept) hshown
    exact ⟨v, hsucceeded, hresult, rfl, Or.inl rfl⟩
  · obtain ⟨hsucceeded, hresult⟩ := read (hread hkept) (v.shown_unsigned.trans hshown)
    exact ⟨v.unsigned, hsucceeded, hresult, v.kind_unsigned, Or.inr rfl⟩

/-- A third, with the variable read back in the decimal regime. -/
theorem read_after_assign_third :
    let c := (new 10).inRegime .decimal
    let v := Value.decimal (.finite false 33333333333333333333333333333333333333333333333333 (-50)) c.modes.context
    (c.assign (.text "x_1") (.text "1/3")).1.value = some v ∧
      ∃ w, ((c.assign (.text "x_1") (.text "1/3")).2.calculate (.text "x_1")).1.succeeded = true ∧
        ((c.assign (.text "x_1") (.text "1/3")).2.calculate (.text "x_1")).1.value = some w ∧
        w.kind = v.kind ∧ (w = v ∨ w = v.unsigned) := by
  intro c v
  have reached : Reachable c := .perform _ (.new 10)
  have hvalue : (c.assign (.text "x_1") (.text "1/3")).1.value = some v := by decide +kernel
  have hregime : c.modes.regime ≠ .exact := by decide +kernel
  exact ⟨hvalue, read_after_assign reached (by decide) (by decide) hvalue fun h => absurd h hregime⟩

/-! ## What is not read back -/

/-- An expression that is too long has no value. -/
theorem value_of_long {s : String} (h : Limit.inputLength < s.length) :
    (c.calculate (.text s)).1.value = none := by
  have htokens : c.begin.tokens (.text s) = .error (.tooLong s.length Limit.inputLength) := by
    rw [tokens, Token.ofPlain, Token.tokenize, if_pos (Int.ofNat_lt.mpr h)]
  rw [calculate, evaluate, htokens]
  rfl

/-- A name that is one character longer than an expression may be. -/
def longName : String := String.ofList (List.replicate (Limit.inputLength + 1) 'x')

theorem toList_longName : longName.toList = List.replicate (Limit.inputLength + 1) 'x' := String.toList_ofList

theorem length_longName : longName.length = Limit.inputLength + 1 := by
  rw [← String.length_toList, toList_longName, List.length_replicate]

theorem isName_longName : Text.isName longName = true := by
  rw [Text.isName, toList_longName, List.replicate_succ]
  exact Bool.and_eq_true_iff.mpr ⟨by decide, List.all_eq_true.mpr fun d hd => by
    rw [List.eq_of_mem_replicate hd]
    decide⟩

theorem lower_longName : Text.lower longName = longName := by
  have hsigma : (List.replicate (Limit.inputLength + 1) 'x').contains Text.capitalSigma = false := by
    rw [Bool.eq_false_iff, ne_eq, List.contains_iff_mem]
    exact fun h => absurd (List.eq_of_mem_replicate h) (by decide)
  have hsame : Text.lowerChar 'x' = ['x'] := by decide
  rw [Text.lower, toList_longName, if_neg (Bool.eq_false_iff.mp hsigma), List.flatMap_replicate, hsame,
    List.flatten_replicate_singleton]
  rfl

/-- The name is longer than those of functions, aliases and constants. -/
theorem variableName_longName : (new 10).variableName (.text longName) = .ok longName := by
  have short : ∀ {s : String}, s.length ≤ Limit.inputLength → s ≠ longName := by
    rintro s h rfl
    rw [length_longName] at h
    omega
  have halias : (new 10).functions.aliasTarget? longName = none := by
    refine Option.map_eq_none_iff.mpr (List.find?_eq_none.mpr fun entry hentry => ?_)
    have hlength : ∀ entry ∈ Registry.defaultAliases, entry.1.length ≤ Limit.inputLength := by decide +kernel
    simpa using short (hlength entry hentry)
  have hfunction : (new 10).functions.contains longName = false := by
    have hlength : ∀ f ∈ Registry.builtinFunctions, f.name.length ≤ Limit.inputLength := by decide +kernel
    have hnone : (new 10).functions.lookup? longName = none :=
      List.find?_eq_none.mpr fun f hf => by simpa using short (hlength f hf)
    rw [Registry.contains, Registry.find?, Registry.resolve, lower_longName, halias, Option.getD_none, hnone]
    rfl
  have hconstant : Vocabulary.isConstant longName = false := by
    have hlength : ∀ k ∈ Constant.all, k.name.length ≤ Limit.inputLength := by decide +kernel
    have hnone : Constant.find? longName = none := by
      rw [Constant.find?, lower_longName]
      exact List.find?_eq_none.mpr fun k hk => by simpa using short (hlength k hk)
    rw [Vocabulary.isConstant, hnone]
    rfl
  exact variableName_of_isName isName_longName hfunction hconstant

/-- **Where the value is not read back.**  In the exact regime a numeral that is a little more than one is a whole
    double, and is read back as an integer; a decimal beyond the doubles is an infinite double there, which is not
    read back at all; and a name can be assigned that is too long for an expression. -/
theorem not_always_read_back :
    let c := (new 10).inRegime .exact
    let d := (((new 10).inRegime .decimal).perform (.assign (.text "y") (.text "1e400"))).inRegime .exact
    ((c.assign (.text "x") (.text "1.00000000000000000001")).1.value = some (.real Double.one) ∧
      ((c.assign (.text "x") (.text "1.00000000000000000001")).2.calculate (.text "x")).1.value
        = some (.integer 1)) ∧
    ((d.assign (.text "x") (.text "y")).1.value = some (.real (.infinite false)) ∧
      ((d.assign (.text "x") (.text "y")).2.calculate (.text "x")).1.value = none) ∧
    (Text.isName longName = true ∧ ((new 10).assign (.text longName) (.text "1")).1.value.isSome = true ∧
      (((new 10).assign (.text longName) (.text "1")).2.calculate (.text longName)).1.value = none) := by
  have hone : ((new 10).calculate (.text "1")).1.value.isSome = true := by decide +kernel
  obtain ⟨v, hv⟩ := Option.isSome_iff_exists.mp hone
  have hassigned : ((new 10).assign (.text longName) (.text "1")).1.value = some v :=
    value_assign_iff.mpr ⟨⟨longName, variableName_longName⟩, hv⟩
  refine ⟨by decide +kernel, by decide +kernel, isName_longName, by rw [hassigned]; rfl, value_of_long ?_⟩
  rw [length_longName]
  exact Nat.lt_succ_self _

end Calculator

end SciCalc
