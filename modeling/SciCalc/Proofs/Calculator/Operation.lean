/-
  Operations on a calculator and the states that they lead to.

  1. **Operations** (`Operation`) — everything a program can do to a calculator that changes it.  An
     operation that is refused leaves the calculator as it is, except for a definition that is refused after
     the old function has been given up.

  2. **Reachable calculators** (`Reachable`) — a new calculator, and any one after an operation.

  3. **What operations leave alone** (`sameSettings_perform`, `sameVocabulary_perform`, `sameMemory_perform`) — those
     that are answered by a result leave modes, operators and functions alone, those that are not about functions
     leave operators and functions alone, and those that are not answered leave alone what is remembered.

  4. **Where functions come from** (`origin_of_mem_perform`) — a function that there is after an operation
     was there before, or it is one that the operation registers, or its body has just been compiled.
-/
import SciCalc.Calculator.Analysis
import SciCalc.Proofs.Attempt

namespace SciCalc

open Attempt

/-! ## Operations -/

/-- The modes that can be set. -/
inductive ModeName where
  | angle
  | regime
  | complexPolicy
  | precision
  | rounding

/-- The modes with one of them set. -/
def Modes.set (m : Modes) : ModeName → Plain → Except Failure Modes
  | .angle, value => m.setAngle value
  | .regime, value => m.setRegime value
  | .complexPolicy, value => m.setComplex value
  | .precision, value => m.setPrecision value
  | .rounding, value => m.setRounding value

/-- What can be done to a calculator. -/
inductive Operation where
  | calculate (expression : Plain)
  | assign (name expression : Plain)
  | solve (expression unknown guess : Plain)
  | integrate (expression lower upper unknown : Plain)
  | setVariable (name value : Plain)
  | deleteVariable (name : String)
  | clearVariables
  | registerFunction (name arity : Plain) (call : Option (List Plain → Except Failure Plain))
      (description category : String)
  | defineFunction (name : Plain) (parameters : List Plain) (body : Plain)
  | removeFunction (name : String)
  | createAlias (name target : Plain)
  | removeAlias (name : String)
  | setMode (mode : ModeName) (value : Plain)
  | resetModes
  | clearHistory
  | reset

/-- The operation is answered by a result. -/
def Operation.isAnswered : Operation → Bool
  | calculate _ => true
  | assign .. => true
  | solve .. => true
  | integrate .. => true
  | _ => false

/-- The operation clears the history. -/
def Operation.clearsHistory : Operation → Bool
  | clearHistory => true
  | reset => true
  | _ => false

/-- The operation is about functions or their aliases. -/
def Operation.isOfFunctions : Operation → Bool
  | registerFunction .. => true
  | defineFunction .. => true
  | removeFunction _ => true
  | createAlias .. => true
  | removeAlias _ => true
  | reset => true
  | _ => false

namespace Calculator

/-- The calculator that an attempt leads to; a refused one leads nowhere. -/
def after (c : Calculator) (attempt : Except Failure Calculator) : Calculator :=
  match attempt with
  | .ok c' => c'
  | .error _ => c

/-- **The calculator after an operation.** -/
def perform (c : Calculator) : Operation → Calculator
  | .calculate expression => (c.calculate expression).2
  | .assign name expression => (c.assign name expression).2
  | .solve expression unknown guess => (c.solve expression unknown guess).2
  | .integrate expression lower upper unknown => (c.integrate expression lower upper unknown).2
  | .setVariable name value => c.after (c.setVariable name value)
  | .deleteVariable name => (c.deleteVariable name).2
  | .clearVariables => c.clearVariables
  | .registerFunction name arity call description category =>
    c.after ((c.registerFunction name arity call description category).map (·.2))
  | .defineFunction name parameters body => (c.defineFunction name parameters body).2
  | .removeFunction name => c.after ((c.removeFunction name).map (·.2))
  | .createAlias name target => c.after (c.createAlias name target)
  | .removeAlias name => { c with functions := (c.functions.removeAlias name).1 }
  | .setMode mode value => c.after ((c.modes.set mode value).map fun m => { c with modes := m })
  | .resetModes => { c with modes := .initial }
  | .clearHistory => c.clearHistory
  | .reset => c.reset

/-- **The calculators that operations lead to**, in any order and number, from a new one on. -/
inductive Reachable : Calculator → Prop where
  | new (historySize : Nat) : Reachable (.new historySize)
  | perform {c : Calculator} (op : Operation) : Reachable c → Reachable (c.perform op)

/-! ## Compiled expressions -/

/-- An expression is compiled if its tokens can be rearranged. -/
theorem compile_eq_ok {c : Calculator} {expression : Plain} {ps : List Token} :
    c.compile expression = .ok ps ↔ ∃ ts, c.tokens expression = .ok ts ∧ c.rearrange ts = .ok ps := by
  unfold compile
  cases c.tokens expression with
  | error cause => simp
  | ok ts => simp

/-! ## Operations that leave the settings alone -/

/-- Nothing but variables and what is remembered and counted is different. -/
def SameSettings (c c' : Calculator) : Prop :=
  ∃ bindings history lastResult calculations succeeded failed, c' =
    { c with
      bindings := bindings, history := history, lastResult := lastResult
      calculations := calculations, succeeded := succeeded, failed := failed }

theorem SameSettings.modes {c c' : Calculator} (h : SameSettings c c') : c'.modes = c.modes := by
  obtain ⟨_, _, _, _, _, _, rfl⟩ := h
  rfl

theorem SameSettings.functions {c c' : Calculator} (h : SameSettings c c') : c'.functions = c.functions := by
  obtain ⟨_, _, _, _, _, _, rfl⟩ := h
  rfl

theorem SameSettings.bind {c c' : Calculator} (h : SameSettings c c') (name : String) (v : Value) :
    SameSettings c (c'.bind name v) := by
  obtain ⟨_, _, _, _, _, _, rfl⟩ := h
  exact ⟨_, _, _, _, _, _, rfl⟩

/-- A calculation succeeds or fails. -/
theorem calculate_cases (c : Calculator) (expression : Plain) :
    (∃ v text tokenCount postfixLength operationCount, c.calculate expression =
        c.begin.succeed (expressionText expression) v text tokenCount postfixLength operationCount) ∨
      ∃ f tokenCount postfixLength, c.calculate expression = c.begin.fail f tokenCount postfixLength := by
  unfold calculate
  split
  · exact Or.inl ⟨_, _, _, _, _, rfl⟩
  · exact Or.inr ⟨_, _, _, rfl⟩

/-- **An assignment is a calculation whose value is bound** to the name, if the name is accepted. -/
theorem assign_of_name {c : Calculator} {name : Plain} {s : String} (h : c.variableName name = .ok s)
    (expression : Plain) :
    c.assign name expression = ((c.calculate expression).1,
      (c.calculate expression).1.value.elim (c.calculate expression).2 ((c.calculate expression).2.bind s)) := by
  rcases c.calculate_cases expression with ⟨v, text, n, k, m, heq⟩ | ⟨f, n, k, heq⟩
  · simp only [assign, h, heq]
    rfl
  · simp only [assign, h, heq]
    rfl

theorem sameSettings_calculate (c : Calculator) (expression : Plain) :
    SameSettings c (c.calculate expression).2 := by
  rcases c.calculate_cases expression with ⟨v, text, n, k, m, heq⟩ | ⟨f, n, k, heq⟩
  · rw [heq]
    exact ⟨_, _, _, _, _, _, rfl⟩
  · rw [heq]
    exact ⟨_, _, _, _, _, _, rfl⟩

theorem sameSettings_assign (c : Calculator) (name expression : Plain) :
    SameSettings c (c.assign name expression).2 := by
  cases h : c.variableName name with
  | error f =>
    rw [assign, h]
    exact ⟨_, _, _, _, _, _, rfl⟩
  | ok s =>
    have kept := sameSettings_calculate c expression
    rw [assign_of_name h]
    cases (c.calculate expression).1.value with
    | none => exact kept
    | some v => exact kept.bind s v

theorem sameSettings_conclude (c : Calculator) (what : String) (ending : Ending) :
    SameSettings c (c.begin.conclude what ending).2 := by
  cases ending <;> exact ⟨_, _, _, _, _, _, rfl⟩

/-- **An operation that is answered by a result leaves the settings alone.** -/
theorem sameSettings_perform (c : Calculator) {op : Operation} (h : op.isAnswered = true) :
    SameSettings c (c.perform op) := by
  cases op with
  | calculate expression => exact sameSettings_calculate c expression
  | assign name expression => exact sameSettings_assign c name expression
  | solve expression unknown guess => exact sameSettings_conclude c _ _
  | integrate expression lower upper unknown => exact sameSettings_conclude c _ _
  | _ => cases h

/-! ## Operations that leave operators and functions alone -/

/-- What holds of a calculator and of what an attempt leads to holds behind the attempt. -/
theorem after_induction {c : Calculator} {p : Calculator → Prop} {attempt : Except Failure Calculator}
    (before : p c) (h : ∀ c', attempt = .ok c' → p c') : p (c.after attempt) := by
  cases attempt with
  | error failure => exact before
  | ok c' => exact h c' rfl

/-- Binding a variable to a plain object changes the variables alone. -/
theorem perform_setVariable (c : Calculator) (name value : Plain) :
    ∃ bindings, c.perform (.setVariable name value) = { c with bindings := bindings } := by
  refine after_induction (p := fun c' => ∃ bindings, c' = { c with bindings := bindings }) ⟨_, rfl⟩ fun c' h => ?_
  obtain ⟨s, -, h⟩ := bind_eq_ok.mp h
  obtain ⟨v, -, h⟩ := bind_eq_ok.mp h
  cases h
  exact ⟨_, rfl⟩

/-- Setting a mode changes the modes alone, and not even these if it is refused. -/
theorem perform_setMode (c : Calculator) (mode : ModeName) (value : Plain) :
    c.perform (.setMode mode value) = c ∨
      ∃ m, c.modes.set mode value = .ok m ∧ c.perform (.setMode mode value) = { c with modes := m } := by
  cases h : c.modes.set mode value with
  | error failure => exact Or.inl (by rw [perform, h]; rfl)
  | ok m => exact Or.inr ⟨m, rfl, by rw [perform, h]; rfl⟩

/-- The operators and functions are the same. -/
structure SameVocabulary (c c' : Calculator) : Prop where
  operators : c'.operators = c.operators
  functions : c'.functions = c.functions

/-- **An operation that is not about functions leaves operators and functions alone.** -/
theorem sameVocabulary_perform (c : Calculator) {op : Operation} (h : op.isOfFunctions = false) :
    SameVocabulary c (c.perform op) := by
  cases hanswered : op.isAnswered with
  | true =>
    obtain ⟨_, _, _, _, _, _, hop⟩ := sameSettings_perform c hanswered
    rw [hop]
    exact ⟨rfl, rfl⟩
  | false =>
    cases op with
    | setVariable name value =>
      obtain ⟨_, hop⟩ := perform_setVariable c name value
      rw [hop]
      exact ⟨rfl, rfl⟩
    | setMode mode value =>
      rcases perform_setMode c mode value with hop | ⟨m, -, hop⟩
      · rw [hop]
        exact ⟨rfl, rfl⟩
      · rw [hop]
        exact ⟨rfl, rfl⟩
    | deleteVariable name => exact ⟨rfl, rfl⟩
    | clearVariables => exact ⟨rfl, rfl⟩
    | resetModes => exact ⟨rfl, rfl⟩
    | clearHistory => exact ⟨rfl, rfl⟩
    | calculate | assign | solve | integrate => cases hanswered
    | _ => cases h

end Calculator

/-! ## Functions of a registry -/

namespace Registry

variable {r r' : Registry} {f : Function}

theorem mem_of_mem_erase {key : String} (h : f ∈ (r.erase key).functions) : f ∈ r.functions :=
  (List.mem_filter.mp h).1

/-- A function that is found is one of those that there are. -/
theorem mem_of_find? {name : String} (h : r.find? name = some f) : f ∈ r.functions :=
  List.mem_of_find?_eq_some h

/-- A function is added unless its name is taken. -/
theorem add_cases (r : Registry) (f : Function) :
    (r.isTaken f.name = true ∧ r.add f = (r, false)) ∨
      (r.isTaken f.name = false ∧ r.add f = ({ r with functions := r.functions ++ [f] }, true)) := by
  unfold add
  split
  · rename_i htaken
    exact Or.inl ⟨htaken, rfl⟩
  · rename_i hfree
    exact Or.inr ⟨Bool.eq_false_iff.mpr hfree, rfl⟩

/-- A removal that is not refused gives up a function of the user, if there is one of the name. -/
theorem remove_cases {name : String} {removed : Bool} (ok : r.remove name = .ok (r', removed)) :
    r' = r ∨ ∃ f ∈ r.functions, f.userDefined = true ∧ r' = r.erase f.name := by
  unfold remove at ok
  split at ok
  · cases ok
    exact Or.inl rfl
  · rename_i f hfind
    split at ok
    · rename_i huser
      cases ok
      exact Or.inr ⟨f, mem_of_find? hfind, huser, rfl⟩
    · cases ok

theorem mem_of_mem_add {g : Function} (h : f ∈ (r.add g).1.functions) : f ∈ r.functions ∨ f = g := by
  rcases r.add_cases g with ⟨-, hadd⟩ | ⟨-, hadd⟩
  · rw [hadd] at h
    exact Or.inl h
  · rw [hadd] at h
    exact (List.mem_append.mp h).imp id List.mem_singleton.mp

/-- The text of a valid name. -/
theorem validName_eq_some {name : Plain} {s : String} (h : validName name = some s) :
    name = .text s ∧ Text.isValidName s = true := by
  unfold validName at h
  split at h
  · split at h
    · rename_i hvalid
      cases h
      exact ⟨rfl, hvalid⟩
    · cases h
  · cases h

/-- **A registration that is not refused adds a function under a valid name**, unless the name is taken. -/
theorem exists_add_of_register {name arity : Plain} {implementation : Option Implementation}
    {description category : String} {userDefined : Bool} {result : Registry × Bool}
    (ok : r.register name arity implementation description category userDefined = .ok result) :
    ∃ s a i, name = .text s ∧ Text.isValidName s = true ∧ arityOf arity = some a ∧ implementation = some i ∧
      r.add ⟨Text.lower s, a, i, description, category, userDefined⟩ = result := by
  unfold register at ok
  split at ok
  · cases ok
  · rename_i s hvalid
    obtain ⟨hname, hvalid⟩ := validName_eq_some hvalid
    split at ok
    · cases ok
    · rename_i a harity
      split at ok
      · cases ok
      · exact ⟨s, a, _, hname, hvalid, harity, rfl, Except.ok.inj ok⟩

/-- A function behind a registration was there before, or it has the implementation that was registered. -/
theorem mem_of_mem_register {name arity : Plain} {i : Implementation} {description category : String}
    {userDefined added : Bool}
    (ok : r.register name arity (some i) description category userDefined = .ok (r', added))
    (h : f ∈ r'.functions) : f ∈ r.functions ∨ f.implementation = i := by
  obtain ⟨s, a, i', -, -, -, himpl, hadd⟩ := exists_add_of_register ok
  rw [show r' = (r.add _).1 from (congrArg Prod.fst hadd).symm] at h
  rcases mem_of_mem_add h with hf | rfl
  · exact Or.inl hf
  · exact Or.inr (Option.some.inj himpl).symm

theorem mem_of_mem_remove {name : String} {removed : Bool} (ok : r.remove name = .ok (r', removed))
    (h : f ∈ r'.functions) : f ∈ r.functions := by
  rcases remove_cases ok with rfl | ⟨g, -, -, rfl⟩
  · exact h
  · exact mem_of_mem_erase h

theorem functions_createAlias {name target : Plain} (ok : r.createAlias name target = .ok r') :
    r'.functions = r.functions := by
  unfold createAlias at ok
  split at ok
  · cases ok
  · obtain ⟨s, -, ok⟩ := bind_eq_ok.mp ok
    dsimp only at ok
    split at ok
    · cases ok
    · cases ok
      rfl

end Registry

/-! ## Where functions come from -/

namespace Calculator

variable {c c' : Calculator} {f : Function}

theorem mem_of_mem_withoutOld {r : Registry} {name : String}
    (h : f ∈ (withoutOld r name).functions) : f ∈ r.functions := by
  unfold withoutOld at h
  split at h
  · exact Registry.mem_of_mem_erase h
  · exact h

theorem mem_of_mem_builtinsOnly {r : Registry} (h : f ∈ (builtinsOnly r).functions) : f ∈ r.functions := by
  have erased : ∀ (gs : List Function) (r : Registry),
      f ∈ (gs.foldl (fun r g => r.erase g.name) r).functions → f ∈ r.functions := by
    intro gs
    induction gs with
    | nil => exact fun _ h => h
    | cons g gs ih => exact fun r h => Registry.mem_of_mem_erase (ih (r.erase g.name) h)
  exact erased _ r h

/-- A registration that is not refused is one among the functions. -/
theorem exists_of_registerFunction {name arity : Plain} {call : Option (List Plain → Except Failure Plain)}
    {description category : String} {added : Bool}
    (ok : c.registerFunction name arity call description category = .ok (added, c')) :
    ∃ computes functions, call = some computes ∧
      c.functions.register name arity (some (.host computes)) description category true = .ok (functions, added) ∧
      c' = { c with functions := functions } := by
  unfold registerFunction at ok
  split at ok
  · cases ok
  · obtain ⟨⟨functions, flag⟩, hregister, ok⟩ := bind_eq_ok.mp ok
    cases ok
    exact ⟨_, functions, rfl, hregister, rfl⟩

/-- A removal that is not refused is one among the functions. -/
theorem exists_of_removeFunction {name : String} {removed : Bool}
    (ok : c.removeFunction name = .ok (removed, c')) :
    ∃ functions, c.functions.remove name = .ok (functions, removed) ∧ c' = { c with functions := functions } := by
  obtain ⟨⟨functions, flag⟩, hremove, ok⟩ := bind_eq_ok.mp ok
  cases ok
  exact ⟨functions, hremove, rfl⟩

/-- An alias that is not refused is made among the functions. -/
theorem exists_of_createAlias {name target : Plain} (ok : c.createAlias name target = .ok c') :
    ∃ functions, c.functions.createAlias name target = .ok functions ∧ c' = { c with functions := functions } := by
  obtain ⟨functions, hcreate, ok⟩ := bind_eq_ok.mp ok
  cases ok
  exact ⟨functions, hcreate, rfl⟩

/-- A registered function is computed by what was registered. -/
theorem mem_of_mem_registerFunction {name arity : Plain} {call : Option (List Plain → Except Failure Plain)}
    {description category : String} {added : Bool}
    (ok : c.registerFunction name arity call description category = .ok (added, c'))
    (h : f ∈ c'.functions.functions) :
    f ∈ c.functions.functions ∨ ∃ computes, call = some computes ∧ f.implementation = .host computes := by
  obtain ⟨computes, functions, rfl, hregister, rfl⟩ := exists_of_registerFunction ok
  rcases Registry.mem_of_mem_register hregister h with hf | hf
  · exact Or.inl hf
  · exact Or.inr ⟨computes, rfl, hf⟩

/-- A definition that is not refused has compiled its body. -/
theorem compile_of_checkDefinition {name body : Plain} {parameters : List Plain} {s : String}
    {ps : List String} {ts : List Token} (ok : c.checkDefinition name parameters body = .ok (s, ps, ts)) :
    c.compile body = .ok ts := by
  obtain ⟨names, -, ok⟩ := bind_eq_ok.mp ok
  split at ok
  · cases ok
  · obtain ⟨defined, -, ok⟩ := bind_eq_ok.mp ok
    obtain ⟨tokens, hcompile, ok⟩ := bind_eq_ok.mp ok
    cases ok
    exact hcompile

/-- The name of a definition that is not refused is a text. -/
theorem name_of_checkDefinition {name body : Plain} {parameters : List Plain} {s : String}
    {ps : List String} {ts : List Token} (ok : c.checkDefinition name parameters body = .ok (s, ps, ts)) :
    c.definedName name = .ok s := by
  obtain ⟨names, -, ok⟩ := bind_eq_ok.mp ok
  split at ok
  · cases ok
  · obtain ⟨defined, hname, ok⟩ := bind_eq_ok.mp ok
    obtain ⟨tokens, -, ok⟩ := bind_eq_ok.mp ok
    cases ok
    exact hname

/-- **The ways a definition can go.** -/
inductive Defining (c : Calculator) (name : Plain) (parameters : List Plain) (body : Plain) : Prop where
  /-- It is refused at once. -/
  | refused (f : Failure) : c.defineFunction name parameters body = (.error f, c) → Defining c name parameters body
  /-- It is refused when the old function has been given up. -/
  | late (s : String) (ps : List String) (ts : List Token) (f : Failure) :
      c.checkDefinition name parameters body = .ok (s, ps, ts) →
      c.defineFunction name parameters body = (.error f, { c with functions := withoutOld c.functions s }) →
      Defining c name parameters body
  /-- The function is registered in the place of the old one. -/
  | registered (s : String) (ps : List String) (ts : List Token) (functions : Registry) (added : Bool) :
      c.checkDefinition name parameters body = .ok (s, ps, ts) →
      (withoutOld c.functions s).register name (.integer ps.length) (some (.defined s ps ts))
        (definitionText s ps body) "user" true = .ok (functions, added) →
      c.defineFunction name parameters body = (.ok added, { c with functions := functions }) →
      Defining c name parameters body

theorem defining (c : Calculator) (name : Plain) (parameters : List Plain) (body : Plain) :
    c.Defining name parameters body := by
  cases hcheck : c.checkDefinition name parameters body with
  | error f => exact .refused f (by rw [defineFunction, hcheck])
  | ok definition =>
    obtain ⟨s, ps, ts⟩ := definition
    cases hregister : (withoutOld c.functions s).register name (.integer ps.length) (some (.defined s ps ts))
        (definitionText s ps body) "user" true with
    | error f => exact .late s ps ts f hcheck (by simp only [defineFunction, hcheck, hregister])
    | ok result =>
      obtain ⟨functions, added⟩ := result
      exact .registered s ps ts functions added hcheck hregister (by simp only [defineFunction, hcheck, hregister])

/-- A defined function is computed by the body that was compiled for it. -/
theorem mem_of_mem_defineFunction {name body : Plain} {parameters : List Plain}
    (h : f ∈ (c.defineFunction name parameters body).2.functions.functions) :
    f ∈ c.functions.functions ∨
      ∃ s ps ts, c.compile body = .ok ts ∧ f.implementation = .defined s ps ts := by
  cases c.defining name parameters body with
  | refused _ heq =>
    rw [heq] at h
    exact Or.inl h
  | late s ps ts _ _ heq =>
    rw [heq] at h
    exact Or.inl (mem_of_mem_withoutOld h)
  | registered s ps ts functions added hcheck hregister heq =>
    rw [heq] at h
    -- the old function of the name has been given up in front of the registration
    rcases Registry.mem_of_mem_register hregister h with hf | hf
    · exact Or.inl (mem_of_mem_withoutOld hf)
    · exact Or.inr ⟨s, ps, ts, compile_of_checkDefinition hcheck, hf⟩

/-- An operation about functions changes the functions alone; only a reset does more. -/
theorem perform_of_functions (c : Calculator) {op : Operation} (h : op.isOfFunctions = true) (hop : op ≠ .reset) :
    ∃ functions, c.perform op = { c with functions := functions } := by
  -- a refused attempt leaves the functions as they are
  have attempted : ∀ {attempt : Except Failure Calculator},
      (∀ c', attempt = .ok c' → ∃ functions, c' = { c with functions := functions }) →
      ∃ functions, c.after attempt = { c with functions := functions } := fun h =>
    after_induction (p := fun c' => ∃ functions, c' = { c with functions := functions }) ⟨c.functions, rfl⟩ h
  cases op with
  | registerFunction name arity call description category =>
    refine attempted fun c' h => ?_
    obtain ⟨⟨added, c''⟩, hregister, rfl⟩ := exists_of_map_eq_ok h
    obtain ⟨_, functions, -, -, hc⟩ := exists_of_registerFunction hregister
    exact ⟨functions, hc⟩
  | defineFunction name parameters body =>
    show ∃ functions, (c.defineFunction name parameters body).2 = { c with functions := functions }
    cases c.defining name parameters body with
    | refused _ heq | late _ _ _ _ _ heq | registered _ _ _ _ _ _ _ heq => exact ⟨_, congrArg Prod.snd heq⟩
  | removeFunction name =>
    refine attempted fun c' h => ?_
    obtain ⟨⟨removed, c''⟩, hremove, rfl⟩ := exists_of_map_eq_ok h
    obtain ⟨functions, -, hc⟩ := exists_of_removeFunction hremove
    exact ⟨functions, hc⟩
  | createAlias name target =>
    refine attempted fun c' h => ?_
    obtain ⟨functions, -, hc⟩ := exists_of_createAlias h
    exact ⟨functions, hc⟩
  | removeAlias name => exact ⟨_, rfl⟩
  | reset => exact absurd rfl hop
  | _ => cases h

/-- Nothing but modes, functions and variables is different. -/
def SameMemory (c c' : Calculator) : Prop :=
  ∃ modes functions bindings, c' = { c with modes := modes, functions := functions, bindings := bindings }

/-- **An operation that is not answered by a result is not remembered.** -/
theorem sameMemory_perform (c : Calculator) {op : Operation} (h : op.isAnswered = false)
    (hkept : op.clearsHistory = false) : SameMemory c (c.perform op) := by
  cases hop : op.isOfFunctions with
  | true =>
    have hreset : op ≠ .reset := by
      rintro rfl
      cases hkept
    obtain ⟨functions, heq⟩ := perform_of_functions c hop hreset
    exact ⟨_, functions, _, heq⟩
  | false =>
    cases op with
    | setVariable name value =>
      obtain ⟨bindings, heq⟩ := perform_setVariable c name value
      exact ⟨_, _, bindings, heq⟩
    | setMode mode value =>
      rcases perform_setMode c mode value with heq | ⟨m, -, heq⟩
      · exact ⟨_, _, _, heq⟩
      · exact ⟨m, _, _, heq⟩
    | deleteVariable name => exact ⟨_, _, _, rfl⟩
    | clearVariables => exact ⟨_, _, _, rfl⟩
    | resetModes => exact ⟨_, _, _, rfl⟩
    | calculate | assign | solve | integrate => cases h
    | clearHistory | reset => cases hkept
    | _ => cases hop

/-- The operators of a calculator never change. -/
theorem operators_perform (c : Calculator) (op : Operation) : (c.perform op).operators = c.operators := by
  by_cases hreset : op = .reset
  · subst hreset
    rfl
  cases h : op.isOfFunctions with
  | false => exact (sameVocabulary_perform c h).operators
  | true =>
    obtain ⟨functions, hop⟩ := perform_of_functions c h hreset
    rw [hop]

/-- What is there behind an attempt was there before, or the attempt has led to it. -/
theorem mem_of_mem_after {attempt : Except Failure Calculator}
    (h : f ∈ (c.after attempt).functions.functions) :
    f ∈ c.functions.functions ∨ ∃ c', attempt = .ok c' ∧ f ∈ c'.functions.functions := by
  cases attempt with
  | error failure => exact Or.inl h
  | ok c' => exact Or.inr ⟨c', rfl, h⟩

/-- How a function comes to be among those of a calculator behind an operation. -/
inductive Origin (c : Calculator) (op : Operation) (f : Function) : Prop where
  /-- It was there before. -/
  | kept : f ∈ c.functions.functions → Origin c op f
  /-- The operation registers it. -/
  | registered {name arity : Plain} {call : List Plain → Except Failure Plain}
      {description category : String} :
      op = .registerFunction name arity (some call) description category → f.implementation = .host call →
      Origin c op f
  /-- The operation defines it, by a body that is compiled in front of the operation. -/
  | defined {body : Plain} {name : String} {parameters : List String} {ts : List Token} :
      c.compile body = .ok ts → f.implementation = .defined name parameters ts → Origin c op f

/-- **Where functions come from.** -/
theorem origin_of_mem_perform {op : Operation} (h : f ∈ (c.perform op).functions.functions) :
    Origin c op f := by
  cases op with
  | registerFunction name arity call description category =>
    rcases mem_of_mem_after h with hf | ⟨c', hc', hf⟩
    · exact .kept hf
    · obtain ⟨⟨added, c''⟩, hregister, rfl⟩ := exists_of_map_eq_ok hc'
      rcases mem_of_mem_registerFunction hregister hf with hf | ⟨computes, rfl, himpl⟩
      · exact .kept hf
      · exact .registered rfl himpl
  | defineFunction name parameters body =>
    rcases mem_of_mem_defineFunction h with hf | ⟨s, ps, ts, hcompile, himpl⟩
    · exact .kept hf
    · exact .defined hcompile himpl
  | removeFunction name =>
    rcases mem_of_mem_after h with hf | ⟨c', hc', hf⟩
    · exact .kept hf
    · obtain ⟨⟨removed, c''⟩, hremove, rfl⟩ := exists_of_map_eq_ok hc'
      obtain ⟨functions, hfunctions, rfl⟩ := exists_of_removeFunction hremove
      exact .kept (Registry.mem_of_mem_remove hfunctions hf)
  | createAlias name target =>
    rcases mem_of_mem_after h with hf | ⟨c', hc', hf⟩
    · exact .kept hf
    · obtain ⟨functions, hfunctions, rfl⟩ := exists_of_createAlias hc'
      rw [Registry.functions_createAlias hfunctions] at hf
      exact .kept hf
  | removeAlias name => exact .kept h
  -- only built-in functions are left
  | reset => exact .kept (mem_of_mem_builtinsOnly h)
  | _ =>
    rw [(sameVocabulary_perform c rfl).functions] at h
    exact .kept h

end Calculator

end SciCalc
