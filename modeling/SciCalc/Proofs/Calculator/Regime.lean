/-
  Stored integers and the regimes that they are read in.

  1. **Modes** (`Reachable.limited`) — whatever is done to a calculator, the precision stays in its limits.

  2. **Variables** (`Binds`, `evaluate_variable`) — what binds a variable, and what an expression that is only
     this variable evaluates to.

  3. **Switching** (`switch_keeps_integer_iff`) — which integers are the same when the regime has changed
     since they were bound.
-/
import SciCalc.Proofs.Calculator.Operation
import SciCalc.Proofs.Value.Regime

namespace SciCalc

open Attempt

/-- A name is bound to what it has been bound to. -/
theorem Bindings.find?_put (name : String) (v : Value) (b : Bindings) :
    (Bindings.put name v b).find? name = some v := by
  induction b with
  | nil => simp [Bindings.put, Bindings.find?]
  | cons entry rest ih =>
    rw [Bindings.put]
    split
    · simp [Bindings.find?]
    · rename_i hother
      unfold Bindings.find? at ih ⊢
      rwa [List.find?_cons, decide_eq_false hother]

/-! ## Modes -/

/-- The precision is in its limits. -/
def Modes.Limited (m : Modes) : Prop :=
  Limit.leastPrecision ≤ m.precision ∧ m.precision ≤ Limit.greatestPrecision

theorem Modes.limited_initial : Modes.initial.Limited := ⟨by decide, by decide⟩

/-- A setting that is accepted keeps the precision in its limits. -/
theorem Modes.Limited.set {m m' : Modes} (h : m.Limited) {mode : ModeName} {value : Plain}
    (ok : m.set mode value = .ok m') : m'.Limited := by
  cases mode with
  | precision =>
    cases value with
    | integer n =>
      simp only [Modes.set, setPrecision] at ok
      split at ok
      · rename_i hlimits
        rw [Bool.and_eq_true, decide_eq_true_eq, decide_eq_true_eq] at hlimits
        cases ok
        exact ⟨by dsimp only; omega, by dsimp only; omega⟩
      · cases ok
    | _ => cases ok
  | _ =>
    obtain ⟨a, -, ok⟩ := bind_eq_ok.mp ok
    cases ok
    exact h

namespace Calculator

/-- The operation binds a variable to a value: the value of an expression, or that of a plain object. -/
inductive Binds (c : Calculator) : Operation → String → Value → Prop where
  | assign {p expression : Plain} {name : String} {v : Value} : c.variableName p = .ok name →
      (c.assign p expression).1.value = some v → Binds c (.assign p expression) name v
  | setVariable {p value : Plain} {name : String} {v : Value} : c.variableName p = .ok name →
      value.toValue c.modes.precision = .ok v → Binds c (.setVariable p value) name v

variable {c : Calculator} {name : String} {v : Value}

/-- **The modes after an operation** are those before it, those of a new calculator, or with one of them set. -/
theorem modes_perform (c : Calculator) (op : Operation) :
    (c.perform op).modes = c.modes ∨ (c.perform op).modes = .initial ∨
      ∃ mode value, c.modes.set mode value = .ok (c.perform op).modes := by
  by_cases hreset : op = .reset
  · subst hreset
    exact Or.inr (Or.inl rfl)
  cases hanswered : op.isAnswered with
  | true => exact Or.inl (sameSettings_perform c hanswered).modes
  | false =>
    cases hfunctions : op.isOfFunctions with
    | true =>
      obtain ⟨_, hop⟩ := perform_of_functions c hfunctions hreset
      exact Or.inl (by rw [hop])
    | false =>
      cases op with
      | setMode mode value =>
        rcases perform_setMode c mode value with hop | ⟨m, hset, hop⟩
        · exact Or.inl (by rw [hop])
        · exact Or.inr (Or.inr ⟨mode, value, by rw [hop, hset]⟩)
      | setVariable name value =>
        obtain ⟨_, hop⟩ := perform_setVariable c name value
        exact Or.inl (by rw [hop])
      | resetModes => exact Or.inr (Or.inl rfl)
      | deleteVariable | clearVariables | clearHistory => exact Or.inl rfl
      | calculate | assign | solve | integrate => cases hanswered
      | _ => cases hfunctions

/-- **The precision of a reachable calculator is in its limits.** -/
theorem Reachable.limited (reached : Reachable c) : c.modes.Limited := by
  induction reached with
  | new historySize => exact Modes.limited_initial
  | @perform c op _ ih =>
    rcases modes_perform c op with h | h | ⟨mode, value, h⟩
    · rwa [h]
    · rw [h]
      exact Modes.limited_initial
    · exact ih.set h

/-- The calculator in another regime. -/
def inRegime (c : Calculator) (regime : Regime) : Calculator :=
  c.perform (.setMode .regime (.text regime.name))

/-- Every regime can be set by its name. -/
theorem inRegime_eq (c : Calculator) (regime : Regime) :
    c.inRegime regime = { c with modes := { c.modes with regime := regime } } := by
  have hchoose : Modes.choose "precision" Regime.all Regime.name [] (.text regime.name) = .ok regime := by
    cases regime <;> rfl
  show c.after ((c.modes.setRegime (.text regime.name)).map fun m => { c with modes := m }) = _
  rw [Modes.setRegime, hchoose]
  rfl

/-! ## Variables -/

/-- What binds a variable does bind it, and leaves the modes alone. -/
theorem Binds.perform {op : Operation} (h : c.Binds op name v) :
    (c.perform op).bindings.find? name = some v ∧ (c.perform op).modes = c.modes := by
  cases h with
  | assign hname hvalue =>
    rename_i p expression
    have hassign := assign_of_name hname expression
    rw [hassign] at hvalue
    rw [Calculator.perform, hassign, hvalue]
    exact ⟨Bindings.find?_put _ _ _, (sameSettings_calculate c expression).modes⟩
  | setVariable hname hvalue =>
    simp only [Calculator.perform, Calculator.setVariable, hname, hvalue, ok_bind]
    exact ⟨Bindings.find?_put _ _ _, rfl⟩

/-- An expression that is only a variable has its value in the active regime. -/
theorem evaluate_variable {env : Environment} {t : Token} (hv : Evaluation.lookup env t.value = some v)
    (ht : t.kind = .variable) (w : Value) :
    env.evaluate [t] = .ok ⟨w, 0⟩ ↔ env.modes.normalize v = .ok w := by
  simp only [Environment.evaluate, Evaluation.evaluateWith, Evaluation.run, Evaluation.step, ht,
    Evaluation.variableValue, hv]
  cases env.modes.normalize v with
  | error failure => simp
  | ok u => simp [Evaluation.finish, Evaluation.push, Evaluation.start]

/-! ## Switching -/

/-- **Which integers are the same in another regime.**  A variable that is bound to an integer is read as that
    integer in the exact regime if it has been bound to it as an integer; if it has been bound to it as a
    decimal, exactly if a double can hold the integer.  In the decimal regime an integer that is no longer
    than the precision is always read as itself. -/
theorem switch_keeps_integer_iff (reached : Reachable c) {op : Operation} (binds : c.Binds op name v) (n : Int)
    (position : Int) :
    (c.modes.regime = .decimal → ∀ x ctx, v = .decimal x ctx → x.number? = some (n : Rat) →
      (((c.perform op).inRegime .exact).environment.evaluate [⟨.variable, name, position, none⟩] =
        .ok ⟨.integer n, 0⟩ ↔ Double.Holds n)) ∧
    (v = .integer n →
      ((c.perform op).inRegime .exact).environment.evaluate [⟨.variable, name, position, none⟩] =
        .ok ⟨.integer n, 0⟩) ∧
    (v = .integer n → Number.digitCount n.natAbs ≤ c.modes.precision →
      ∃ x, ((c.perform op).inRegime .decimal).environment.evaluate [⟨.variable, name, position, none⟩] =
        .ok ⟨.decimal x c.modes.context, 0⟩ ∧ x.number? = some (n : Rat)) := by
  obtain ⟨hbound, hmodes⟩ := binds.perform
  obtain ⟨hleast, hmost⟩ := reached.limited
  have hread : ∀ regime w,
      ((c.perform op).inRegime regime).environment.evaluate [⟨.variable, name, position, none⟩] = .ok ⟨w, 0⟩ ↔
        ({ c.modes with regime := regime } : Modes).normalize v = .ok w := by
    intro regime w
    rw [inRegime_eq, ← hmodes]
    refine evaluate_variable ?_ rfl w
    exact hbound
  refine ⟨?_, ?_, ?_⟩
  · rintro - x ctx rfl hx
    rw [hread]
    exact Modes.normalize_eq_integer_iff rfl hx ctx
  · rintro rfl
    rw [hread]
    exact Modes.normalize_integer_of_exact rfl
  · rintro rfl hdigits
    obtain ⟨x, hnormal, hx⟩ := Modes.normalize_integer_of_decimal
      (m := { c.modes with regime := .decimal }) rfl hdigits hleast hmost
    exact ⟨x, (hread .decimal _).mpr hnormal, hx⟩

/-- A power of two with more bits than a double holds is kept, one bit followed by zeros. -/
theorem switch_keeps_power_of_two :
    let c := (new 10).inRegime .decimal
    let op := Operation.assign (.text "x") (.text "2^60")
    let v := Value.decimal (.finite false 1152921504606846976 0) c.modes.context
    Reachable c ∧ c.Binds op "x" v ∧
      ((c.perform op).inRegime .exact).environment.evaluate [⟨.variable, "x", 0, none⟩] =
        .ok ⟨.integer 1152921504606846976, 0⟩ := by
  intro c op v
  have reached : Reachable c := .perform _ (.new 10)
  have binds : c.Binds op "x" v := .assign rfl (by decide +kernel)
  have hx : (Decimal.finite false 1152921504606846976 0).number? = some ((1152921504606846976 : Int) : Rat) :=
    Decimal.number?_ofInt 1152921504606846976
  have holds : Double.Holds 1152921504606846976 := ⟨1, 60, by decide, by decide, by decide +kernel⟩
  exact ⟨reached, binds, ((switch_keeps_integer_iff reached binds _ 0).1 rfl _ _ rfl hx).mpr holds⟩

/-- The first integer that no double can hold loses its last bit. -/
theorem switch_loses_last_bit :
    let c := (new 10).inRegime .decimal
    let c' := c.perform (.assign (.text "x") (.text "9007199254740993"))
    (c'.calculate (.text "x")).1.formatted = some "9007199254740993" ∧
      ((c'.inRegime .exact).calculate (.text "x")).1.value = some (.integer 9007199254740992) := by
  decide +kernel

end Calculator

end SciCalc
