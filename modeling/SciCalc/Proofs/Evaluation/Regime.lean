/-
  Values belong to the active regime.

  1. **Native values** (`Value.Native`) — a double is at home where there are no decimals, an integer in the exact
     regime, a decimal in the decimal regime and in the active context; a complex number has an imaginary part
     unless the policy is to keep all of them.

  2. **Normalization** (`normalize_native`) — whatever a value was before, it is native when it has been
     normalized, and so is a numeral when it is read.

  3. **Steps and runs** (`step_holds`, `run_holds`) — every value that a step pushes is a numeral or has been
     normalized.  So it does not matter what functions return or in which regime variables were stored.
-/
import SciCalc.Evaluation.Basic
import SciCalc.Proofs.Decimal.Context

namespace SciCalc

open Attempt

/-! ## Native values -/

/-- **The value belongs to the active regime.** -/
def Value.Native (m : Modes) : Value → Prop
  | .real _ => m.regime ≠ .decimal
  | .integer _ => m.regime = .exact
  | .complex z => z.isReal = true → m.complexPolicy = .on
  | .decimal x ctx => m.regime = .decimal ∧ ctx = m.context ∧ ctx.Contains x

/-- All values that a machine holds have the property. -/
def Machine.Holds (p : Value → Prop) (s : Machine) : Prop := ∀ v ∈ s.stack, p v

/-! ## Normalization -/

namespace Modes

variable {m : Modes}

/-- A real value becomes native. -/
theorem normalizeReal_native (hleast : Limit.leastPrecision ≤ m.precision) (v : Value) :
    Gives (Value.Native m) (m.normalizeReal v) := by
  have hprecision : 0 < m.context.precision := hleast
  unfold normalizeReal
  cases hregime : m.regime with
  | decimal =>
    refine gives_bind.mpr fun x hx => gives_ok.mpr ⟨hregime, rfl, ?_⟩
    obtain ⟨y, -, hy⟩ := bind_eq_ok.mp hx
    have hentered := mapError_eq_ok.mp hy
    unfold Context.entered at hentered
    split at hentered
    · cases hentered
    · exact Context.plus_contains hprecision y x hentered
  | exact =>
    have hreal : ∀ x, (exactReal x).Native m := by
      intro x
      unfold exactReal
      split
      · exact hregime
      · intro hdecimal
        rw [hregime] at hdecimal
        cases hdecimal
    dsimp only
    split
    · exact gives_ok.mpr hregime
    · exact gives_bind.mpr fun x _ => gives_ok.mpr (hreal x)
  | double =>
    have hreal : ∀ x, (Value.real x).Native m := by
      intro x hdecimal
      rw [hregime] at hdecimal
      cases hdecimal
    dsimp only
    split
    · exact gives_ok.mpr (hreal _)
    · exact gives_bind.mpr fun _ _ => gives_bind.mpr fun x _ => gives_ok.mpr (hreal x)

/-- A complex number is kept only as it may be. -/
theorem settleComplex_native (z w : Complex) (h : m.settleComplex z = .ok (.inl w)) : (Value.complex w).Native m := by
  intro hreal
  unfold settleComplex at h
  split at h
  · rename_i hkept
    obtain ⟨-, -, h⟩ := bind_eq_ok.mp h
    obtain ⟨-, -, h⟩ := bind_eq_ok.mp h
    obtain ⟨-, -, h⟩ := bind_eq_ok.mp h
    obtain ⟨-, -, h⟩ := bind_eq_ok.mp h
    cases h
    rw [hreal, Bool.not_true, Bool.or_false] at hkept
    exact of_decide_eq_true hkept
  · cases h

/-- **What has been normalized is native.** -/
theorem normalize_native (hleast : Limit.leastPrecision ≤ m.precision) (v : Value) :
    Gives (Value.Native m) (m.normalize v) := by
  cases v with
  | complex z =>
    refine gives_bind.mpr fun settled hsettled => ?_
    cases settled with
    | inl w => exact gives_ok.mpr (settleComplex_native z w hsettled)
    | inr x => exact gives_bind.mpr fun y _ => normalizeReal_native hleast _
  | real x => exact gives_bind.mpr fun y _ => normalizeReal_native hleast _
  | integer n => exact normalizeReal_native hleast _
  | decimal x ctx => exact normalizeReal_native hleast _

/-- **A numeral is read as a native value.** -/
theorem literal_native (hleast : Limit.leastPrecision ≤ m.precision) (text : String) :
    Gives (Value.Native m) (m.literal text) := by
  have hdouble : m.regime ≠ .decimal → Gives (Value.Native m) (literalDouble text) := by
    intro hregime
    unfold literalDouble
    split
    · exact gives_bind.mpr fun x _ => gives_ok.mpr hregime
    · exact gives_error _
  have hprecision : 0 < m.context.precision := hleast
  unfold literal
  cases hregime : m.regime with
  | decimal =>
    refine gives_bind.mpr fun x _ => gives_bind.mpr fun y hy => gives_ok.mpr ⟨hregime, rfl, ?_⟩
    exact Context.plus_contains hprecision x y (mapError_eq_ok.mp hy)
  | exact =>
    refine gives_bind.mpr fun x _ => ?_
    split
    · exact gives_ok.mpr hregime
    · exact hdouble (by rw [hregime]; decide)
  | double => exact hdouble (by rw [hregime]; decide)

end Modes

/-! ## Steps and runs -/

namespace Evaluation

variable {call : Caller} {env : Environment} {s : Machine} {p : Value → Prop}

/-- A result is pushed as it has been normalized. -/
theorem pushResult_holds {m : Modes} (hnormal : ∀ v, Gives p (m.normalize v)) {rest : List Value}
    (hrest : ∀ w ∈ rest, p w) (v : Value) : Gives (Machine.Holds p) (pushResult m s rest v) :=
  (hnormal v).bind fun _ hw => gives_ok.mpr (List.forall_mem_cons.mpr ⟨hw, hrest⟩)

/-- **A step keeps what holds of all numerals and normalized values**, whatever functions return. -/
theorem step_holds (hnormal : ∀ v, Gives p (env.modes.normalize v))
    (hliteral : ∀ text, Gives p (env.modes.literal text)) (hs : s.Holds p) (t : Token) :
    Gives (Machine.Holds p) (step call env s t) := by
  have pushed : ∀ {r : Except Failure Value}, Gives p r →
      Gives (Machine.Holds p) (do return push s (← r)) := fun hr =>
    hr.bind fun _ hv => gives_ok.mpr (List.forall_mem_cons.mpr ⟨hv, hs⟩)
  unfold step
  split
  · exact pushed (hliteral _)
  · refine pushed ?_
    unfold constantValue
    split
    · exact gives_error _
    · exact gives_bind.mpr fun v _ => hnormal v
  · refine pushed ?_
    unfold variableValue
    split
    · exact gives_error _
    · exact hnormal _
  · unfold applyFunction
    split
    · exact gives_error _
    refine gives_bind.mpr fun n _ => ?_
    split
    · exact gives_error _
    split
    · exact gives_error _
    · exact gives_bind.mpr fun v _ => pushResult_holds hnormal (fun w hw => hs w (List.mem_of_mem_drop hw)) v
  · unfold applyOperator
    split
    · exact gives_error _
    split
    · rename_i rule v rest _ hstack
      rw [Machine.Holds, hstack] at hs
      exact gives_bind.mpr fun w _ => pushResult_holds hnormal (List.forall_mem_cons.mp hs).2 w
    · rename_i rule w v rest _ hstack
      rw [Machine.Holds, hstack] at hs
      have hrest := (List.forall_mem_cons.mp (List.forall_mem_cons.mp hs).2).2
      exact gives_bind.mpr fun _ _ => gives_bind.mpr fun u _ => pushResult_holds hnormal hrest u
    · exact gives_error _
  · exact gives_error _

/-- **A run keeps what holds of all numerals and normalized values.** -/
theorem run_holds (hnormal : ∀ v, Gives p (env.modes.normalize v))
    (hliteral : ∀ text, Gives p (env.modes.literal text)) (ts : List Token) :
    ∀ {s : Machine}, s.Holds p → Gives (Machine.Holds p) (run call env s ts) := by
  induction ts with
  | nil => exact fun hs => gives_ok.mpr hs
  | cons t rest ih =>
    intro s hs
    rw [run]
    split
    · exact gives_error _
    · rename_i s' hstep
      exact ih (step_holds hnormal hliteral hs t s' hstep)

/-- **What holds of all numerals and normalized values holds of the value of an evaluation**, however functions
    are applied. -/
theorem evaluateWith_holds (hnormal : ∀ v, Gives p (env.modes.normalize v))
    (hliteral : ∀ text, Gives p (env.modes.literal text)) (ts : List Token) :
    Gives (fun o => p o.value) (evaluateWith call env ts) := by
  unfold evaluateWith
  split
  · exact gives_error _
  · rename_i s hrun
    have hs : s.Holds p := run_holds hnormal hliteral ts (fun v hv => absurd hv List.not_mem_nil) s hrun
    unfold finish
    split
    · rename_i v hstack
      rw [Machine.Holds, hstack] at hs
      exact gives_ok.mpr (hs v List.mem_cons_self)
    · exact gives_error _

/-- An evaluation gives a native value, however functions are applied. -/
theorem evaluateWith_native (hleast : Limit.leastPrecision ≤ env.modes.precision) (ts : List Token) :
    Gives (fun o => o.value.Native env.modes) (evaluateWith call env ts) :=
  evaluateWith_holds (Modes.normalize_native hleast) (Modes.literal_native hleast) ts

end Evaluation

/-- **The value of an evaluation belongs to the active regime**, for all tokens, variables, functions and
    modes. -/
theorem Environment.evaluate_native {env : Environment} (hleast : Limit.leastPrecision ≤ env.modes.precision)
    {ts : List Token} {outcome : Outcome} (h : env.evaluate ts = .ok outcome) :
    outcome.value.Native env.modes :=
  Evaluation.evaluateWith_native hleast ts outcome h

/-- Seven thirds of a variable from the exact regime, with three digits and rounded up. -/
theorem evaluate_native_thirds :
    let modes : Modes := { Modes.initial with regime := .decimal, precision := 3, rounding := .up }
    let env : Environment := ⟨⟨.calculator, none⟩, modes, [("x", .integer 7)], [], 0⟩
    let ts : List Token := [⟨.variable, "x", 0, none⟩, ⟨.number, "3", 2, none⟩, ⟨.operator, "/", 1, none⟩]
    let v : Value := .decimal (.finite false 234 (-2)) ⟨3, .ceiling⟩
    (env.evaluate ts).toOption = some ⟨v, 1⟩ ∧ v.Native modes := by
  intro modes env ts v
  have evaluated : (env.evaluate ts).toOption = some ⟨v, 1⟩ := by decide +kernel
  refine ⟨evaluated, ?_⟩
  cases h : env.evaluate ts with
  | error failure =>
    rw [h] at evaluated
    cases evaluated
  | ok outcome =>
    rw [h] at evaluated
    obtain rfl : outcome = ⟨v, 1⟩ := Option.some.inj evaluated
    exact env.evaluate_native (by decide) h

end SciCalc
