/-
  What the allowance of a call changes.

  1. **Going on** (`Refines`) — one attempt goes on where another one finds too many calls active, and does the same
     everywhere else.

  2. **Inside a call** (`callAt_defined`, `callAt_congr_scope`) — a call of a defined function evaluates its body,
     and does not see the names that its caller has bound.

  3. **Larger allowances** (`callAt_refines`) — a call with a larger allowance goes on so.  A value stays the
     value, and a failure of another kind stays the failure, whatever the allowance is.
-/
import SciCalc.Evaluation.Basic
import SciCalc.Proofs.Attempt

namespace SciCalc

open Attempt

/-! ## Going on -/

/-- There are too many active calls. -/
def Failure.IsTooDeep (failure : Failure) : Prop := ∃ name, failure = .structural (.recursionTooDeep name)

/-- The second attempt does what the first one does, unless the first one finds too many calls active. -/
def Refines {α : Type} (r r' : Except Failure α) : Prop :=
  r' = r ∨ ∃ failure, r = .error failure ∧ failure.IsTooDeep

namespace Refines

variable {α β : Type} {r r' r'' : Except Failure α}

theorem refl (r : Except Failure α) : Refines r r := Or.inl rfl

theorem trans (h : Refines r r') (h' : Refines r' r'') : Refines r r'' := by
  rcases h with rfl | hdeep
  · exact h'
  · exact Or.inr hdeep

/-- What is done next goes on as well. -/
theorem bind (h : Refines r r') {g g' : α → Except Failure β} (hg : ∀ a, Refines (g a) (g' a)) :
    Refines (r >>= g) (r' >>= g') := by
  rcases h with rfl | ⟨failure, rfl, hdeep⟩
  · cases r' with
    | error failure => exact refl _
    | ok a => exact hg a
  · exact Or.inr ⟨failure, rfl, hdeep⟩

theorem map (h : Refines r r') (g : α → β) : Refines (r.map g) (r'.map g) := by
  rcases h with rfl | ⟨failure, rfl, hdeep⟩
  · exact refl _
  · exact Or.inr ⟨failure, rfl, hdeep⟩

/-- A value stays. -/
theorem eq_ok (h : Refines r r') {a : α} (hr : r = .ok a) : r' = .ok a := by
  rcases h with rfl | ⟨failure, hfailure, -⟩
  · exact hr
  · rw [hfailure] at hr
    cases hr

/-- A failure stays, unless it is that too many calls are active. -/
theorem eq_error (h : Refines r r') {failure : Failure} (hr : r = .error failure) (hdeep : ¬ failure.IsTooDeep) :
    r' = .error failure := by
  rcases h with rfl | ⟨failure', hfailure, hdeep'⟩
  · exact hr
  · rw [hfailure] at hr
    cases hr
    exact absurd hdeep' hdeep

end Refines

/-- That too many calls are active is no fault of plain arithmetic. -/
theorem Failure.IsTooDeep.translated {failure : Failure} (h : failure.IsTooDeep) : failure.translated = failure := by
  obtain ⟨name, rfl⟩ := h
  rfl

/-- The body of a function calls another function. -/
inductive Calls (v : Vocabulary) : Function → Function → Prop where
  | intro {f g : Function} {name : String} {parameters : List String} {body : List Token} {t : Token} :
      f.implementation = .defined name parameters body → t ∈ body → t.kind = .function →
      v.function? t.value = some g → Calls v f g

namespace Evaluation

variable {call call' : Caller} {env : Environment}

/-! ## Inside a call -/

/-- A call of a defined function evaluates its body. -/
theorem callAt_defined {f : Function} {name : String} {parameters : List String} {body : List Token}
    (h : f.implementation = .defined name parameters body) (n : Nat) (env : Environment) (draw : Nat)
    (args : List Value) : callAt (n + 1) env f draw args =
      (evaluateWith (callAt n (enter env parameters args draw)) (enter env parameters args draw) body).map
        (·.value) := by
  unfold callAt
  simp only [h]
  cases evaluateWith (callAt n (enter env parameters args draw)) (enter env parameters args draw) body with
  | error failure => rfl
  | ok outcome => rfl

/-- **A call does not see what its caller has bound.** -/
theorem callAt_congr_scope (allowance : Nat) (env : Environment) (scope : Bindings) (f : Function) (draw : Nat)
    (args : List Value) :
    callAt allowance { env with scope := scope } f draw args = callAt allowance env f draw args := by
  unfold callAt
  rfl

/-! ## Larger allowances -/

/-- A step goes on if the calls of its function do. -/
theorem step_refines (hcall : ∀ f draw args, Refines (call f draw args) (call' f draw args)) (s : Machine)
    (t : Token) : Refines (step call env s t) (step call' env s t) := by
  unfold step
  split
  case h_4 =>
    unfold applyFunction
    split
    · exact .refl _
    · rename_i f _
      refine Refines.bind (.refl _) fun n => ?_
      split
      · exact .refl _
      · split
        · exact .refl _
        · exact (hcall f _ _).bind fun v => .refl _
  all_goals exact .refl _

/-- A run goes on if the calls do. -/
theorem run_refines (hcall : ∀ f draw args, Refines (call f draw args) (call' f draw args)) (ts : List Token) :
    ∀ s : Machine, Refines (run call env s ts) (run call' env s ts) := by
  induction ts with
  | nil =>
    intro s
    exact .refl _
  | cons t rest ih =>
    intro s
    rw [run, run]
    rcases step_refines hcall s t with hsame | ⟨failure, hstep, hdeep⟩
    · rw [hsame]
      cases step call env s t with
      | error failure => exact .refl _
      | ok s' => exact ih s'
    · rw [hstep]
      exact Or.inr ⟨failure, rfl, hdeep⟩

theorem evaluateWith_refines (hcall : ∀ f draw args, Refines (call f draw args) (call' f draw args))
    (ts : List Token) : Refines (evaluateWith call env ts) (evaluateWith call' env ts) := by
  unfold evaluateWith
  rcases run_refines hcall ts start with hsame | ⟨failure, hrun, hdeep⟩
  · rw [hsame]
    exact .refl _
  · rw [hrun]
    exact Or.inr ⟨failure.translated, rfl, hdeep.translated.symm ▸ hdeep⟩

/-- **A call that may have one more active call inside it goes on.** -/
theorem callAt_refines_succ (allowance : Nat) : ∀ (env : Environment) (f : Function) (draw : Nat) (args : List Value),
    Refines (callAt allowance env f draw args) (callAt (allowance + 1) env f draw args) := by
  induction allowance with
  | zero =>
    intro env f draw args
    unfold callAt
    cases f.implementation with
    | builtin rule => exact .refl _
    | host call => exact .refl _
    | defined name parameters body => exact Or.inr ⟨_, rfl, name, rfl⟩
  | succ n ih =>
    intro env f draw args
    cases h : f.implementation with
    | builtin rule | host call =>
      unfold callAt
      simp only [h]
      exact .refl _
    | defined name parameters body =>
      rw [callAt_defined h, callAt_defined h]
      exact (evaluateWith_refines (ih (enter env parameters args draw)) body).map (·.value)

/-- **A call with a larger allowance goes on.** -/
theorem callAt_refines {n m : Nat} (h : n ≤ m) (env : Environment) (f : Function) (draw : Nat) (args : List Value) :
    Refines (callAt n env f draw args) (callAt m env f draw args) := by
  induction h with
  | refl => exact .refl _
  | step _ ih => exact ih.trans (callAt_refines_succ _ env f draw args)

end Evaluation

end SciCalc
