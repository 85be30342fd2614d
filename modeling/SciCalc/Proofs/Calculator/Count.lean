/-
  How a calculator counts.

  1. **Counts** (`counts_session`) — since the last reset each success and each failure that a result tells has been
     counted, and so has each calculation that was begun.  An assignment whose name is refused is counted as a
     failure without a calculation; a search that ends with a failure that no result tells is counted as a
     calculation alone.

  2. **Theorem** (`counts_agree_iff`) — so the calculations are the successes and failures together exactly if there
     have been as many assignments of the one kind as searches of the other.  A refused assignment is enough for
     them to be fewer (`refused_assignment_miscounts`).
-/
import SciCalc.Proofs.Calculator.History

namespace SciCalc.Calculator

variable {c : Calculator} {op : Operation}

/-- The operation succeeds. -/
def succeeds (c : Calculator) (op : Operation) : Bool := (c.success? op).isSome

/-- How many steps are of some kind. -/
def howMany (kind : Calculator → Operation → Bool) (steps : List (Calculator × Operation)) : Nat :=
  steps.countP fun step => kind step.1 step.2

theorem howMany_concat (kind : Calculator → Operation → Bool) (steps : List (Calculator × Operation))
    (c : Calculator) (op : Operation) :
    howMany kind (steps ++ [(c, op)]) = howMany kind steps + (kind c op).toNat := by
  rw [howMany, List.countP_append, List.countP_singleton]
  cases kind c op <;> rfl

/-! ## Counts -/

/-- What an operation counts that is no reset. -/
theorem counts_perform (h : op.isReset = false) :
    (c.perform op).succeeded = c.succeeded + (c.succeeds op).toNat ∧
    (c.perform op).failed = c.failed + (c.fails op).toNat ∧
    (c.perform op).calculations + (c.refuses op).toNat =
      c.calculations + (c.succeeds op).toNat + (c.fails op).toNat + (c.raises op).toNat := by
  cases hanswered : op.isAnswered with
  | false =>
    obtain ⟨hsuccess, hfails, hrefuses, hraises⟩ := untold_of_not_answered (c := c) hanswered
    rw [succeeds, hsuccess, hfails, hrefuses, hraises]
    cases hclears : op.clearsHistory with
    | false =>
      obtain ⟨_, _, _, hperform⟩ := sameMemory_perform c hanswered hclears
      rw [hperform]
      exact ⟨rfl, rfl, rfl⟩
    | true =>
      cases op with
      | clearHistory => exact ⟨rfl, rfl, rfl⟩
      | reset => cases h
      | _ => cases hclears
  | true =>
    cases c.answered hanswered with
    | success _ _ _ hsuccess _ hfails hrefuses hraises hperform =>
      rw [succeeds, hsuccess, hfails, hrefuses, hraises, hperform]
      exact ⟨rfl, rfl, rfl⟩
    | failure hsuccess hfails hrefuses hraises hperform | refusal hsuccess hfails hrefuses hraises hperform
      | raising hsuccess hfails hrefuses hraises hperform =>
      rw [succeeds, hsuccess, hfails, hrefuses, hraises, hperform]
      exact ⟨rfl, rfl, rfl⟩

section

variable (historySize : Nat) (ops : List Operation)

/-- The steps of a session behind its last reset. -/
def stepsSinceReset : List (Calculator × Operation) := since Operation.isReset (sessionSteps historySize ops)

/-- **What has been counted since the last reset.** -/
theorem counts_session :
    (session historySize ops).succeeded = howMany succeeds (stepsSinceReset historySize ops) ∧
    (session historySize ops).failed = howMany fails (stepsSinceReset historySize ops) ∧
    (session historySize ops).calculations + howMany refuses (stepsSinceReset historySize ops) =
      (session historySize ops).succeeded + (session historySize ops).failed +
        howMany raises (stepsSinceReset historySize ops) := by
  induction ops using List.reverseRecOn with
  | nil => exact ⟨rfl, rfl, rfl⟩
  | append_singleton ops op ih =>
    rw [stepsSinceReset] at ih ⊢
    rw [session_concat, sessionSteps_concat, since_concat]
    cases hreset : op.isReset with
    | true =>
      rw [if_pos rfl]
      cases op with
      | reset => exact ⟨rfl, rfl, rfl⟩
      | _ => cases hreset
    | false =>
      obtain ⟨hsucceeded, hfailed, hcalculations⟩ := ih
      obtain ⟨hsucceeded', hfailed', hcalculations'⟩ := counts_perform (c := session historySize ops) hreset
      rw [if_neg (by decide)]
      simp only [howMany_concat]
      omega

/-- **When the counts agree.**  Successes and failures are counted as such since the last reset.  The calculations
    are the successes and failures together exactly if as many assignments had their names refused as searches
    ended with a failure that no result tells; where none of the latter did, exactly if no name was refused. -/
theorem counts_agree_iff :
    let steps := stepsSinceReset historySize ops
    let c := session historySize ops
    c.succeeded = howMany succeeds steps ∧
    c.failed = howMany fails steps ∧
    (c.calculations = c.succeeded + c.failed ↔ howMany refuses steps = howMany raises steps) ∧
    ((∀ step ∈ steps, step.1.raises step.2 = false) →
      (c.calculations = c.succeeded + c.failed ↔ ∀ step ∈ steps, step.1.refuses step.2 = false)) := by
  intro steps c
  obtain ⟨hsucceeded, hfailed, hcalculations⟩ := counts_session historySize ops
  have hagree : c.calculations = c.succeeded + c.failed ↔ howMany refuses steps = howMany raises steps := by
    have hsum : c.calculations + howMany refuses steps = c.succeeded + c.failed + howMany raises steps :=
      hcalculations
    omega
  refine ⟨hsucceeded, hfailed, hagree, fun hraises => ?_⟩
  have hnone : howMany raises steps = 0 := List.countP_eq_zero.mpr fun step hstep => by
    rw [hraises step hstep]
    decide
  rw [hagree, hnone, howMany, List.countP_eq_zero]
  simp only [Bool.not_eq_true]

/-- An assignment to a name that cannot be one is counted as a failure of no calculation. -/
theorem refused_assignment_miscounts :
    let c := session 100 [.assign (.text "1x") (.text "2")]
    c.calculations = 0 ∧ c.succeeded = 0 ∧ c.failed = 1 := by
  decide +kernel

end

end SciCalc.Calculator
