/-
  Evaluation one step at a time.

  1. **Executions** (`Execution`) — an evaluation that calls a defined function waits until that of the body returns
     or fails.  A counter holds the number of active calls: it goes up where a call is entered and down where a
     call is left, with a value or with a failure, and a call is refused where the counter is at the limit.

  2. **Steps** (`counts_next`) — the counter stays the number of the evaluations that wait, and within the limit.

  3. **Runs** (`leads_result`) — wherever the counter is, an evaluation ends, with the result that it has for so many
     more calls, and leaves the counter as it was.

  4. **Whole executions** (`execute`) — so the steps can be taken to the end (`execute_eq`).
-/
import Mathlib.Data.Nat.Find
import Mathlib.Logic.Function.Iterate
import SciCalc.Proofs.Evaluation.Allowance

namespace SciCalc

open Attempt

namespace Evaluation

/-! ## Executions -/

/-- A call of a function. -/
structure Call where
  /-- The function. -/
  function : Function
  /-- The number of the draw of a random number. -/
  draw : Nat
  /-- The arguments. -/
  arguments : List Value
  /-- The machine without the arguments. -/
  behind : Machine

/-- The call that a token makes, if the function and the arguments are there. -/
def callOf (env : Environment) (s : Machine) (t : Token) : Except Failure Call := do
  match env.vocabulary.function? t.value with
  | none => .error (.unknown .function t.value)
  | some f =>
    let n ← argumentCount f t.argumentCount
    match f.arityProblem? n with
    | some failure => .error failure
    | none =>
      if (s.stack.length : Int) < n then .error (.structural (.functionUnderflow f.name t.position))
      else
        return ⟨f, env.draw + s.operations, (s.stack.take n.toNat).reverse,
          { s with stack := s.stack.drop n.toNat }⟩

/-- An evaluation on its way: its machine and the tokens that are left. -/
structure Frame where
  /-- What it depends on. -/
  environment : Environment
  /-- The machine. -/
  machine : Machine
  /-- The tokens that are left. -/
  rest : List Token

/-- The innermost evaluation: it reads its tokens, or it has come to its end. -/
inductive Stage where
  | reading (frame : Frame)
  | returning (outcome : Outcome)
  | raising (failure : Failure)

/-- The end of an evaluation. -/
def Stage.of : Except Failure Outcome → Stage
  | .ok outcome => .returning outcome
  | .error failure => .raising failure

/-- The evaluation behind a token. -/
def Stage.after (env : Environment) (rest : List Token) : Except Failure Machine → Stage
  | .ok s => .reading ⟨env, s, rest⟩
  | .error failure => .raising failure.translated

/-- An execution. -/
structure Execution where
  /-- The counter of active calls. -/
  active : Nat
  /-- The innermost evaluation. -/
  stage : Stage
  /-- The evaluations that wait for a call, the innermost first. -/
  callers : List Frame

/-- The name of the defined function that a token calls, the evaluation of its body, and the machine that waits. -/
def entry? (env : Environment) (s : Machine) (t : Token) : Option (String × Frame × Machine) :=
  if t.kind = .function then
    match callOf env s t with
    | .error _ => none
    | .ok call =>
      match call.function.implementation with
      | .defined name parameters body =>
        some (name, ⟨enter env parameters call.arguments call.draw, start, body⟩, call.behind)
      | _ => none
  else none

/-- **One step.**  The innermost evaluation reads a token, or enters a call, or comes to its end; then the evaluation
    that waits for it goes on with the value, or fails as well. -/
def next (x : Execution) : Execution :=
  match x.stage, x.callers with
  | .reading ⟨_, s, []⟩, _ => { x with stage := .of (finish s) }
  | .reading ⟨env, s, t :: rest⟩, callers =>
    match entry? env s t with
    | some (name, inner, behind) =>
      if x.active < Limit.nesting then ⟨x.active + 1, .reading inner, ⟨env, behind, rest⟩ :: callers⟩
      else { x with stage := .raising (.structural (.recursionTooDeep name)) }
    | none => { x with stage := .after env rest (step (callAt 0 env) env s t) }
  | .returning outcome, ⟨env, s, rest⟩ :: callers =>
    ⟨x.active - 1, .after env rest (pushResult env.modes s s.stack outcome.value), callers⟩
  | .raising failure, ⟨env, _, rest⟩ :: callers => ⟨x.active - 1, .after env rest (.error failure), callers⟩
  | _, [] => x

/-! ## Steps -/

/-- The counter is the number of the evaluations that wait, and within the limit. -/
structure Execution.Counts (x : Execution) : Prop where
  active : x.active = x.callers.length
  limited : x.active ≤ Limit.nesting

/-- When a call is left, the count is right for the evaluations that are left. -/
theorem Execution.Counts.left {x : Execution} (h : x.Counts) {frame : Frame} {callers : List Frame}
    (hcallers : x.callers = frame :: callers) (stage : Stage) : Counts ⟨x.active - 1, stage, callers⟩ := by
  obtain ⟨hactive, hlimited⟩ := h
  rw [hcallers, List.length_cons] at hactive
  refine ⟨?_, ?_⟩
  · show x.active - 1 = callers.length
    omega
  · show x.active - 1 ≤ Limit.nesting
    omega

/-- **A step keeps the count.** -/
theorem counts_next {x : Execution} (h : x.Counts) : (next x).Counts := by
  unfold next
  split
  case h_1 => exact ⟨h.active, h.limited⟩
  case h_2 =>
    split
    · split
      · -- a call is entered
        rename_i hlt
        refine ⟨?_, hlt⟩
        rw [h.active]
        rfl
      · exact ⟨h.active, h.limited⟩
    · exact ⟨h.active, h.limited⟩
  case h_3 hcallers => exact h.left hcallers _
  case h_4 hcallers => exact h.left hcallers _
  case h_5 => exact h

/-- The execution of an evaluation that has not begun. -/
def begun (active : Nat) (env : Environment) (ts : List Token) : Execution := ⟨active, .reading ⟨env, start, ts⟩, []⟩

/-- **At every point of an execution the count is right.** -/
theorem counts_begun (env : Environment) (ts : List Token) (k : Nat) : (next^[k] (begun 0 env ts)).Counts := by
  induction k with
  | zero => exact ⟨rfl, Nat.zero_le _⟩
  | succ k ih =>
    rw [Function.iterate_succ_apply']
    exact counts_next ih

/-! ## Runs -/

/-- The steps lead from one execution to another one. -/
def Leads (x y : Execution) : Prop := ∃ k, next^[k] x = y

theorem Leads.refl (x : Execution) : Leads x x := ⟨0, rfl⟩

theorem Leads.trans {x y z : Execution} (h : Leads x y) (h' : Leads y z) : Leads x z := by
  obtain ⟨k, rfl⟩ := h
  obtain ⟨l, rfl⟩ := h'
  exact ⟨l + k, Function.iterate_add_apply next l k x⟩

/-- What a step leads to leads on. -/
theorem Leads.of_next {x y z : Execution} (hstep : next x = y) (h : Leads y z) : Leads x z :=
  Leads.trans ⟨1, hstep⟩ h

/-- A function is applied to the arguments of its call. -/
theorem applyFunction_eq (call : Caller) (env : Environment) (s : Machine) (t : Token) :
    applyFunction call env s t = (callOf env s t >>= fun c =>
      call c.function c.draw c.arguments >>= pushResult env.modes c.behind c.behind.stack) := by
  unfold applyFunction callOf
  cases env.vocabulary.function? t.value with
  | none => rfl
  | some f =>
    dsimp only
    cases argumentCount f t.argumentCount with
    | error failure => rfl
    | ok n =>
      rw [ok_bind, ok_bind]
      cases f.arityProblem? n with
      | some cause => rfl
      | none =>
        dsimp only
        split
        · rfl
        · rfl

/-- The defined function that a token calls. -/
theorem exists_of_entry?_eq_some {env : Environment} {s behind : Machine} {t : Token} {name : String} {inner : Frame}
    (h : entry? env s t = some (name, inner, behind)) :
    t.kind = .function ∧ ∃ call parameters body, callOf env s t = .ok call ∧
      call.function.implementation = .defined name parameters body ∧
      inner = ⟨enter env parameters call.arguments call.draw, start, body⟩ ∧ behind = call.behind := by
  unfold entry? at h
  split at h
  · rename_i hkind
    split at h
    · cases h
    · rename_i call hcall
      split at h
      · rename_i himpl
        cases h
        exact ⟨hkind, call, _, _, hcall, himpl, rfl, rfl⟩
      · cases h
  · cases h

/-- A function that is not defined does not depend on how many more calls may be active. -/
theorem callAt_of_not_defined {f : Function}
    (h : ∀ name parameters body, f.implementation ≠ .defined name parameters body) (n m : Nat) (env : Environment) : callAt n env f = callAt m env f := by
  funext draw args
  unfold callAt
  cases himpl : f.implementation with
  | builtin rule => rfl
  | host call => rfl
  | defined name parameters body => exact absurd himpl (h name parameters body)

/-- Nor does a token that calls no defined function. -/
theorem step_of_entry?_eq_none {env : Environment} {s : Machine} {t : Token} (h : entry? env s t = none) (n m : Nat) :
    step (callAt n env) env s t = step (callAt m env) env s t := by
  by_cases hkind : t.kind = .function
  · have happly : ∀ k, step (callAt k env) env s t = applyFunction (callAt k env) env s t := by
      intro k
      rw [step, hkind]
    rw [happly, happly, applyFunction_eq, applyFunction_eq]
    unfold entry? at h
    rw [if_pos hkind] at h
    cases hcall : callOf env s t with
    | error failure => rfl
    | ok call =>
      rw [hcall] at h
      have hdefined : ∀ name parameters body, call.function.implementation ≠ .defined name parameters body := by
        intro name parameters body himpl
        simp only [himpl] at h
        cases h
      rw [ok_bind, ok_bind, callAt_of_not_defined hdefined n m]
  · unfold step
    split
    case h_4 hfunction => exact absurd hfunction hkind
    all_goals rfl

/-- The result of an evaluation on its way, if so many more calls may be active. -/
def Frame.result (n : Nat) (frame : Frame) : Except Failure Outcome :=
  match run (callAt n frame.environment) frame.environment frame.machine frame.rest with
  | .error failure => .error failure.translated
  | .ok s => finish s

/-- The result behind a token. -/
def resultAfter (n : Nat) (env : Environment) (rest : List Token) : Except Failure Machine → Except Failure Outcome
  | .ok s => Frame.result n ⟨env, s, rest⟩
  | .error failure => .error failure.translated

/-- The first token is read, and then the others. -/
theorem Frame.result_cons (n : Nat) (env : Environment) (s : Machine) (t : Token) (rest : List Token) :
    Frame.result n ⟨env, s, t :: rest⟩ = resultAfter n env rest (step (callAt n env) env s t) := by
  unfold Frame.result
  dsimp only
  rw [run]
  cases step (callAt n env) env s t with
  | error failure => rfl
  | ok s' => rfl

/-- An evaluation goes on behind a token as it does with the tokens that are left. -/
theorem leads_after {n active : Nat} {env : Environment} {callers : List Frame} {rest : List Token}
    (h : ∀ s, Leads ⟨active, .reading ⟨env, s, rest⟩, callers⟩ ⟨active, .of (Frame.result n ⟨env, s, rest⟩), callers⟩)
    (attempt : Except Failure Machine) :
    Leads ⟨active, .after env rest attempt, callers⟩ ⟨active, .of (resultAfter n env rest attempt), callers⟩ := by
  cases attempt with
  | error failure => exact .refl _
  | ok s => exact h s

/-- A call is left with the value of the body, or with its failure. -/
theorem next_left (active : Nat) (env : Environment) (s : Machine) (rest : List Token) (callers : List Frame)
    (r : Except Failure Outcome) :
    next ⟨active + 1, .of r, ⟨env, s, rest⟩ :: callers⟩ =
      ⟨active, .after env rest (r.map (·.value) >>= pushResult env.modes s s.stack), callers⟩ := by
  cases r with
  | error failure => rfl
  | ok outcome => rfl

/-- So it goes on behind a call. -/
theorem leads_left {n active : Nat} {env : Environment} {callers : List Frame} {rest : List Token}
    (h : ∀ s, Leads ⟨active, .reading ⟨env, s, rest⟩, callers⟩ ⟨active, .of (Frame.result n ⟨env, s, rest⟩), callers⟩)
    (s : Machine) (r : Except Failure Outcome) :
    Leads ⟨active + 1, .of r, ⟨env, s, rest⟩ :: callers⟩
      ⟨active, .of (resultAfter n env rest (r.map (·.value) >>= pushResult env.modes s s.stack)), callers⟩ :=
  .of_next (next_left active env s rest callers r) (leads_after h _)

/-- **An evaluation ends with its result and leaves the counter as it was**, whatever waits for it. -/
theorem leads_result (n : Nat) : ∀ (active : Nat), Limit.nesting - active = n →
    ∀ (env : Environment) (callers : List Frame) (ts : List Token) (s : Machine),
      Leads ⟨active, .reading ⟨env, s, ts⟩, callers⟩ ⟨active, .of (Frame.result n ⟨env, s, ts⟩), callers⟩ := by
  -- the induction is on the calls that can still be entered, and within one evaluation on the tokens that are left
  induction n using Nat.strongRecOn with
  | ind n ih =>
    intro active hactive env callers ts
    induction ts with
    | nil => exact fun s => .of_next rfl (.refl _)
    | cons t rest ihrest =>
      intro s
      rw [Frame.result_cons]
      cases hentry : entry? env s t with
      | none =>
        refine .of_next ?_ (leads_after ihrest _)
        rw [step_of_entry?_eq_none hentry n 0]
        simp only [next, hentry]
      | some entry =>
        obtain ⟨name, inner, behind⟩ := entry
        obtain ⟨hkind, call, parameters, body, hcall, himpl, rfl, rfl⟩ := exists_of_entry?_eq_some hentry
        have hstep : step (callAt n env) env s t =
            callAt n env call.function call.draw call.arguments >>=
              pushResult env.modes call.behind call.behind.stack := by
          rw [step, hkind]
          dsimp only
          rw [applyFunction_eq, hcall, ok_bind]
        rw [hstep]
        by_cases hlt : active < Limit.nesting
        · -- the body is evaluated, and the caller goes on with what the body has come to
          obtain ⟨m, hm⟩ : ∃ m, n = m + 1 := ⟨Limit.nesting - (active + 1), by omega⟩
          subst hm
          have hinner := ih m (Nat.lt_succ_self m) (active + 1) (by omega)
            (enter env parameters call.arguments call.draw) (⟨env, call.behind, rest⟩ :: callers) body start
          rw [callAt_defined himpl]
          refine .of_next ?_ (hinner.trans (leads_left ihrest call.behind _))
          simp only [next, hentry, if_pos hlt]
        · -- the call is refused
          obtain rfl : n = 0 := by omega
          have hrefused : callAt 0 env call.function call.draw call.arguments =
              .error (.structural (.recursionTooDeep name)) := by
            unfold callAt
            simp only [himpl]
          rw [hrefused, error_bind]
          refine .of_next ?_ (.refl _)
          simp only [next, hentry, if_neg hlt]
          rfl

/-! ## Whole executions -/

/-- The result of an execution that has come to its end. -/
def Execution.result? (x : Execution) : Option (Except Failure Outcome) :=
  match x.stage, x.callers with
  | .returning outcome, [] => some (.ok outcome)
  | .raising failure, [] => some (.error failure)
  | _, _ => none

theorem result?_of (active : Nat) (r : Except Failure Outcome) : Execution.result? ⟨active, .of r, []⟩ = some r := by
  cases r with
  | error failure => rfl
  | ok outcome => rfl

/-- An execution that has come to its end stays there. -/
theorem next_of_result? {x : Execution} {r : Except Failure Outcome} (h : x.result? = some r) : next x = x := by
  obtain ⟨active, stage, callers⟩ := x
  unfold Execution.result? at h
  dsimp only at h
  split at h
  · rfl
  · rfl
  · cases h

/-- However many more steps are taken, it stays there. -/
theorem iterate_of_result? {x : Execution} {i k : Nat} (h : (next^[i] x).result?.isSome) (le : i ≤ k) :
    next^[k] x = next^[i] x := by
  obtain ⟨r, hr⟩ := Option.isSome_iff_exists.mp h
  rw [← Nat.sub_add_cancel le, Function.iterate_add_apply]
  exact Function.iterate_fixed (next_of_result? hr) _

/-- **Wherever the counter is, an execution comes to its end**, with the result for so many more calls. -/
theorem exists_end (active : Nat) (env : Environment) (ts : List Token) :
    ∃ k, next^[k] (begun active env ts) =
      ⟨active, .of (evaluateWith (callAt (Limit.nesting - active) env) env ts), []⟩ :=
  leads_result _ active rfl env [] ts start

theorem exists_result (active : Nat) (env : Environment) (ts : List Token) :
    ∃ k, (next^[k] (begun active env ts)).result?.isSome := by
  obtain ⟨k, hk⟩ := exists_end active env ts
  exact ⟨k, by rw [hk, result?_of]; rfl⟩

/-- **The evaluation of tokens with a counter**: the result, and the counter behind it. -/
def execute (env : Environment) (ts : List Token) (active : Nat) : Except Failure Outcome × Nat :=
  let x := next^[Nat.find (exists_result active env ts)] (begun active env ts)
  (x.result?.get (Nat.find_spec (exists_result active env ts)), x.active)

/-- **An evaluation has its result, and the counter is what it was.** -/
theorem execute_eq (env : Environment) (ts : List Token) (active : Nat) :
    execute env ts active = (evaluateWith (callAt (Limit.nesting - active) env) env ts, active) := by
  obtain ⟨k, hk⟩ := exists_end active env ts
  -- the first point with a result is the end, for there the execution stays
  have hfirst : next^[Nat.find (exists_result active env ts)] (begun active env ts) =
      ⟨active, .of (evaluateWith (callAt (Limit.nesting - active) env) env ts), []⟩ := by
    have hle : Nat.find (exists_result active env ts) ≤ k := Nat.find_min' _ (by rw [hk, result?_of]; rfl)
    rw [← hk]
    exact (iterate_of_result? (Nat.find_spec (exists_result active env ts)) hle).symm
  unfold execute
  dsimp only
  refine Prod.ext ?_ ?_
  · exact Option.get_of_eq_some _ (by rw [hfirst, result?_of])
  · exact congrArg Execution.active hfirst

end Evaluation

end SciCalc
