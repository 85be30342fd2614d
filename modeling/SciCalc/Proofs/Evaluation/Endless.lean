/-
  Functions that reach themselves.

  1. **Success** (`exists_call_of_run`) — tokens that are evaluated with success have called with success every
     function that they name: no operator and no function leaves out an operand.

  2. **Endless functions** (`Endless`) — the body of a function that reaches itself calls such a function, so that a
     call of it has no value, whatever the allowance is (`callAt_ne_ok`).

  3. **Failures** (`FailsBy`) — so it fails: too many calls become active, or a failure is met before, which is the
     same however many more may be active.
-/
import Mathlib.Logic.Relation
import SciCalc.Proofs.Evaluation.Frames

namespace SciCalc

open Attempt

/-- The function reaches itself: its body calls it, or calls a function whose body does, and so on. -/
def Endless (v : Vocabulary) (f : Function) : Prop := Relation.TransGen (Calls v) f f

/-- The body of a function that reaches itself calls a function that reaches itself. -/
theorem Endless.exists_calls {v : Vocabulary} {f : Function} (h : Endless v f) : ∃ g, Calls v f g ∧ Endless v g := by
  obtain ⟨g, hcalls, hback⟩ := Relation.TransGen.head'_iff.mp h
  exact ⟨g, hcalls, Relation.TransGen.tail' hback hcalls⟩

namespace Evaluation

variable {env : Environment}

/-! ## Success -/

/-- A call is one of the function that the token names. -/
theorem function?_of_callOf {s : Machine} {t : Token} {call : Call} (h : callOf env s t = .ok call) :
    env.vocabulary.function? t.value = some call.function := by
  unfold callOf at h
  split at h
  · cases h
  · rename_i f hf
    obtain ⟨n, -, h⟩ := bind_eq_ok.mp h
    split at h
    · cases h
    · split at h
      · cases h
      · cases h
        exact hf

/-- **Tokens that are read with success have called with success each function that they name.** -/
theorem exists_call_of_run {call : Caller} {t : Token} (hkind : t.kind = .function) {f : Function}
    (hf : env.vocabulary.function? t.value = some f) {ts : List Token} (ht : t ∈ ts) :
    ∀ {s s' : Machine}, run call env s ts = .ok s' → ∃ draw args w, call f draw args = .ok w := by
  induction ts with
  | nil => cases ht
  | cons u rest ih =>
    intro s s' h
    rw [run] at h
    cases hstep : step call env s u with
    | error failure =>
      rw [hstep] at h
      cases h
    | ok s₁ =>
      rw [hstep] at h
      rcases List.mem_cons.mp ht with rfl | ht
      · rw [step, hkind] at hstep
        dsimp only at hstep
        rw [applyFunction_eq] at hstep
        obtain ⟨c, hc, hstep⟩ := bind_eq_ok.mp hstep
        obtain ⟨w, hw, -⟩ := bind_eq_ok.mp hstep
        obtain rfl := Option.some.inj ((function?_of_callOf hc).symm.trans hf)
        exact ⟨_, _, w, hw⟩
      · exact ih ht h

theorem exists_call_of_evaluateWith {call : Caller} {ts : List Token} {o : Outcome}
    (h : evaluateWith call env ts = .ok o) {t : Token} (ht : t ∈ ts) (hkind : t.kind = .function) {f : Function}
    (hf : env.vocabulary.function? t.value = some f) : ∃ draw args w, call f draw args = .ok w := by
  unfold evaluateWith at h
  split at h
  · cases h
  · rename_i s hrun
    exact exists_call_of_run hkind hf ht hrun

/-! ## Endless functions -/

/-- **A call of a function that reaches itself has no value**, whatever the allowance is. -/
theorem callAt_ne_ok (n : Nat) : ∀ {env : Environment} {f : Function}, Endless env.vocabulary f →
    ∀ draw args w, callAt n env f draw args ≠ .ok w := by
  induction n with
  | zero =>
    intro env f hf draw args w h
    obtain ⟨g, hcalls, -⟩ := hf.exists_calls
    obtain ⟨himpl, -⟩ := hcalls
    unfold callAt at h
    simp only [himpl] at h
    cases h
  | succ n ih =>
    intro env f hf draw args w h
    obtain ⟨g, hcalls, hg⟩ := hf.exists_calls
    obtain ⟨himpl, ht, hkind, hfind⟩ := hcalls
    have hinside : ∀ parameters, Endless (enter env parameters args draw).vocabulary g := fun _ => hg
    rw [callAt_defined himpl] at h
    obtain ⟨o, ho, -⟩ := exists_of_map_eq_ok h
    obtain ⟨draw', args', w', hw⟩ := exists_call_of_evaluateWith ho ht hkind hfind
    exact ih (hinside _) draw' args' w' hw

/-! ## Failures -/

/-- The attempt fails for so many more calls: too many become active, or the failure is met before, so that it is met
    as well if more may be active. -/
structure FailsBy {α : Type} (attempt : Nat → Except Failure α) (n : Nat) (failure : Failure) : Prop where
  fails : attempt n = .error failure
  cause : failure.IsTooDeep ∨ ∀ m, n ≤ m → attempt m = .error failure

/-- An attempt that goes on for more calls and has no value fails so. -/
theorem exists_failsBy {α : Type} {attempt : Nat → Except Failure α} {n : Nat}
    (hrefines : ∀ m, n ≤ m → Refines (attempt n) (attempt m)) (h : ∀ a, attempt n ≠ .ok a) :
    ∃ failure, FailsBy attempt n failure := by
  cases hfailed : attempt n with
  | ok a => exact absurd hfailed (h a)
  | error failure =>
    refine ⟨failure, hfailed, ?_⟩
    by_cases hdeep : failure.IsTooDeep
    · exact Or.inl hdeep
    · exact Or.inr fun m hm => (hrefines m hm).eq_error hfailed hdeep

/-- **A call of a function that reaches itself fails.** -/
theorem callAt_failsBy {f : Function} (h : Endless env.vocabulary f) (n draw : Nat) (args : List Value) :
    ∃ failure, FailsBy (fun m => callAt m env f draw args) n failure :=
  exists_failsBy (fun _ hm => callAt_refines hm env f draw args) (callAt_ne_ok n h draw args)

/-- **Tokens that call a function that reaches itself fail.** -/
theorem evaluateWith_failsBy {ts : List Token} {t : Token} (ht : t ∈ ts) (hkind : t.kind = .function)
    {f : Function} (hf : env.vocabulary.function? t.value = some f) (h : Endless env.vocabulary f) (n : Nat) :
    ∃ failure, FailsBy (fun m => evaluateWith (callAt m env) env ts) n failure := by
  refine exists_failsBy (fun _ hm => evaluateWith_refines (callAt_refines hm env) ts) fun o ho => ?_
  obtain ⟨draw, args, w, hw⟩ := exists_call_of_evaluateWith ho ht hkind hf
  exact callAt_ne_ok n h draw args w hw

end Evaluation

end SciCalc
