/-
  Where a value that is not finite comes from.

  1. **Steps** (`step_settled`) — of finite values a step makes finite ones, unless it *spoils* the machine
     (`Spoils`): it reads a variable that holds a decimal without a number in the active regime, gets such a
     decimal from a function of the surrounding program, or raises a decimal zero to a negative exponent.

  2. **Runs** (`run_settled`) — so a run in which no step spoils the machine keeps all values finite.

  3. **Calls** (`evaluateWith_settled`) — a step over a function that is defined by an expression leaves what
     the evaluation inside the call gives.  By induction on how many more calls may be active, a value is finite
     unless a step spoils the machine of the evaluation or that of a call inside it (`Spoiled`).
-/
import SciCalc.Proofs.Evaluation.Blame
import SciCalc.Proofs.Function.Finite
import SciCalc.Proofs.Token.Numeral

namespace SciCalc

open Attempt

/-- The values that a machine holds are finite. -/
def Machine.Settled (m : Modes) (s : Machine) : Prop := ∀ v ∈ s.stack, v.Settled m

/-- The operators are the calculator's own and the numerals in bodies are finite decimals. -/
structure Vocabulary.Numeric (v : Vocabulary) : Prop where
  /-- The operators are the calculator's own. -/
  own : ∀ o ∈ v.operators.all, o.rule.isHost = false
  /-- Bodies have finite numerals. -/
  bodies : ∀ r, v.functions = some r → ∀ f ∈ r.functions, ∀ name parameters body,
    f.implementation = .defined name parameters body → ∀ t ∈ body, t.NumeralFinite

namespace Evaluation

/-! ## Steps -/

/-- The arguments of a call of so many. -/
def arguments (s : Machine) (n : Int) : List Value := (s.stack.take n.toNat).reverse

/-- **A call of a function that is not defined by an expression spoils the machine**: zero is raised to a
    negative exponent, or the surrounding program gives a decimal without a number in the active regime. -/
inductive SpoilsCall (env : Environment) (f : Function) (draw : Nat) (args : List Value) : Prop where
  | builtin {rule : Builtin} {x : Decimal} {ctx : Context} :
      f.implementation = .builtin rule → rule.RaisesZero args →
      rule.apply env.modes draw args = .ok (.decimal x ctx) → ¬ env.modes.Admits x → SpoilsCall env f draw args
  | host {call : List Plain → Except Failure Plain} {p : Plain} {x : Decimal} {ctx : Context} :
      f.implementation = .host call → call (args.map (·.toPlain)) = .ok p →
      p.toValue env.modes.precision = .ok (.decimal x ctx) → ¬ env.modes.Admits x → SpoilsCall env f draw args

/-- **The step over a token spoils the machine**: it gets a decimal without a number in the active regime. -/
inductive Spoils (env : Environment) (s : Machine) (t : Token) : Prop where
  /-- The variable holds it. -/
  | stored {x : Decimal} {ctx : Context} :
      t.kind = .variable → lookup env t.value = some (.decimal x ctx) → ¬ env.modes.Admits x → Spoils env s t
  /-- The operator raises zero to a negative exponent. -/
  | raised {o : Operator} {rule : BinaryRule} {v w : Value} {rest : List Value} {operands : Operands}
      {x : Decimal} {ctx : Context} :
      t.kind = .operator → env.vocabulary.operators.find? t.value = some o → o.rule = .binary rule →
      s.stack = w :: v :: rest → v.promote w = .ok operands → rule.RaisesZero operands →
      rule.apply env.modes operands = .ok (.decimal x ctx) → ¬ env.modes.Admits x → Spoils env s t
  /-- The function gives it. -/
  | called {f : Function} {n : Int} :
      t.kind = .function → env.vocabulary.function? t.value = some f →
      argumentCount f t.argumentCount = .ok n →
      SpoilsCall env f (env.draw + s.operations) (arguments s n) → Spoils env s t

variable {call : Caller} {env : Environment} {s : Machine} {t : Token}

/-- Every decimal has a number where doubles are used. -/
theorem regime_of_not_admits {m : Modes} {x : Decimal} (h : ¬ m.Admits x) : m.regime ≠ .double := by
  intro hregime
  rw [Modes.Admits, hregime] at h
  exact h trivial

/-- No step spoils the machine where doubles are used. -/
theorem regime_of_spoils (h : Spoils env s t) : env.modes.regime ≠ .double := by
  cases h with
  | stored _ _ hadmits => exact regime_of_not_admits hadmits
  | raised _ _ _ _ _ _ _ hadmits => exact regime_of_not_admits hadmits
  | called _ _ _ hcall =>
    cases hcall with
    | builtin _ _ _ hadmits => exact regime_of_not_admits hadmits
    | host _ _ _ hadmits => exact regime_of_not_admits hadmits

theorem arguments_settled {m : Modes} (hs : s.Settled m) (n : Int) : ∀ v ∈ arguments s n, v.Settled m :=
  fun v hv => hs v (List.mem_of_mem_take (List.mem_reverse.mp hv))

/-- Whatever a computation gives is finite when it has been brought into the active regime. -/
abbrev GivesSettled (m : Modes) (r : Except Failure Value) : Prop :=
  Gives (fun v => Gives (Value.Settled m) (m.normalize v)) r

/-- A result becomes finite if the active regime has a number for it wherever it is a decimal. -/
theorem givesSettled {m : Modes} {r : Except Failure Value}
    (h : ∀ x ctx, r = .ok (.decimal x ctx) → m.Admits x) : GivesSettled m r :=
  fun _ hv => Modes.normalize_settled fun x ctx hdecimal => h x ctx (hdecimal ▸ hv)

/-- A tame result becomes finite. -/
theorem givesSettled_of_tame {m : Modes} {r : Except Failure Value} (h : GivesTame m r) : GivesSettled m r :=
  givesSettled fun _ _ hr => Modes.admits_of_tame (h _ hr)

/-- The result of an operation is pushed on what it has not used. -/
theorem pushResult_settled {m : Modes} {rest : List Value} {v : Value} (hrest : ∀ w ∈ rest, w.Settled m)
    (hv : Gives (Value.Settled m) (m.normalize v)) : Gives (Machine.Settled m) (pushResult m s rest v) :=
  hv.bind fun _ hw => gives_ok.mpr (List.forall_mem_cons.mpr ⟨hw, hrest⟩)

theorem constantValue_settled (m : Modes) (name : String) : Gives (Value.Settled m) (constantValue m name) := by
  unfold constantValue
  split
  · exact gives_error _
  · rename_i c _
    exact (Constant.toValue_tame c m).bind fun _ => Modes.normalize_settled_of_tame

/-- A variable that does not spoil the machine is read as a finite value. -/
theorem variableValue_settled (ht : t.kind = .variable) (h : ¬ Spoils env s t) :
    Gives (Value.Settled env.modes) (variableValue env t.value) := by
  unfold variableValue
  split
  · exact gives_error _
  · rename_i v hv
    refine Modes.normalize_settled fun x ctx hdecimal => ?_
    subst hdecimal
    exact not_not.mp fun hadmits => h (.stored ht hv hadmits)

/-- An operator that does not spoil the machine leaves a finite value. -/
theorem applyOperator_settled (own : ∀ o ∈ env.vocabulary.operators.all, o.rule.isHost = false)
    (hs : s.Settled env.modes) (ht : t.kind = .operator) (h : ¬ Spoils env s t) :
    Gives (Machine.Settled env.modes) (applyOperator env s t) := by
  unfold applyOperator
  split
  · exact gives_error _
  rename_i o hfind
  have hown := own o (Operators.mem_of_find? hfind)
  split
  · rename_i rule v rest hrule hstack
    rw [hrule] at hown
    rw [Machine.Settled, hstack] at hs
    obtain ⟨hv, hrest⟩ := List.forall_mem_cons.mp hs
    exact Gives.bind (givesSettled_of_tame (UnaryRule.apply_tame hown hv.2)) fun _ => pushResult_settled hrest
  · rename_i rule w v rest hrule hstack
    rw [hrule] at hown
    rw [Machine.Settled, hstack] at hs
    obtain ⟨hw, hrest⟩ := List.forall_mem_cons.mp hs
    obtain ⟨hv, hrest⟩ := List.forall_mem_cons.mp hrest
    refine gives_bind.mpr fun operands hpromote => ?_
    have hoperands := Value.promote_tame hv.2 hw.2 operands hpromote
    refine Gives.bind ?_ fun _ => pushResult_settled hrest
    -- a power of zero may give a decimal that is not finite, and the step spoils the machine if it does
    by_cases hzero : rule.RaisesZero operands
    · exact givesSettled fun x ctx hx => not_not.mp fun hadmits =>
        h (.raised ht hfind hrule hstack hpromote hzero hx hadmits)
    · exact givesSettled_of_tame (BinaryRule.apply_tame hown hoperands hzero)
  · exact gives_error _

/-- A function that is not defined by an expression gives what becomes finite, unless it spoils the machine;
    one that is defined does if the evaluation inside the call gives a finite value. -/
theorem callAt_settled {allowance draw : Nat} {f : Function} {args : List Value}
    (hargs : ∀ v ∈ args, v.Settled env.modes) (h : ¬ SpoilsCall env f draw args)
    (inside : ∀ name parameters body fewer, f.implementation = .defined name parameters body →
      allowance = fewer + 1 →
      Gives (fun o => o.value.Settled env.modes)
        (evaluateWith (callAt fewer (enter env parameters args draw)) (enter env parameters args draw) body)) :
    GivesSettled env.modes (callAt allowance env f draw args) := by
  have htame : ∀ v ∈ args, v.Tame env.modes := fun v hv => (hargs v hv).2
  unfold callAt
  split
  · rename_i rule himpl
    by_cases hzero : rule.RaisesZero args
    · exact givesSettled fun x ctx hx => not_not.mp fun hadmits => h (.builtin himpl hzero hx hadmits)
    · exact givesSettled_of_tame (Builtin.apply_tame htame draw hzero)
  · rename_i computes himpl
    exact gives_bind.mpr fun p hp => givesSettled fun x ctx hx => not_not.mp fun hadmits =>
      h (.host himpl hp hx hadmits)
  · exact gives_error _
  · rename_i name parameters body fewer himpl
    have hinside := inside name parameters body fewer himpl rfl
    dsimp only
    split
    · rename_i outcome houtcome
      exact gives_ok.mpr (Modes.normalize_settled_of_tame (hinside outcome houtcome).2)
    · exact gives_error _

/-- A function leaves a finite value if what its call gives becomes finite. -/
theorem applyFunction_settled (hs : s.Settled env.modes)
    (calls : ∀ f n, env.vocabulary.function? t.value = some f → argumentCount f t.argumentCount = .ok n →
      GivesSettled env.modes (call f (env.draw + s.operations) (arguments s n))) :
    Gives (Machine.Settled env.modes) (applyFunction call env s t) := by
  unfold applyFunction
  split
  · exact gives_error _
  rename_i f hfind
  refine gives_bind.mpr fun n hn => ?_
  split
  · exact gives_error _
  split
  · exact gives_error _
  · refine Gives.bind (calls f n hfind hn) fun _ => pushResult_settled fun w hw => ?_
    exact hs w (List.mem_of_mem_drop hw)

/-- **A step that does not spoil the machine keeps its values finite**, if what calls give becomes finite. -/
theorem step_settled (own : ∀ o ∈ env.vocabulary.operators.all, o.rule.isHost = false)
    (numeral : t.NumeralFinite) (hs : s.Settled env.modes) (h : ¬ Spoils env s t)
    (calls : ∀ f n, t.kind = .function → env.vocabulary.function? t.value = some f →
      argumentCount f t.argumentCount = .ok n →
      GivesSettled env.modes (call f (env.draw + s.operations) (arguments s n))) :
    Gives (Machine.Settled env.modes) (step call env s t) := by
  have pushed : ∀ {r : Except Failure Value}, Gives (Value.Settled env.modes) r →
      Gives (Machine.Settled env.modes) (do return push s (← r)) := fun hr =>
    hr.bind fun _ hv => gives_ok.mpr (List.forall_mem_cons.mpr ⟨hv, hs⟩)
  unfold step
  split
  · rename_i ht
    exact pushed (Modes.literal_settled (numeral ht))
  · exact pushed (constantValue_settled _ _)
  · rename_i ht
    exact pushed (variableValue_settled ht h)
  · rename_i ht
    exact applyFunction_settled hs fun f n => calls f n ht
  · rename_i ht
    exact applyOperator_settled own hs ht h
  · exact gives_error _

/-- A decimal without a number in the active regime is pushed as a value that is not finite. -/
theorem pushResult_not_finite {m : Modes} {rest : List Value} {x : Decimal} (h : ¬ m.Admits x) (ctx : Context) :
    Gives (fun s' : Machine => ∃ v ∈ s'.stack, v.isFinite = false) (pushResult m s rest (.decimal x ctx)) :=
  (Modes.normalize_not_finite h ctx).bind fun v hv => gives_ok.mpr ⟨v, List.mem_cons_self, hv⟩

/-- A call that spoils the machine gives a decimal without a number in the active regime. -/
theorem SpoilsCall.exists_decimal {f : Function} {draw : Nat} {args : List Value}
    (h : SpoilsCall env f draw args) (allowance : Nat) :
    ∃ x ctx, callAt allowance env f draw args = .ok (.decimal x ctx) ∧ ¬ env.modes.Admits x := by
  unfold callAt
  cases h with
  | @builtin rule x ctx himpl _ happly hadmits =>
    refine ⟨x, ctx, ?_, hadmits⟩
    simp only [himpl, happly]
  | @host computes p x ctx himpl hp hx hadmits =>
    refine ⟨x, ctx, ?_, hadmits⟩
    simp only [himpl, hp, hx, ok_bind]

/-- **A step that spoils the machine leaves a value that is not finite.** -/
theorem step_not_finite {allowance : Nat} (h : Spoils env s t) :
    Gives (fun s' : Machine => ∃ v ∈ s'.stack, v.isFinite = false) (step (callAt allowance env) env s t) := by
  cases h with
  | stored ht hlookup hadmits =>
    simp only [step, ht, variableValue, hlookup]
    exact (Modes.normalize_not_finite hadmits _).bind fun v hv => gives_ok.mpr ⟨v, List.mem_cons_self, hv⟩
  | raised ht hfind hrule hstack hpromote _ happly hadmits =>
    simp only [step, ht, applyOperator, hfind, hrule, hstack, hpromote, happly, ok_bind]
    exact pushResult_not_finite hadmits _
  | called ht hfind hn hcall =>
    obtain ⟨x, ctx, hx, hadmits⟩ := hcall.exists_decimal allowance
    simp only [step, ht, applyFunction, hfind, hn, ok_bind]
    split
    · exact gives_error _
    split
    · exact gives_error _
    · rw [show (s.stack.take _).reverse = arguments s _ from rfl, hx, ok_bind]
      exact pushResult_not_finite hadmits ctx

/-! ## Runs -/

/-- The run comes to the token in a state. -/
def Reaches (call : Caller) (env : Environment) (s : Machine) (ts : List Token) (s' : Machine) (t : Token) :
    Prop := ∃ before rest, ts = before ++ t :: rest ∧ run call env s before = .ok s'

theorem reaches_head (call : Caller) (env : Environment) (s : Machine) (t : Token) (rest : List Token) :
    Reaches call env s (t :: rest) s t := ⟨[], rest, rfl, rfl⟩

theorem Reaches.mem {ts : List Token} {s' : Machine} {t : Token} (h : Reaches call env s ts s' t) : t ∈ ts := by
  obtain ⟨before, after, rfl, -⟩ := h
  exact List.mem_append_right _ List.mem_cons_self

/-- What the rest of a run comes to the whole run comes to. -/
theorem Reaches.cons {s' s'' : Machine} {t u : Token} {rest : List Token} (hstep : step call env s t = .ok s')
    (h : Reaches call env s' rest s'' u) : Reaches call env s (t :: rest) s'' u := by
  obtain ⟨before, after, rfl, hrun⟩ := h
  refine ⟨t :: before, after, rfl, ?_⟩
  rw [run, hstep]
  exact hrun

/-- **A run keeps values finite** if every step that it comes to does. -/
theorem run_settled {m : Modes} {ts : List Token} (hs : s.Settled m)
    (h : ∀ s' t, Reaches call env s ts s' t → s'.Settled m → Gives (Machine.Settled m) (step call env s' t)) :
    Gives (Machine.Settled m) (run call env s ts) := by
  induction ts generalizing s with
  | nil => exact gives_ok.mpr hs
  | cons t rest ih =>
    have hfirst := h s t (reaches_head call env s t rest) hs
    rw [run]
    split
    · exact gives_error _
    · rename_i s' hstep
      exact ih (hfirst s' hstep) fun s'' u hreaches => h s'' u (hreaches.cons hstep)

/-- The value that is left is finite if all values are. -/
theorem finish_settled {m : Modes} (hs : s.Settled m) : Gives (fun o => o.value.Settled m) (finish s) := by
  unfold finish
  split
  · rename_i v hstack
    rw [Machine.Settled, hstack] at hs
    exact gives_ok.mpr (hs v List.mem_cons_self)
  · exact gives_error _

/-! ## Calls -/

/-- **An evaluation is spoiled**: it comes to a step that spoils the machine, or to a call of a defined
    function inside which the evaluation is spoiled. -/
inductive Spoiled : Nat → Environment → List Token → Prop where
  | here {allowance : Nat} {env : Environment} {ts : List Token} {s : Machine} {t : Token} :
      Reaches (callAt allowance env) env start ts s t → Spoils env s t → Spoiled allowance env ts
  | inside {allowance : Nat} {env : Environment} {ts : List Token} {s : Machine} {t : Token} {f : Function}
      {n : Int} {name : String} {parameters : List String} {body : List Token} :
      Reaches (callAt (allowance + 1) env) env start ts s t → t.kind = .function →
      env.vocabulary.function? t.value = some f → argumentCount f t.argumentCount = .ok n →
      f.implementation = .defined name parameters body →
      Spoiled allowance (enter env parameters (arguments s n) (env.draw + s.operations)) body →
      Spoiled (allowance + 1) env ts

/-- **The value of an evaluation that is not spoiled is finite.** -/
theorem evaluateWith_settled (allowance : Nat) : ∀ {env : Environment} {ts : List Token},
    env.vocabulary.Numeric → (∀ t ∈ ts, t.NumeralFinite) → ¬ Spoiled allowance env ts →
    Gives (fun o => o.value.Settled env.modes) (evaluateWith (callAt allowance env) env ts) := by
  induction allowance using Nat.strongRecOn with
  | ind allowance ih =>
    intro env ts numeric numerals h
    have hrun : Gives (Machine.Settled env.modes) (run (callAt allowance env) env start ts) := by
      refine run_settled (fun v hv => absurd hv List.not_mem_nil) fun s t hreaches hs => ?_
      have hstep : ¬ Spoils env s t := fun hspoils => h (.here hreaches hspoils)
      refine step_settled numeric.own (numerals t hreaches.mem) hs hstep fun f n ht hf hn => ?_
      have hcall : ¬ SpoilsCall env f (env.draw + s.operations) (arguments s n) := fun hspoils => hstep (.called ht hf hn hspoils)
      refine callAt_settled (arguments_settled hs n) hcall ?_
      rintro name parameters body fewer himpl rfl
      -- inside the call the vocabulary and the modes are the same, and one call fewer may be active
      obtain ⟨r, hr, hmem⟩ := Vocabulary.mem_of_function? hf
      exact ih fewer (Nat.lt_succ_self fewer) numeric (numeric.bodies r hr f hmem name parameters body himpl)
        fun hspoiled => h (.inside hreaches ht hf hn himpl hspoiled)
    unfold evaluateWith
    split
    · exact gives_error _
    · rename_i s hs
      exact finish_settled (hrun s hs)

/-- No evaluation is spoiled where doubles are used. -/
theorem regime_of_spoiled {allowance : Nat} {env : Environment} {ts : List Token}
    (h : Spoiled allowance env ts) : env.modes.regime ≠ .double := by
  induction h with
  | here _ hspoils => exact regime_of_spoils hspoils
  | inside _ _ _ _ _ _ ih => exact ih

end Evaluation

end SciCalc
