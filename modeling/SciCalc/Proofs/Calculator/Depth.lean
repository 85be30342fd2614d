/-
  Calls of defined functions in a session.

  1. **Operations with the counter** (`performCounted`) — all evaluations of an operation use one counter of active
     calls, and each finds what the last one has left: a calculation evaluates once, a root search and a
     quadrature many times, and nothing else evaluates.

  2. **The counter between operations** (`counted_perform`) — from zero an operation does what it does without a
     counter, and leaves zero behind.

  3. **Theorem** (`calls_bounded`) — in every session evaluations end with so many active calls at most, functions
     that reach themselves never have a value, and the counter is zero behind each operation.
-/
import SciCalc.Proofs.Calculator.Definition
import SciCalc.Proofs.Calculator.Reset
import SciCalc.Proofs.Evaluation.Endless
import SciCalc.Proofs.Solver.Counting

namespace SciCalc

open Attempt Evaluation

/-- Tokens are evaluated with the counter of active calls. -/
def counted (env : Environment) (ts : List Token) : Counted Outcome := execute env ts

/-- **From zero an evaluation has its result, and the counter is zero again.** -/
theorem settles_counted (env : Environment) (ts : List Token) : Settles (counted env ts) (env.evaluate ts) :=
  execute_eq env ts 0

namespace Calculator

/-! ## Operations with the counter -/

/-- A calculation with the counter. -/
def calculateCounted (c : Calculator) (expression : Plain) (active : Nat) : (CalculationResult × Calculator) × Nat :=
  match c.begin.tokens expression with
  | .error cause => (c.begin.fail (.lexical cause) 0 0, active)
  | .ok ts =>
    match c.begin.rearrange ts with
    | .error cause => (c.begin.fail cause.failure (ts.length - 1) 0, active)
    | .ok ps =>
      match counted c.begin.environment ps active with
      | (.error f, active) => (c.begin.fail f (ts.length - 1) ps.length, active)
      | (.ok outcome, active) =>
        match outcome.value.shown with
        | .error f => (c.begin.fail f (ts.length - 1) ps.length, active)
        | .ok formatted =>
          (c.begin.succeed (expressionText expression) outcome.value formatted (ts.length - 1) ps.length
            outcome.operations, active)

/-- An assignment with the counter. -/
def assignCounted (c : Calculator) (name expression : Plain) (active : Nat) :
    (CalculationResult × Calculator) × Nat :=
  match c.variableName name with
  | .error f => (c.fail f 0 0, active)
  | .ok s =>
    match c.calculateCounted expression active with
    | ((r, c), active) =>
      match r.succeeded, r.value with
      | true, some v => ((r, c.bind s v), active)
      | _, _ => ((r, c), active)

/-- A root search with the counter. -/
def solveCounted (c : Calculator) (expression unknown guess : Plain) (active : Nat) :
    (Except Failure CalculationResult × Calculator) × Nat :=
  match c.begin.root? counted expression unknown guess active with
  | (found, active) => (c.begin.conclude (solveText expression unknown) (solveEnding guess found), active)

/-- A quadrature with the counter. -/
def integrateCounted (c : Calculator) (expression lower upper unknown : Plain) (active : Nat) :
    (Except Failure CalculationResult × Calculator) × Nat :=
  match c.begin.integral counted expression lower upper unknown active with
  | (found, active) =>
    (c.begin.conclude (integrateText expression lower upper unknown) (integrateEnding found), active)

/-- **An operation with the counter of active calls**: the calculator and the counter behind it. -/
def performCounted (c : Calculator) (active : Nat) : Operation → Calculator × Nat
  | .calculate expression => ((c.calculateCounted expression active).1.2, (c.calculateCounted expression active).2)
  | .assign name expression =>
    ((c.assignCounted name expression active).1.2, (c.assignCounted name expression active).2)
  | .solve expression unknown guess =>
    ((c.solveCounted expression unknown guess active).1.2, (c.solveCounted expression unknown guess active).2)
  | .integrate expression lower upper unknown =>
    ((c.integrateCounted expression lower upper unknown active).1.2,
      (c.integrateCounted expression lower upper unknown active).2)
  | op => (c.perform op, active)

/-- The calculators that operations lead to, with the counter that they leave behind. -/
inductive ReachableWith : Calculator → Nat → Prop where
  | new (historySize : Nat) : ReachableWith (.new historySize) 0
  | perform {c : Calculator} {active : Nat} (op : Operation) : ReachableWith c active →
      ReachableWith (c.performCounted active op).1 (c.performCounted active op).2

/-! ## The counter between operations -/

section

variable (c : Calculator)

/-- **From zero a calculation has its result, and the counter is zero again.** -/
theorem counted_calculate (expression : Plain) : c.calculateCounted expression 0 = (c.calculate expression, 0) := by
  unfold calculateCounted calculate evaluate
  cases c.begin.tokens expression with
  | error cause => rfl
  | ok ts =>
    dsimp only
    cases c.begin.rearrange ts with
    | error cause => rfl
    | ok ps =>
      dsimp only
      have hcounted : counted c.begin.environment ps 0 = (c.begin.environment.evaluate ps, 0) :=
        settles_counted c.begin.environment ps
      rw [hcounted]
      cases c.begin.environment.evaluate ps with
      | error f => rfl
      | ok outcome =>
        rw [ok_bind]
        dsimp only
        cases outcome.value.shown with
        | error f => rfl
        | ok formatted => rfl

theorem counted_assign (name expression : Plain) :
    c.assignCounted name expression 0 = (c.assign name expression, 0) := by
  unfold assignCounted assign
  cases c.variableName name with
  | error f => rfl
  | ok s =>
    dsimp only
    rw [counted_calculate]
    obtain ⟨r, c'⟩ := c.calculate expression
    dsimp only
    cases r.succeeded with
    | false => rfl
    | true =>
      cases r.value with
      | none => rfl
      | some v => rfl

theorem settles_scalar (name : String) (ps : List Token) (x : Binary) :
    Settles (c.scalar counted name ps x) (c.scalar Environment.evaluate name ps x) :=
  (settles_counted _ ps).bind fun outcome => settles_lift outcome.value.toReal

theorem settles_root? (expression unknown guess : Plain) :
    Settles (c.root? counted expression unknown guess) (c.root? Environment.evaluate expression unknown guess) := by
  unfold root?
  refine (settles_lift _).bind fun (name, ps) => ?_
  refine (settles_lift _).bind fun (first, further) => ?_
  refine (Solver.settles_root? (c.settles_scalar name ps) first further).bind fun found => ?_
  cases found with
  | none => exact settles_pure _
  | some x => exact (settles_lift _).bind fun _ => settles_pure _

theorem settles_integral (expression lower upper unknown : Plain) :
    Settles (c.integral counted expression lower upper unknown)
      (c.integral Environment.evaluate expression lower upper unknown) := by
  unfold integral
  refine (settles_lift _).bind fun (name, ps) => ?_
  dsimp only
  split
  · exact settles_lift _
  · refine (settles_lift _).bind fun a => (settles_lift _).bind fun b => ?_
    exact (Solver.settles_integral (c.settles_scalar name ps) _ a b).bind fun x => settles_lift _

theorem counted_solve (expression unknown guess : Plain) :
    c.solveCounted expression unknown guess 0 = (c.solve expression unknown guess, 0) := by
  have hfound : c.begin.root? counted expression unknown guess 0 = _ :=
    c.begin.settles_root? expression unknown guess
  rw [solveCounted, hfound]
  rfl

theorem counted_integrate (expression lower upper unknown : Plain) :
    c.integrateCounted expression lower upper unknown 0 = (c.integrate expression lower upper unknown, 0) := by
  have hfound : c.begin.integral counted expression lower upper unknown 0 = _ :=
    c.begin.settles_integral expression lower upper unknown
  rw [integrateCounted, hfound]
  rfl

/-- **From zero an operation does what it does without a counter, and leaves zero behind.** -/
theorem counted_perform (op : Operation) : c.performCounted 0 op = (c.perform op, 0) := by
  cases op with
  | calculate expression => rw [performCounted, counted_calculate]; rfl
  | assign name expression => rw [performCounted, counted_assign]; rfl
  | solve expression unknown guess => rw [performCounted, counted_solve]; rfl
  | integrate expression lower upper unknown => rw [performCounted, counted_integrate]; rfl
  | _ => rfl

end

variable {c : Calculator} {active : Nat}

/-- **The counter is zero behind every operation**, and the calculator is what it is without a counter. -/
theorem ReachableWith.zero (reached : ReachableWith c active) : Reachable c ∧ active = 0 := by
  induction reached with
  | new historySize => exact ⟨.new historySize, rfl⟩
  | @perform c active op _ ih =>
    obtain ⟨reached, rfl⟩ := ih
    rw [counted_perform]
    exact ⟨reached.perform op, rfl⟩

/-! ## Theorem -/

/-- A calculation fails as the evaluation does. -/
theorem calculate_of_evaluate_error {expression : Plain} {ps : List Token} (hps : c.compile expression = .ok ps)
    {f : Failure} (h : c.begin.environment.evaluate ps = .error f) :
    (c.calculate expression).1.succeeded = false ∧ (c.calculate expression).1.errorCode = some f.outcome.2 := by
  obtain ⟨ts, htokens, hordered⟩ := compile_eq_ok.mp hps
  have htokens' : c.begin.tokens expression = .ok ts := htokens
  have hordered' : c.begin.rearrange ts = .ok ps := hordered
  have heval : c.begin.evaluate expression = (ts.length - 1, ps.length, .error f) := by
    simp only [evaluate, htokens', hordered', h, error_bind]
  rw [calculate, heval]
  exact ⟨rfl, rfl⟩

/-- **Calls of defined functions in a session.**
    Every evaluation comes to its end, and at each point of it the active calls are as many as the counter says and
    never more than the limit.
    A call of a function that reaches itself fails, and so does a calculation with such a call: too many calls become
    active, or a failure is met before, which is met however many more may be active.
    Behind every operation the counter is zero, so that the next one does what it does without a counter. -/
theorem calls_bounded (reached : ReachableWith c active) :
    (∀ env ts, (∀ k, (next^[k] (begun active env ts)).Counts) ∧
      ∃ k, next^[k] (begun active env ts) = ⟨active, .of (env.evaluate ts), []⟩) ∧
    (∀ f, Endless c.vocabulary f →
      (∀ env, env.vocabulary = c.vocabulary → ∀ n draw args,
        ∃ failure, FailsBy (fun m => callAt m env f draw args) n failure) ∧
      ∀ expression ps t, c.compile expression = .ok ps → t ∈ ps → t.kind = .function →
        c.functions.find? t.value = some f →
        ∃ failure, FailsBy (fun m => evaluateWith (callAt m c.begin.environment) c.begin.environment ps)
            Limit.nesting failure ∧
          (c.calculate expression).1.succeeded = false ∧
          (c.calculate expression).1.errorCode = some failure.outcome.2) ∧
    (active = 0 ∧ (∀ expression, c.calculateCounted expression active = (c.calculate expression, 0)) ∧
      ∀ op, c.performCounted active op = (c.perform op, 0)) := by
  obtain ⟨-, rfl⟩ := reached.zero
  refine ⟨fun env ts => ⟨counts_begun env ts, exists_end 0 env ts⟩, fun f hendless => ⟨?_, ?_⟩, rfl,
    c.counted_calculate, c.counted_perform⟩
  · intro env hvocabulary n draw args
    rw [← hvocabulary] at hendless
    exact callAt_failsBy hendless n draw args
  · intro expression ps t hps ht hkind hf
    have hfind : c.begin.environment.vocabulary.function? t.value = some f := hf
    obtain ⟨failure, hfailed⟩ := evaluateWith_failsBy ht hkind hfind hendless Limit.nesting
    exact ⟨failure, hfailed, calculate_of_evaluate_error hps hfailed.fails⟩

/-- A reachable calculator is reached with the counter at zero. -/
theorem Reachable.reachableWith (reached : Reachable c) : ReachableWith c 0 := by
  induction reached with
  | new historySize => exact .new historySize
  | @perform c op _ ih =>
    have hstep := ReachableWith.perform op ih
    rwa [counted_perform] at hstep

/-- A function whose body calls one that calls it. -/
theorem endless_of_definitions {name name' : String} {parameters parameters' : List String}
    {body body' : List Token} (h : c.definition? name = some (parameters, body))
    (h' : c.definition? name' = some (parameters', body')) {t t' : Token} (ht : t ∈ body) (ht' : t' ∈ body')
    (hkind : t.kind = .function) (hkind' : t'.kind = .function) (hname : t.value = name') (hname' : t'.value = name) :
    ∃ f, c.functions.find? name = some f ∧ Endless c.vocabulary f := by
  obtain ⟨f, defined, hf, himpl⟩ := exists_of_definition? h
  obtain ⟨g, defined', hg, himpl'⟩ := exists_of_definition? h'
  have hcalls : Calls c.vocabulary f g := ⟨himpl, ht, hkind, by rw [hname]; exact hg⟩
  have hcalls' : Calls c.vocabulary g f := ⟨himpl', ht', hkind', by rw [hname']; exact hf⟩
  exact ⟨f, hf, .tail (.single hcalls) hcalls'⟩

/-- Two functions that come to call each other when one of them is defined anew. -/
theorem calls_bounded_mutual :
    let c := session 10 [.defineFunction (.text "g") [.text "p"] (.text "p"),
      .defineFunction (.text "f") [.text "p"] (.text "g(p)+1"),
      .defineFunction (.text "g") [.text "p"] (.text "2*f(p)")]
    ReachableWith c 0 ∧ ∃ f, c.functions.find? "f" = some f ∧ Endless c.vocabulary f ∧
      (∀ env, env.vocabulary = c.vocabulary → ∀ n draw args,
        ∃ failure, FailsBy (fun m => callAt m env f draw args) n failure) ∧
      (c.calculate (.text "f(1)")).1.errorCode = some "TOO_DEEP" ∧
      (c.calculate (.text "f(1/0)")).1.errorCode = some "DIVISION_BY_ZERO" := by
  intro c
  have reached : ReachableWith c 0 := Reachable.reachableWith (reachable_session 10 _)
  let bodyOfF : List Token := [⟨.variable, "p", 2, none⟩, ⟨.function, "g", 0, some 1⟩, ⟨.number, "1", 5, none⟩,
    ⟨.operator, "+", 4, none⟩]
  let bodyOfG : List Token := [⟨.number, "2", 0, none⟩, ⟨.variable, "p", 4, none⟩, ⟨.function, "f", 2, some 1⟩,
    ⟨.operator, "*", 1, none⟩]
  have hf : c.definition? "f" = some (["p"], bodyOfF) := by decide +kernel
  have hg : c.definition? "g" = some (["p"], bodyOfG) := by decide +kernel
  have hdeep : (c.calculate (.text "f(1)")).1.errorCode = some "TOO_DEEP" := by decide +kernel
  have hbefore : (c.calculate (.text "f(1/0)")).1.errorCode = some "DIVISION_BY_ZERO" := by decide +kernel
  clear_value c
  have hcallsg : (⟨.function, "g", 0, some 1⟩ : Token) ∈ bodyOfF := by decide
  have hcallsf : (⟨.function, "f", 2, some 1⟩ : Token) ∈ bodyOfG := by decide
  obtain ⟨f, hfind, hendless⟩ := endless_of_definitions hf hg hcallsg hcallsf rfl rfl rfl rfl
  exact ⟨reached, f, hfind, hendless, ((calls_bounded reached).2.1 f hendless).1, hdeep, hbefore⟩

end Calculator

end SciCalc
