/-
  The ways to write a power.

  1. **Tokens of powers** (`Token.IsPower`) — two operators and a function of two arguments.  A reachable calculator
     still finds the function under its name (`function?_pow`).

  2. **Steps** (`step_power_iff`) — the step over any of these tokens takes two values and leaves their power, brought
     into the active regime.  An operator promotes its operands first, but for values that can stand on a stack this
     makes no difference (`Value.power_promoted`).

  3. **Theorem** (`powers_agree`) — so the tokens are interchangeable: where one of them is evaluated, all of them are,
     to the same value, and so is whatever they are a part of.
-/
import SciCalc.Proofs.Calculator.Redefinition
import SciCalc.Proofs.Calculator.Regime
import SciCalc.Proofs.Evaluation.Postorder
import SciCalc.Proofs.Value.Promotion

namespace SciCalc

open Attempt

/-! ## Tokens of powers -/

/-- The token is a power of two operands: an operator, or a call of the function. -/
inductive Token.IsPower (t : Token) : Prop where
  | operator : t.kind = .operator → t.value = "^" ∨ t.value = "**" → IsPower t
  | call : t.kind = .function → Text.lower t.value = "pow" → t.argumentCount = some 2 ∨ t.argumentCount = none →
      IsPower t

/-- Both symbols are those of the operator of powers. -/
theorem Operators.exists_find?_power {symbol : String} (h : symbol = "^" ∨ symbol = "**") :
    ∃ description, Operators.calculator.find? symbol =
      some (.between symbol 9 .right .generalPower description) := by
  rcases h with rfl | rfl
  · exact ⟨_, rfl⟩
  · exact ⟨_, rfl⟩

/-- **A reachable calculator finds the function of powers**, in any case of letters. -/
theorem Calculator.Reachable.function?_pow {c : Calculator} (reached : Reachable c) {name : String}
    (hname : Text.lower name = "pow") :
    ∃ f, c.vocabulary.function? name = some f ∧ f.arity = .exactly 2 ∧ f.implementation = .builtin .power := by
  have listed : ∃ e ∈ Builtin.entries, e.name = "pow" ∧ e.arity = .exactly 2 ∧ e.rule = .power := by decide
  obtain ⟨e, he, hpow, harity, hrule⟩ := listed
  have hbuiltin := reached.resolving.builtin _ (List.mem_map_of_mem he)
  exact ⟨_, reached.resolving.find?_eq_some hbuiltin (hname.trans hpow.symm), harity, congrArg _ hrule⟩

namespace Evaluation

open SciCalc.Tree

variable {c : Calculator} {env : Environment} {t : Token} {s s' : Machine} {v w : Value}

/-- The token of a power takes two operands. -/
theorem takes_of_isPower (reached : Calculator.Reachable c) (hvocabulary : env.vocabulary = c.vocabulary)
    (ht : t.IsPower) : Takes env.vocabulary t 2 := by
  rw [hvocabulary]
  cases ht with
  | operator hkind hsymbol =>
    obtain ⟨description, hfind⟩ := Operators.exists_find?_power hsymbol
    rw [← show c.vocabulary.operators = .calculator from reached.coherent.operators] at hfind
    exact Or.inl ⟨hkind, _, hfind, rfl⟩
  | call hkind hname hcount =>
    obtain ⟨f, hf, harity, -⟩ := reached.function?_pow hname
    exact Or.inr (hcount.imp (fun h => ⟨hkind, h⟩) fun h => ⟨hkind, h, f, hf, harity⟩)

/-- An operator gives the power of its operands when they have been promoted. -/
theorem nodeValue_operator (table : env.vocabulary.operators = .calculator) (hkind : t.kind = .operator)
    (hsymbol : t.value = "^" ∨ t.value = "**") (apply : Function → List Value → Except Failure Value)
    (v w : Value) :
    nodeValue apply env t [v, w] =
      ((v.promote w >>= fun o => o.values.1.power env.modes o.values.2) >>= env.modes.normalize) := by
  obtain ⟨description, hfind⟩ := Operators.exists_find?_power hsymbol
  rw [← table] at hfind
  simp only [nodeValue, hkind, hfind, Operator.between, BinaryRule.apply]
  cases v.promote w with
  | error f => rfl
  | ok o => rfl

/-- **Any token of a power gives the power of its operands**, brought into the active regime. -/
theorem nodeValue_power_iff (reached : Calculator.Reachable c) (hvocabulary : env.vocabulary = c.vocabulary)
    (hleast : Limit.leastPrecision ≤ env.modes.precision) (ht : t.IsPower)
    (hv : v.Native env.modes ∧ env.modes.Rereads v) (hw : w.Native env.modes ∧ env.modes.Rereads w)
    (allowance draw : Nat) (u : Value) :
    nodeValue (fun f => callAt allowance env f draw) env t [v, w] = .ok u ↔
      (v.power env.modes w >>= env.modes.normalize) = .ok u := by
  cases ht with
  | operator hkind hsymbol =>
    have table : env.vocabulary.operators = .calculator := by
      rw [hvocabulary]
      exact reached.coherent.operators
    rw [nodeValue_operator table hkind hsymbol, bind_eq_ok, bind_eq_ok]
    exact exists_congr fun x => and_congr_left fun _ => Value.power_promoted hleast hv hw x
  | call hkind hname hcount =>
    obtain ⟨f, hf, harity, himplementation⟩ := reached.function?_pow hname
    have hfits : f.arityProblem? ([v, w].length : Int) = none := by
      rw [Function.arityProblem?, harity]
      rfl
    have hcall : callAt allowance env f draw [v, w] = v.power env.modes w := by
      unfold callAt
      rw [himplementation]
      rfl
    simp only [nodeValue, hkind, hvocabulary, hf, hfits, hcall]

/-! ## Steps -/

/-- The values of the machine belong to the active regime, and are read again as themselves. -/
abbrev Ready (m : Modes) : Machine → Prop := Machine.Holds fun v => v.Native m ∧ m.Rereads v

/-- **A run leaves values of the active regime** that are read again as themselves. -/
theorem run_ready {call : Caller} (hleast : Limit.leastPrecision ≤ env.modes.precision) (ts : List Token) :
    Gives (Ready env.modes) (run call env start ts) := by
  refine run_holds (fun v u hu => ?_) (fun text u hu => ?_) ts fun v hv => absurd hv List.not_mem_nil
  · exact ⟨Modes.normalize_native hleast v u hu, Modes.normalize_rereads hleast v u hu⟩
  · exact ⟨Modes.literal_native hleast text u hu, Modes.literal_rereads hleast text u hu⟩

/-- **The step over any token of a power** takes two values from the stack and leaves their power. -/
theorem step_power_iff (reached : Calculator.Reachable c) (hvocabulary : env.vocabulary = c.vocabulary)
    (hleast : Limit.leastPrecision ≤ env.modes.precision) (ht : t.IsPower) (allowance : Nat)
    (hs : Ready env.modes s) :
    step (callAt allowance env) env s t = .ok s' ↔
      ∃ v w rest u, s.stack = w :: v :: rest ∧ (v.power env.modes w >>= env.modes.normalize) = .ok u ∧
        s' = ⟨u :: rest, s.operations + 1⟩ := by
  have takes := takes_of_isPower reached hvocabulary ht
  have applied : ∀ {v w : Value} {rest : List Value}, s.stack = w :: v :: rest →
      (step (callAt allowance env) env s t = .ok s' ↔
        ∃ u, (v.power env.modes w >>= env.modes.normalize) = .ok u ∧ s' = ⟨u :: rest, s.operations + 1⟩) := by
    intro v w rest hstack
    obtain ⟨stack, operations⟩ := s
    subst hstack
    have hnode : step (callAt allowance env) env ⟨w :: v :: rest, operations⟩ t =
        (nodeValue (fun f => callAt allowance env f (env.draw + operations)) env t [v, w]).map
          fun u => ⟨u :: rest, operations + 1⟩ :=
      step_node (show Takes env.vocabulary t [v, w].length from takes) rest operations
    have hpower := nodeValue_power_iff reached hvocabulary hleast ht (hs v (List.mem_cons_of_mem _ List.mem_cons_self))
      (hs w List.mem_cons_self) allowance (env.draw + operations)
    rw [hnode]
    constructor
    · intro h
      obtain ⟨u, hu, rfl⟩ := exists_of_map_eq_ok h
      exact ⟨u, (hpower u).mp hu, rfl⟩
    · rintro ⟨u, hu, rfl⟩
      rw [(hpower u).mpr hu, map_ok]
  constructor
  · intro hstep
    rcases step_eq_ok hstep with ⟨hoperand, -⟩ | ⟨n, htakes, hlength, -⟩
    · exact absurd hoperand (not_isOperand_of_takes takes)
    obtain rfl := takes_unique htakes takes
    rcases hstack : s.stack with _ | ⟨w, _ | ⟨v, rest⟩⟩
    · rw [hstack] at hlength
      cases hlength
    · rw [hstack] at hlength
      cases Nat.le_of_succ_le_succ hlength
    · obtain ⟨u, hu, hs'⟩ := (applied hstack).mp hstep
      exact ⟨v, w, rest, u, rfl, hu, hs'⟩
  · rintro ⟨v, w, rest, u, hstack, hu, hs'⟩
    exact (applied hstack).mpr ⟨u, hu, hs'⟩

/-! ## Theorem -/

/-- **The ways to write a power agree.**  In any modes that a reachable calculator has, with whatever variables,
    arguments and functions, any two tokens of powers do the same to the two values that other tokens have left; and
    in any row of tokens one may stand for the other, which leaves the value of the row and the number of operations
    as they are. -/
theorem powers_agree (reached : Calculator.Reachable c) (hvocabulary : env.vocabulary = c.vocabulary)
    (hmodes : env.modes = c.modes) (allowance : Nat) {t t' : Token} (ht : t.IsPower) (ht' : t'.IsPower)
    (ts : List Token) :
    (∀ s v w rest, run (callAt allowance env) env start ts = .ok s → s.stack = w :: v :: rest →
      ∀ s', step (callAt allowance env) env s t = .ok s' ↔ step (callAt allowance env) env s t' = .ok s') ∧
    ∀ us outcome, evaluateWith (callAt allowance env) env (ts ++ t :: us) = .ok outcome ↔
      evaluateWith (callAt allowance env) env (ts ++ t' :: us) = .ok outcome := by
  have hleast : Limit.leastPrecision ≤ env.modes.precision := by
    rw [hmodes]
    exact reached.limited.1
  have same : ∀ {s s' : Machine}, run (callAt allowance env) env start ts = .ok s →
      (step (callAt allowance env) env s t = .ok s' ↔ step (callAt allowance env) env s t' = .ok s') := by
    intro s s' hrun
    have hs : Ready env.modes s := run_ready hleast ts s hrun
    rw [step_power_iff reached hvocabulary hleast ht allowance hs,
      step_power_iff reached hvocabulary hleast ht' allowance hs]
  refine ⟨fun s v w rest hrun _ s' => same hrun, fun us outcome => ?_⟩
  rw [evaluateWith_eq_ok, evaluateWith_eq_ok]
  refine exists_congr fun s => and_congr_left fun _ => ?_
  rw [run_append, run_append, bind_eq_ok, bind_eq_ok]
  refine exists_congr fun before => and_congr_right fun hrun => ?_
  rw [run_cons, run_cons, bind_eq_ok, bind_eq_ok]
  exact exists_congr fun after => and_congr_left fun _ => same hrun

/-- The integer four to the power of a half, where integers of any size are used: the operator and the function give
    the integer two. -/
theorem powers_agree_root_of_four :
    let c := (Calculator.new 10).inRegime .exact
    let env := c.environment
    let ts : List Token := [⟨.number, "4", 0, none⟩, ⟨.number, "0.5", 5, none⟩]
    let t : Token := ⟨.operator, "**", 2, none⟩
    let t' : Token := ⟨.function, "POW", 0, some 2⟩
    Calculator.Reachable c ∧ t.IsPower ∧ t'.IsPower ∧
      run env.call env start ts = .ok ⟨[.real Double.half, .integer 4], 0⟩ ∧
      step env.call env ⟨[.real Double.half, .integer 4], 0⟩ t' = .ok ⟨[.integer 2], 1⟩ ∧
      env.evaluate (ts ++ [t']) = .ok ⟨.integer 2, 1⟩ := by
  intro c env ts t t'
  have reached : Calculator.Reachable c := .perform _ (.new 10)
  have ht : t.IsPower := .operator rfl (Or.inr rfl)
  have ht' : t'.IsPower := .call rfl (by decide) (Or.inl rfl)
  have hrun : run env.call env start ts = .ok ⟨[.real Double.half, .integer 4], 0⟩ := rfl
  have hstep : step env.call env ⟨[.real Double.half, .integer 4], 0⟩ t = .ok ⟨[.integer 2], 1⟩ := by
    have computed : (step env.call env ⟨[.real Double.half, .integer 4], 0⟩ t).toOption.map
        (fun s => (s.stack, s.operations)) = some ([.integer 2], 1) := by decide +kernel
    obtain ⟨⟨stack, operations⟩, hs, hsame⟩ := Option.map_eq_some_iff.mp computed
    cases hsame
    exact toOption_eq_some.mp hs
  have hvalue : env.evaluate (ts ++ [t]) = .ok ⟨.integer 2, 1⟩ := by
    rw [← toOption_eq_some]
    decide +kernel
  have hvocabulary : env.vocabulary = c.vocabulary := rfl
  obtain ⟨hsteps, hvalues⟩ := powers_agree reached hvocabulary rfl Limit.nesting ht ht' ts
  exact ⟨reached, ht, ht', hrun, (hsteps _ _ _ _ hrun rfl _).mp hstep, (hvalues [] _).mp hvalue⟩

end Evaluation

end SciCalc
