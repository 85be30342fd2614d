/-
  Calculations whose values are finite.

  1. **Numerals** (`Reachable.numerals`) — the numbers of a compiled expression are finite decimals, and so are
     those of every body that a reachable calculator has compiled.

  2. **Calculations** (`finite_or_spoiled`) — the value of a calculation is finite unless its evaluation is
     spoiled.  Where doubles are used no evaluation is.
-/
import SciCalc.Proofs.Calculator.Blame
import SciCalc.Proofs.Evaluation.Finite
import SciCalc.Proofs.Postfix.Operands

namespace SciCalc.Calculator

open Attempt Evaluation

variable {c : Calculator} {expression : Plain} {ts ps : List Token} {v : Value}

/-! ## Numerals -/

/-- The rearranged tokens of an expression have finite numerals. -/
theorem numeralFinite_of_rearrange (lexed : c.tokens expression = .ok ts) (ok : c.rearrange ts = .ok ps) :
    ∀ t ∈ ps, t.NumeralFinite := by
  intro t ht hkind
  have hmem : t ∈ ts := Postfix.mem_of_mem_ofTokens ok ht (Or.inl hkind)
  unfold tokens Token.ofPlain at lexed
  split at lexed
  · exact Token.numeralFinite_of_tokenize lexed t hmem hkind
  · cases lexed

/-- **The bodies of a reachable calculator have finite numerals.** -/
theorem Reachable.numerals (reached : Reachable c) : ∀ f ∈ c.functions.functions, ∀ name parameters body,
    f.implementation = .defined name parameters body → ∀ t ∈ body, t.NumeralFinite := by
  induction reached with
  | new historySize =>
    intro f hf name parameters body himpl
    obtain ⟨e, -, rfl⟩ := List.mem_map.mp hf
    cases himpl
  | perform op _ ih =>
    intro f hf name parameters body himpl
    cases origin_of_mem_perform hf with
    | kept hmem => exact ih f hmem name parameters body himpl
    | registered _ hhost =>
      rw [hhost] at himpl
      cases himpl
    | defined hcompile hdefined =>
      rw [hdefined] at himpl
      cases himpl
      obtain ⟨ts, lexed, ok⟩ := compile_eq_ok.mp hcompile
      exact numeralFinite_of_rearrange lexed ok

/-- The vocabulary of a reachable calculator has finite numerals. -/
theorem Reachable.numeric (reached : Reachable c) : c.vocabulary.Numeric := by
  refine ⟨?_, ?_⟩
  · show ∀ o ∈ c.operators.all, o.rule.isHost = false
    rw [reached.coherent.operators]
    exact own_calculator
  · intro r hr f hf
    cases hr
    exact reached.numerals f hf

/-! ## Calculations -/

/-- A value that a calculation gives comes from the stages of the calculation, and so does what is shown of it. -/
theorem exists_stages_of_calculate (h : (c.calculate expression).1.value = some v) :
    ∃ ts ps outcome shown, c.tokens expression = .ok ts ∧ c.rearrange ts = .ok ps ∧
      c.begin.environment.evaluate ps = .ok outcome ∧ outcome.value = v ∧ v.shown = .ok shown ∧
      (c.calculate expression).1.formatted = some shown := by
  unfold calculate at h ⊢
  split at h
  · rename_i k l outcome formatted heval
    cases h
    unfold evaluate at heval
    split at heval
    · cases heval
    rename_i ts hts
    split at heval
    · cases heval
    rename_i ps hps
    injection heval with _ heval
    injection heval with _ heval
    obtain ⟨o, ho, heval⟩ := bind_eq_ok.mp heval
    obtain ⟨shown, hshown, heval⟩ := bind_eq_ok.mp heval
    cases heval
    exact ⟨ts, ps, outcome, formatted, hts, hps, ho, rfl, hshown, rfl⟩
  · cases h

/-- A value that a calculation gives is that of the compiled expression. -/
theorem exists_outcome_of_calculate (h : (c.calculate expression).1.value = some v) :
    ∃ ts ps outcome, c.tokens expression = .ok ts ∧ c.rearrange ts = .ok ps ∧
      c.begin.environment.evaluate ps = .ok outcome ∧ outcome.value = v := by
  obtain ⟨ts, ps, outcome, _, hts, hps, heval, hvalue, -⟩ := exists_stages_of_calculate h
  exact ⟨ts, ps, outcome, hts, hps, heval, hvalue⟩

/-- **The value of a calculation is finite**, unless decimals or integers of any size are used and the
    evaluation is spoiled. -/
theorem finite_or_spoiled (reached : Reachable c) (h : (c.calculate expression).1.value = some v) :
    v.isFinite = true ∨ (c.modes.regime ≠ .double ∧
      ∃ ps, c.compile expression = .ok ps ∧ Spoiled Limit.nesting c.begin.environment ps) := by
  obtain ⟨ts, ps, outcome, hts, hps, heval, rfl⟩ := exists_outcome_of_calculate h
  by_cases hspoiled : Spoiled Limit.nesting c.begin.environment ps
  · exact Or.inr ⟨regime_of_spoiled hspoiled, ps, compile_eq_ok.mpr ⟨ts, hts, hps⟩, hspoiled⟩
  · have hnumeric : c.begin.environment.vocabulary.Numeric := reached.numeric
    have hsettled := evaluateWith_settled Limit.nesting hnumeric (numeralFinite_of_rearrange hts hps) hspoiled
    exact Or.inl (hsettled outcome heval).1

/-- With decimals zero to the power of minus one is infinite. -/
theorem value_zero_to_minus_one :
    let c := (new 10).perform (.setMode .regime (.text "decimal"))
    (c.calculate (.text "0^-1")).1.value = some (.decimal (.infinite false) c.modes.context) := by
  decide +kernel

/-- So its evaluation is spoiled. -/
theorem spoiled_zero_to_minus_one :
    let c := (new 10).perform (.setMode .regime (.text "decimal"))
    ∃ ps, c.compile (.text "0^-1") = .ok ps ∧ Spoiled Limit.nesting c.begin.environment ps := by
  intro c
  have reached : Reachable c := .perform _ (.new 10)
  exact ((finite_or_spoiled reached value_zero_to_minus_one).resolve_left (by decide)).2

/-- Not every calculation that succeeds has a finite value. -/
theorem not_always_finite :
    ¬ ∀ c, Reachable c → ∀ expression v, (c.calculate expression).1.value = some v → v.isFinite = true := by
  intro h
  have hfinite := h _ (.perform (.setMode .regime (.text "decimal")) (.new 10)) _ _ value_zero_to_minus_one
  cases hfinite

end SciCalc.Calculator
