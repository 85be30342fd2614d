/-
  No calculation blames the row of tokens by itself.

  1. **Coherent calculators** (`Coherent`) — the operators are those of a calculator, and every body of a
     defined function is the post-order of a tree that fits them.  A new calculator is coherent, and every
     operation keeps it so: what it defines has just been compiled with the same operators.

  2. **Calculations** — the tokens of an expression are lexed, rearranged to the post-order of a fitting tree,
     and evaluated in a vocabulary that is sound.  The stages blame nothing by themselves; a failure that a
     function of the surrounding program raises is told as it is.
-/
import SciCalc.Function.Samples
import SciCalc.Proofs.Calculator.Operation
import SciCalc.Proofs.Evaluation.Blame
import SciCalc.Proofs.Token.Lexer

namespace SciCalc.Calculator

open Attempt Tree

/-! ## Coherent calculators -/

/-- The operators are the calculator's own and all bodies are compiled with them. -/
structure Coherent (c : Calculator) : Prop where
  /-- The operators are those that a new calculator has. -/
  operators : c.operators = .calculator
  /-- Bodies are the post-order of fitting trees. -/
  compiled : ∀ f ∈ c.functions.functions, f.Compiled c.operators

/-- The operators of a calculator are not of the surrounding program. -/
theorem own_calculator : ∀ o ∈ Operators.calculator.all, o.rule.isHost = false := by
  decide +kernel

theorem coherent_new (historySize : Nat) : Coherent (new historySize) := by
  refine ⟨rfl, ?_⟩
  intro f hf name parameters body himpl
  obtain ⟨e, -, rfl⟩ := List.mem_map.mp hf
  cases himpl

section

variable {c : Calculator}

/-- The rearranged tokens of an expression are the post-order of a fitting tree. -/
theorem Coherent.exists_tree (coherent : c.Coherent) {expression : Plain} {ts ps : List Token}
    (lexed : c.tokens expression = .ok ts) (ok : c.rearrange ts = .ok ps) :
    ∃ x, Fits c.operators.alone x ∧ x.postorder = ps := by
  have ranked : c.operators.Ranked := ranked_of_table (Or.inr coherent.operators)
  unfold tokens Token.ofPlain at lexed
  split at lexed
  · obtain ⟨body, e, rfl, he, hbody⟩ := Token.exists_body_of_tokenize lexed
    exact Postfix.exists_tree_of_ofTokens ranked he hbody ok
  · cases lexed

/-- A compiled expression is the post-order of a fitting tree. -/
theorem Coherent.exists_tree_of_compile (coherent : c.Coherent) {expression : Plain} {ps : List Token}
    (ok : c.compile expression = .ok ps) : ∃ x, Fits c.operators.alone x ∧ x.postorder = ps := by
  obtain ⟨ts, lexed, hps⟩ := compile_eq_ok.mp ok
  exact coherent.exists_tree lexed hps

/-- **An operation keeps a calculator coherent.**  What it leaves was compiled for the same operators, and
    what it defines has been compiled in front of it. -/
theorem Coherent.perform (coherent : c.Coherent) (op : Operation) : (c.perform op).Coherent := by
  have same := operators_perform c op
  refine ⟨same.trans coherent.operators, ?_⟩
  intro f hf
  rw [same]
  cases origin_of_mem_perform hf with
  | kept hmem => exact coherent.compiled f hmem
  | registered _ himpl =>
    intro name parameters body hdefined
    rw [himpl] at hdefined
    cases hdefined
  | defined hcompile himpl =>
    -- the body was compiled with the operators of now, which are those of later
    intro name parameters body hdefined
    rw [himpl] at hdefined
    cases hdefined
    exact coherent.exists_tree_of_compile hcompile

/-- **Every reachable calculator is coherent.** -/
theorem Reachable.coherent (reached : Reachable c) : c.Coherent := by
  induction reached with
  | new historySize => exact coherent_new historySize
  | perform op _ ih => exact ih.perform op

/-- A coherent calculator has a sound vocabulary. -/
theorem Coherent.sound (coherent : c.Coherent) : c.vocabulary.Sound := by
  refine ⟨?_, ?_⟩
  · show ∀ o ∈ c.operators.all, o.rule.isHost = false
    rw [coherent.operators]
    exact own_calculator
  · intro r hr
    cases hr
    exact coherent.compiled

/-! ## Calculations -/

/-- Every stage of an evaluation blames only with what a function raises. -/
theorem Coherent.evaluate_blamesOnly (coherent : c.Coherent) (expression : Plain) :
    BlamesOnly c.vocabulary.Raises (c.evaluate expression).2.2 := by
  unfold evaluate
  split
  · exact Blameless.blamesOnly ((blameless_error _).mpr (lexical_not_blamesRow _))
  · rename_i ts lexed
    split
    · rename_i cause failed
      have sober := Postfix.isOfExpression_of_ofTokens failed
      exact Blameless.blamesOnly ((blameless_error _).mpr (StructuralCause.failure_not_blamesRow sober))
    · rename_i ps ok
      obtain ⟨x, fits, rfl⟩ := coherent.exists_tree lexed ok
      -- which functions there are does not matter: a call records the number of its arguments
      have fitsHere : Fits c.environment.vocabulary x := Fits.of_operators fits
      dsimp only
      rw [blamesOnly_bind]
      refine ⟨Evaluation.evaluate_blamesOnly coherent.sound fitsHere, fun outcome _ => ?_⟩
      refine Blameless.blamesOnly ?_
      simp

/-- A calculation gives a value, or it tells a failure, which blames the row only if a function raises it. -/
theorem Coherent.calculate_eq (coherent : c.Coherent) (expression : Plain) :
    ((c.calculate expression).1.error = none ∧ (c.calculate expression).1.errorCode = none) ∨
      ∃ failure : Failure, (failure.BlamesRow → c.vocabulary.Raises failure) ∧
        (c.calculate expression).1.error = some failure.outcome.1 ∧
        (c.calculate expression).1.errorCode = some failure.outcome.2 := by
  have begun : c.begin.Coherent := ⟨coherent.operators, coherent.compiled⟩
  have blames := begun.evaluate_blamesOnly expression
  unfold calculate
  split
  · exact Or.inl ⟨rfl, rfl⟩
  · rename_i tokenCount postfixLength failure hfailure
    rw [hfailure] at blames
    exact Or.inr ⟨failure, (blamesOnly_error failure).mp blames, rfl, rfl⟩

end

end SciCalc.Calculator
