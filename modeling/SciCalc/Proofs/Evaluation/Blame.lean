/-
  Evaluation and blame.

  1. **Sound vocabularies** (`Vocabulary.Sound`) — the operators are the calculator's own, and every defined
     function has the post-order of a fitting tree for its body.  Nothing is asked of the functions that a body
     names: they may be gone, or take another number of arguments than they did.

  2. **Failures raised** (`Vocabulary.Raises`) — a function of the surrounding program may fail as it likes, also
     with a failure that blames the row of tokens, of which it knows nothing.

  3. **Trees** (`valueAt_blamesOnly`) — a node has the operands that it needs, so that only the names, the
     numbers of arguments and the numbers themselves can be at fault.

  4. **Calls** (`callAt_blamesOnly`) — by induction on how many more calls may be active: a body is evaluated in
     the vocabulary of its caller.  So the failures that blame are those that a function raises.
-/
import SciCalc.Proofs.Function.Blame
import SciCalc.Proofs.Postfix.Fitting

namespace SciCalc

open Attempt Tree

/-! ## Sound vocabularies -/

/-- The body of a defined function is the post-order of a tree that fits the operators. -/
def Function.Compiled (ops : Operators) (f : Function) : Prop :=
  ∀ name parameters body, f.implementation = .defined name parameters body →
    ∃ x, Fits ops.alone x ∧ x.postorder = body

/-- **What an evaluation without blame of its own asks of operators and functions.** -/
structure Vocabulary.Sound (v : Vocabulary) : Prop where
  /-- The operators are the calculator's own. -/
  own : ∀ o ∈ v.operators.all, o.rule.isHost = false
  /-- Bodies are compiled. -/
  compiled : ∀ r, v.functions = some r → ∀ f ∈ r.functions, f.Compiled v.operators

/-- A function of a name is one of the registry. -/
theorem Vocabulary.mem_of_function? {v : Vocabulary} {name : String} {f : Function}
    (found : v.function? name = some f) : ∃ r, v.functions = some r ∧ f ∈ r.functions := by
  obtain ⟨r, hr, hf⟩ := Option.bind_eq_some_iff.mp found
  exact ⟨r, hr, List.mem_of_find?_eq_some hf⟩

/-- A number of arguments that does not fit blames nothing. -/
theorem Function.arityProblem?_not_blamesRow {f : Function} {n : Int} {failure : Failure}
    (h : f.arityProblem? n = some failure) : ¬ failure.BlamesRow := by
  have cause_not_blamesRow : ∀ m k, ¬ (Failure.arity (.wrongCount f.name m k)).BlamesRow :=
    fun m k => arity_not_blamesRow nofun
  unfold arityProblem? at h
  split at h
  · split at h
    · cases h
      exact arity_not_blamesRow nofun
    · cases h
  · split at h
    · cases h
    · cases h
      exact telling_not_blamesRow (fun _ => telling_not_blamesRow (fun _ => cause_not_blamesRow _ _) _) _

/-! ## Failures raised -/

/-- The function is computed by the surrounding program, and fails in this way for some arguments. -/
def Function.Raises (f : Function) (failure : Failure) : Prop :=
  ∃ call args, f.implementation = .host call ∧ call args = .error failure

/-- A function of the vocabulary fails in this way in the surrounding program. -/
def Vocabulary.Raises (v : Vocabulary) (failure : Failure) : Prop :=
  ∃ r, v.functions = some r ∧ ∃ f ∈ r.functions, f.Raises failure

/-! ## Trees -/

namespace Tree

variable {env : Environment}

variable {p : Failure → Prop}

theorem leafValue_blameless {t : Token} (operand : isOperand t) : Blameless (leafValue env t) := by
  rcases operand with h | h | h
  · rw [leafValue, h]
    exact Modes.literal_blameless env.modes t.value
  · rw [leafValue, h]
    simp only [Evaluation.constantValue]
    split
    · exact (blameless_error _).mpr (unknown_not_blamesRow (by decide) _)
    · simp
  · rw [leafValue, h]
    simp only [Evaluation.variableValue]
    split
    · exact (blameless_error _).mpr (unknown_not_blamesRow (by decide) _)
    · exact Modes.normalize_blameless _ _

/-- An operator with the operands that it takes fails without blame. -/
theorem operatorValue_blameless {apply : Function → List Value → Except Failure Value}
    (own : ∀ o ∈ env.vocabulary.operators.all, o.rule.isHost = false) {t : Token} {vs : List Value}
    (ht : t.kind = .operator) {o : Operator} (found : env.vocabulary.operators.find? t.value = some o)
    (arity : o.rule.arity = vs.length) : Blameless (nodeValue apply env t vs) := by
  have ruled := own o (Operators.mem_of_find? found)
  simp only [nodeValue, ht, found]
  cases hr : o.rule with
  | unary rule =>
    rw [hr] at arity ruled
    obtain ⟨v, rfl⟩ := List.length_eq_one_iff.mp arity.symm
    simp [UnaryRule.apply_blameless ruled v]
  | binary rule =>
    rw [hr] at arity ruled
    obtain ⟨v, rest, rfl⟩ := List.exists_cons_of_length_eq_add_one arity.symm
    obtain ⟨w, rfl⟩ := List.length_eq_one_iff.mp (Nat.succ.inj arity.symm)
    simp [BinaryRule.apply_blameless ruled]

/-- A function blames as its calls do: where its name and its arguments are looked at nothing is blamed. -/
theorem functionValue_blamesOnly {apply : Function → List Value → Except Failure Value}
    {t : Token} {vs : List Value} (ht : t.kind = .function)
    (calls : ∀ f, env.vocabulary.function? t.value = some f → BlamesOnly p (apply f vs)) :
    BlamesOnly p (nodeValue apply env t vs) := by
  simp only [nodeValue, ht]
  cases hf : env.vocabulary.function? t.value with
  | none => exact Blameless.blamesOnly ((blameless_error _).mpr (unknown_not_blamesRow (by decide) _))
  | some f =>
    dsimp only
    cases hp : f.arityProblem? vs.length with
    | some failure =>
      exact Blameless.blamesOnly ((blameless_error _).mpr (Function.arityProblem?_not_blamesRow hp))
    | none =>
      rw [blamesOnly_bind]
      exact ⟨calls f hf, fun v _ => (Modes.normalize_blameless env.modes v).blamesOnly⟩

/-- **A node that has its operands blames as its calls do.** -/
theorem nodeValue_blamesOnly {apply : Function → List Value → Except Failure Value}
    (own : ∀ o ∈ env.vocabulary.operators.all, o.rule.isHost = false) {t : Token} {vs : List Value}
    (takes : Takes env.vocabulary t vs.length)
    (calls : ∀ f, env.vocabulary.function? t.value = some f → BlamesOnly p (apply f vs)) :
    BlamesOnly p (nodeValue apply env t vs) := by
  rcases takes with ⟨ht, o, found, arity⟩ | ⟨ht, -⟩ | ⟨ht, -⟩
  · exact (operatorValue_blameless own ht found arity).blamesOnly
  · exact functionValue_blamesOnly ht calls
  · exact functionValue_blamesOnly ht calls

mutual

/-- **A tree that fits blames as its calls do.** -/
theorem valueAt_blamesOnly {call : Caller} (own : ∀ o ∈ env.vocabulary.operators.all, o.rule.isHost = false)
    (calls : ∀ name f, env.vocabulary.function? name = some f → ∀ draw args, BlamesOnly p (call f draw args)) :
    ∀ (x : Tree) (before : Nat), Fits env.vocabulary x → BlamesOnly p (valueAt call env before x)
  | leaf t, before, fits => by
    rw [valueAt]
    exact (leafValue_blameless fits).blamesOnly
  | node t xs, before, fits => by
    rw [valueAt, blamesOnly_bind]
    refine ⟨valuesAt_blamesOnly own calls xs before fits.2, ?_⟩
    intro vs hvs
    have takes : Takes env.vocabulary t vs.length := by
      rw [length_valuesAt hvs]
      exact fits.1
    exact nodeValue_blamesOnly own takes fun f hf => calls t.value f hf _ _

theorem valuesAt_blamesOnly {call : Caller} (own : ∀ o ∈ env.vocabulary.operators.all, o.rule.isHost = false)
    (calls : ∀ name f, env.vocabulary.function? name = some f → ∀ draw args, BlamesOnly p (call f draw args)) :
    ∀ (xs : List Tree) (before : Nat), FitAll env.vocabulary xs → BlamesOnly p (valuesAt call env before xs)
  | [], before, _ => by
    rw [valuesAt]
    exact blamesOnly_ok []
  | x :: xs, before, fits => by
    rw [valuesAt, blamesOnly_bind]
    refine ⟨valueAt_blamesOnly own calls x before fits.1, ?_⟩
    intro v _
    rw [blamesOnly_bind]
    refine ⟨valuesAt_blamesOnly own calls xs _ fits.2, ?_⟩
    intro vs _
    exact blamesOnly_ok _

end

end Tree

namespace Evaluation

variable {p : Failure → Prop}

/-- The evaluation of a fitting tree's post-order blames as its calls do. -/
theorem evaluateWith_blamesOnly {call : Caller} {env : Environment}
    (own : ∀ o ∈ env.vocabulary.operators.all, o.rule.isHost = false)
    (calls : ∀ name f, env.vocabulary.function? name = some f → ∀ draw args, BlamesOnly p (call f draw args))
    {x : Tree} (fits : Fits env.vocabulary x) : BlamesOnly p (evaluateWith call env x.postorder) := by
  rw [evaluateWith_postorder fits]
  have whole := valueAt_blamesOnly own calls x 0 fits
  cases hx : valueAt call env 0 x with
  | ok v => exact blamesOnly_ok _
  | error failure =>
    refine (blamesOnly_error _).mpr fun blames => ?_
    -- a fault blames nothing, so that what blames is passed on as it is
    have before : failure.BlamesRow :=
      Classical.byContradiction fun clear => translated_not_blamesRow clear blames
    rw [translated_of_blamesRow before]
    exact whole failure hx before

/-! ## Calls -/

/-- A function of the surrounding program blames the row of tokens only with what it raises. -/
theorem host_blamesOnly {v : Vocabulary} {r : Registry} (hr : v.functions = some r) {f : Function}
    (mem : f ∈ r.functions) {call : List Plain → Except Failure Plain} (himpl : f.implementation = .host call)
    (args : List Plain) (precision : Nat) :
    BlamesOnly v.Raises (do (← call args).toValue precision) := by
  rw [blamesOnly_bind]
  refine ⟨fun failure hcall _ => ⟨r, hr, f, mem, call, args, himpl, hcall⟩, fun plain _ => ?_⟩
  exact (Plain.toValue_blameless precision plain).blamesOnly

/-- **A call in a sound vocabulary blames the row of tokens only with what a function raises**, however many more
    calls may be active. -/
theorem callAt_blamesOnly (allowance : Nat) : ∀ {env : Environment}, env.vocabulary.Sound →
    ∀ {r : Registry}, env.vocabulary.functions = some r → ∀ f ∈ r.functions, ∀ draw args,
      BlamesOnly env.vocabulary.Raises (callAt allowance env f draw args) := by
  induction allowance with
  | zero =>
    intro env sound r hr f mem draw args
    unfold callAt
    split
    · exact (Builtin.apply_blameless _ _ _ _).blamesOnly
    · rename_i call himpl
      exact host_blamesOnly hr mem himpl _ _
    · exact Blameless.blamesOnly ((blameless_error _).mpr (structural_not_blamesRow rfl))
    · rename_i h
      cases h
  | succ allowance ih =>
    intro env sound r hr f mem draw args
    unfold callAt
    split
    · exact (Builtin.apply_blameless _ _ _ _).blamesOnly
    · rename_i call himpl
      exact host_blamesOnly hr mem himpl _ _
    · rename_i h
      cases h
    · rename_i name parameters body _ himpl h
      cases h
      obtain ⟨x, fits, rfl⟩ := sound.compiled r hr f mem _ parameters body himpl
      let inner := enter env parameters args draw
      have soundInside : inner.vocabulary.Sound := sound
      -- the vocabulary inside is that of the caller, whatever has become of the functions the body names
      have calls : ∀ name g, inner.vocabulary.function? name = some g → ∀ draw args,
          BlamesOnly env.vocabulary.Raises (callAt allowance inner g draw args) := by
        intro name g hg
        obtain ⟨r', hr', hmem⟩ := Vocabulary.mem_of_function? hg
        exact ih soundInside hr' g hmem
      have fitsInside : Fits inner.vocabulary x := Fits.of_operators fits
      have whole : BlamesOnly env.vocabulary.Raises
          (evaluateWith (callAt allowance inner) inner x.postorder) :=
        evaluateWith_blamesOnly soundInside.own calls fitsInside
      dsimp only
      cases hx : evaluateWith (callAt allowance inner) inner x.postorder with
      | ok outcome => exact blamesOnly_ok _
      | error failure => exact (blamesOnly_error _).mpr (whole failure hx)

/-- **The evaluation of a fitting tree's post-order blames only with what a function raises.** -/
theorem evaluate_blamesOnly {env : Environment} (sound : env.vocabulary.Sound) {x : Tree}
    (fits : Fits env.vocabulary x) : BlamesOnly env.vocabulary.Raises (env.evaluate x.postorder) := by
  refine evaluateWith_blamesOnly sound.own ?_ fits
  intro name f hf
  obtain ⟨r, hr, hmem⟩ := Vocabulary.mem_of_function? hf
  exact callAt_blamesOnly Limit.nesting sound hr f hmem

end Evaluation

end SciCalc
