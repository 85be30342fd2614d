/-
  Evaluation on a stack is evaluation by recursion.

  1. **Draws** — only random functions look at the number of a draw.  `Steady` says that a function does not,
     and `steady_of_drawless` that no function does from which no random one is reached, whatever calls
     whatever.

  2. **Values** (`valueAt_eq_value`) — where every function that is called is steady, the value of a tree
     does not depend on the operations before it.

  3. **Failures** (`findSome?_subtrees`) — a tree fails as the first of its subtrees does, in post-order.

  4. **The result** (`evaluate_iff_tree`) — tokens have a value exactly if they are the post-order of a tree
     that has this value, and the tokens of a tree that fails fail as it does.
-/
import SciCalc.Proofs.Evaluation.Postorder

namespace SciCalc

open Attempt

/-! ## Functions that draw no random numbers -/

/-- The function does not look at the number of the draw. -/
def Environment.Steady (env : Environment) (f : Function) : Prop :=
  ∀ draw args, env.call f draw args = env.call f env.draw args

/-- How functions that draw nothing are applied. -/
def Environment.apply (env : Environment) (f : Function) (args : List Value) : Except Failure Value :=
  env.call f env.draw args

/-- The rule draws random numbers. -/
def Builtin.draws (rule : Builtin) : Prop := rule = .random ∨ rule = .randomInteger

/-- A rule that draws nothing does not look at the number of the draw. -/
theorem Builtin.apply_congr_draw {rule : Builtin} (h : ¬ rule.draws) (m : Modes) (d d' : Nat)
    (args : List Value) : rule.apply m d args = rule.apply m d' args := by
  have htwo : ∀ v w, rule.two m d v w = rule.two m d' v w := by
    intro v w
    unfold two
    split
    case h_7 => exact absurd (Or.inr rfl) h
    all_goals rfl
  unfold apply
  split
  case h_10 => exact absurd (Or.inl rfl) h
  case h_12 v w _ _ _ _ _ _ _ _ _ => exact htwo v w
  all_goals rfl

/-- The functions that `reached` holds of draw nothing and call only functions that it holds of. -/
def Drawless (v : Vocabulary) (reached : Function → Prop) : Prop :=
  ∀ f, reached f →
    match f.implementation with
    | .builtin rule => ¬ rule.draws
    | .host _ => True
    | .defined _ _ body =>
      ∀ t ∈ body, t.kind = .function → ∀ g, v.function? t.value = some g → reached g

namespace Evaluation

open Tree

/-- Two environments that differ in the number of the first draw only. -/
def SameButDraw (env env' : Environment) : Prop := env' = { env with draw := env'.draw }

/-- Steps over a token do the same if the function that it calls does. -/
theorem step_congr_draw {call call' : Caller} {env env' : Environment} (same : SameButDraw env env')
    {t : Token} (h : t.kind = .function → ∀ f, env.vocabulary.function? t.value = some f →
      ∀ d d' args, call f d args = call' f d' args) (s : Machine) :
    step call env s t = step call' env' s t := by
  rw [same]
  by_cases hk : t.kind = .function
  · simp only [step, hk, applyFunction]
    cases hf : env.vocabulary.function? t.value with
    | none => rfl
    | some f =>
      have hcall := h hk f hf (env.draw + s.operations) (env'.draw + s.operations)
      simp only [hcall]
  · unfold step
    split <;> first | rfl | exact absurd ‹_› hk

/-- Runs over tokens do the same if the functions that they call do. -/
theorem run_congr_draw {call call' : Caller} {env env' : Environment} (same : SameButDraw env env')
    {ts : List Token} (h : ∀ t ∈ ts, t.kind = .function → ∀ f, env.vocabulary.function? t.value = some f →
      ∀ d d' args, call f d args = call' f d' args) :
    ∀ s : Machine, run call env s ts = run call' env' s ts := by
  induction ts with
  | nil => intro s; rfl
  | cons t ts ih =>
    intro s
    rw [run, run, step_congr_draw same (h t List.mem_cons_self) s]
    cases step call' env' s t with
    | error failure => rfl
    | ok s' => exact ih (fun u hu => h u (List.mem_cons_of_mem t hu)) s'

/-- A function from which no random one is reached does the same at every draw. -/
theorem callAt_congr_draw {v : Vocabulary} {reached : Function → Prop} (drawless : Drawless v reached)
    (allowance : Nat) : ∀ {env env' : Environment}, env.vocabulary = v → SameButDraw env env' →
      ∀ {f : Function}, reached f → ∀ d d' args,
        callAt allowance env f d args = callAt allowance env' f d' args := by
  induction allowance with
  | zero =>
    intro env env' hv same f hf d d' args
    have hd := drawless f hf
    rw [same]
    unfold callAt
    cases hi : f.implementation with
    | builtin rule =>
      rw [hi] at hd
      exact Builtin.apply_congr_draw hd env.modes d d' args
    | host call => rfl
    | defined name parameters body => rfl
  | succ n ih =>
    intro env env' hv same f hf d d' args
    have hd := drawless f hf
    unfold callAt
    cases hi : f.implementation with
    | builtin rule =>
      rw [hi] at hd
      rw [same]
      exact Builtin.apply_congr_draw hd env.modes d d' args
    | host call =>
      rw [same]
    | defined name parameters body =>
      rw [hi] at hd
      -- inside the call the environments differ in the number of the first draw again
      have hsame : SameButDraw (enter env parameters args d) (enter env' parameters args d') := by
        rw [same]
        rfl
      have hinner : (enter env parameters args d).vocabulary = v := hv
      have hcalls : ∀ t ∈ body, t.kind = .function → ∀ g, env.vocabulary.function? t.value = some g →
          ∀ e e' bs, callAt n (enter env parameters args d) g e bs =
            callAt n (enter env' parameters args d') g e' bs := by
        intro t ht hk g hg
        rw [hv] at hg
        exact ih hinner hsame (hd t ht hk g hg)
      have hbody := run_congr_draw hsame hcalls start
      simp only [evaluateWith, hbody]

end Evaluation

/-- **A function from which no random one is reached is steady.** -/
theorem Environment.steady_of_drawless {env : Environment} {reached : Function → Prop}
    (drawless : Drawless env.vocabulary reached) {f : Function} (h : reached f) : env.Steady f :=
  fun draw args => Evaluation.callAt_congr_draw drawless Limit.nesting rfl
    (show Evaluation.SameButDraw env env from rfl) h draw env.draw args

namespace Tree

/-! ## Values -/

/-- The functions that the tokens call do at every draw what `apply` says. -/
def SteadyAs (call : Caller) (apply : Function → List Value → Except Failure Value) (v : Vocabulary)
    (ts : List Token) : Prop :=
  ∀ t ∈ ts, t.kind = .function → ∀ f, v.function? t.value = some f →
    ∀ draw args, call f draw args = apply f args

section

variable {call : Caller} {apply : Function → List Value → Except Failure Value} {env : Environment}

theorem steadyAs_append {v : Vocabulary} {ts us : List Token} :
    SteadyAs call apply v (ts ++ us) ↔ SteadyAs call apply v ts ∧ SteadyAs call apply v us :=
  List.forall_mem_append

/-- The value of a node depends on what its function does with the operands only. -/
theorem nodeValue_congr {apply' : Function → List Value → Except Failure Value} {t : Token} (h : t.kind = .function → ∀ f, env.vocabulary.function? t.value = some f →
      ∀ vs, apply f vs = apply' f vs) (vs : List Value) :
    nodeValue apply env t vs = nodeValue apply' env t vs := by
  unfold nodeValue
  split
  · rename_i hk
    split
    · rfl
    · rename_i f hf
      rw [h hk f hf]
  · rfl
  · rfl

mutual

/-- **Where all functions are steady** the value of a tree does not depend on the operations before it. -/
theorem valueAt_eq_value : ∀ x : Tree, SteadyAs call apply env.vocabulary (postorder x) → ∀ before,
    valueAt call env before x = value apply env x
  | leaf t, steady, before => rfl
  | node t xs, steady, before => by
    rw [postorder] at steady
    obtain ⟨hxs, ht⟩ := steadyAs_append.mp steady
    rw [valueAt, value, valuesAt_eq_values xs hxs before]
    cases values apply env xs with
    | error failure => rfl
    | ok vs =>
      exact nodeValue_congr (fun hk f hf => ht t List.mem_cons_self hk f hf _) vs

/-- The values of a row of trees do not depend on the operations before it either. -/
theorem valuesAt_eq_values : ∀ xs : List Tree, SteadyAs call apply env.vocabulary (postorders xs) →
    ∀ before, valuesAt call env before xs = values apply env xs
  | [], steady, before => rfl
  | x :: xs, steady, before => by
    rw [postorders] at steady
    obtain ⟨hx, hxs⟩ := steadyAs_append.mp steady
    rw [valuesAt, values, valueAt_eq_value x hx before, valuesAt_eq_values xs hxs]

end

/-! ## Failures -/

mutual

/-- **A tree fails as the first of its subtrees does**, in post-order from left to right. -/
theorem findSome?_subtrees : ∀ x : Tree, (subtrees x).findSome? (fun y => failure? (value apply env y)) =
      failure? (value apply env x)
  | leaf t => by
    rw [subtrees, List.findSome?_cons]
    cases failure? (value apply env (leaf t)) <;> rfl
  | node t xs => by
    rw [subtrees, List.findSome?_append, findSome?_subtreesOf xs, List.findSome?_singleton, value]
    cases values apply env xs with
    | error failure => rfl
    | ok vs => rfl

/-- A row of trees fails as the first of the subtrees does. -/
theorem findSome?_subtreesOf : ∀ xs : List Tree, (subtreesOf xs).findSome? (fun y => failure? (value apply env y)) =
      failure? (values apply env xs)
  | [] => rfl
  | x :: xs => by
    rw [subtreesOf, List.findSome?_append, findSome?_subtrees x, findSome?_subtreesOf xs, values]
    cases value apply env x with
    | error failure => rfl
    | ok v =>
      cases values apply env xs with
      | error failure => rfl
      | ok vs => rfl

end

end

end Tree

open Tree

/-! ## The result -/

/-- Where no function is a random one, every function is steady. -/
theorem Environment.steady_of_no_draws {env : Environment}
    (h : ∀ name f, env.vocabulary.function? name = some f → ∀ rule, f.implementation = .builtin rule →
      ¬ rule.draws) {name : String} {f : Function} (found : env.vocabulary.function? name = some f) :
    env.Steady f := by
  have drawless : Drawless env.vocabulary fun g => ∃ name, env.vocabulary.function? name = some g := by
    rintro g ⟨name, hg⟩
    cases hi : g.implementation with
    | builtin rule => exact h name g hg rule hi
    | host call => trivial
    | defined name parameters body => exact fun t ht hk g hg => ⟨t.value, hg⟩
  exact Environment.steady_of_drawless drawless ⟨name, found⟩

/-- **Evaluation on a stack is evaluation by recursion.**  Where no function that is called draws random
    numbers, tokens have a value exactly if they are the post-order of a tree that has this value by
    recursion, and the operations are those of the tree; there is only one such tree.  The tokens of a tree
    that fails fail as the first of its subtrees does. -/
theorem evaluate_iff_tree (env : Environment) (ts : List Token)
    (steady : ∀ t ∈ ts, t.kind = .function → ∀ f, env.vocabulary.function? t.value = some f →
      env.Steady f) :
    (∀ v n, env.evaluate ts = .ok ⟨v, n⟩ ↔
      ∃ x, Fits env.vocabulary x ∧ postorder x = ts ∧ value env.apply env x = .ok v ∧
        operations x = n) ∧
    (∀ x y, Fits env.vocabulary x → postorder x = ts → Fits env.vocabulary y → postorder y = ts →
      x = y) ∧
    (∀ x failure, Fits env.vocabulary x → postorder x = ts → value env.apply env x = .error failure →
      (subtrees x).findSome? (fun y => failure? (value env.apply env y)) = some failure ∧
      env.evaluate ts = .error failure.translated) := by
  have hvalue : ∀ x, postorder x = ts → valueAt env.call env 0 x = value env.apply env x := by
    rintro x rfl
    exact valueAt_eq_value x steady 0
  refine ⟨fun v n => ⟨fun ok => ?_, ?_⟩, ?_, ?_⟩
  · -- a result comes from a tree, and the tree settles it
    obtain ⟨x, fits, hx⟩ := Evaluation.exists_tree_of_evaluateWith ok
    rw [Environment.evaluate, ← hx, Evaluation.evaluateWith_postorder fits, hvalue x hx] at ok
    cases hv : value env.apply env x with
    | error failure =>
      rw [hv] at ok
      cases ok
    | ok w =>
      rw [hv] at ok
      cases ok
      exact ⟨x, fits, hx, hv, rfl⟩
  · rintro ⟨x, fits, hx, hv, hn⟩
    rw [Environment.evaluate, ← hx, Evaluation.evaluateWith_postorder fits, hvalue x hx, hv, ← hn]
  · intro x y hx hxts hy hyts
    exact postorder_injective hx hy (hxts.trans hyts.symm)
  · intro x failure fits hx hv
    refine ⟨?_, ?_⟩
    · rw [findSome?_subtrees, hv, failure?_error]
    · rw [Environment.evaluate, ← hx, Evaluation.evaluateWith_postorder fits, hvalue x hx, hv]

/-- A vocabulary with a built-in function and one that is defined by an expression. -/
def Vocabulary.doubling : Vocabulary :=
  ⟨.basic, some ⟨[⟨"abs", .exactly 1, .builtin .abs, "", "", false⟩,
    ⟨"twice", .exactly 1, .defined "twice" ["a"]
      [⟨.variable, "a", 0, none⟩, ⟨.variable, "a", 4, none⟩, ⟨.operator, "+", 2, none⟩], "", "", true⟩], []⟩⟩

theorem Vocabulary.doubling_no_draws (name : String) (f : Function)
    (found : Vocabulary.doubling.function? name = some f) (rule : Builtin)
    (hi : f.implementation = .builtin rule) : ¬ rule.draws := by
  have hmem := List.mem_of_find?_eq_some found
  rcases List.mem_cons.mp hmem with rfl | hmem
  · cases hi
    rintro (h | h) <;> cases h
  · rw [List.mem_singleton.mp hmem] at hi
    cases hi

/-- The tokens of `-twice(x) + abs(2)`, where `x` is three. -/
theorem evaluate_iff_tree_doubling :
    let env : Environment :=
      ⟨.doubling, { Modes.initial with regime := .exact }, [("x", .integer 3)], [], 0⟩
    ∃ x, Fits env.vocabulary x ∧
      postorder x = [⟨.variable, "x", 7, none⟩, ⟨.function, "twice", 1, some 1⟩,
        ⟨.operator, "unary-", 0, none⟩, ⟨.number, "2", 16, none⟩, ⟨.function, "abs", 12, none⟩,
        ⟨.operator, "+", 10, none⟩] ∧
      value env.apply env x = .ok (.integer (-4)) ∧ operations x = 4 := by
  intro env
  have steady : ∀ name f, env.vocabulary.function? name = some f → env.Steady f := fun name f found =>
    Environment.steady_of_no_draws Vocabulary.doubling_no_draws found
  refine ((evaluate_iff_tree env _ fun t _ _ f hf => steady t.value f hf).1 _ _).mp ?_
  rfl

end SciCalc
