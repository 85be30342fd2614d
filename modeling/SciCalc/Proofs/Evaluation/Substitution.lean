/-
  Bodies with expressions in the place of their parameters.

  1. **Replacing** (`inlined`, `Tree.inline`) — variables of a row of tokens give place to other rows, all at once;
     on trees, leaves give place to trees (`postorder_inline`).

  2. **Values** (`value_inline`) — a tree in which leaves have given place to trees with the values of the leaves
     has the value of the tree.  Where tokens stand does not matter (`value_shift`).

  3. **Draws** (`Draws`) — the functions from which a random one is reached.  All others draw nothing
     (`drawless_not_draws`).

  4. **Calls** (`evaluate_inlined`) — a call has the value of the body in which the parameters have given place to
     the arguments: a value that a parameter is bound to is what the argument has given, and it is read as
     itself.
-/
import SciCalc.Proofs.Evaluation.Allowance
import SciCalc.Proofs.Evaluation.Recursion
import SciCalc.Proofs.Postfix.Argument
import Mathlib.Data.List.Forall2

namespace SciCalc

open Attempt Evaluation

/-! ## Replacing -/

/-- What stands for a name. -/
def standsFor? {α : Type} (σ : List (String × α)) (name : String) : Option α := (σ.find? (·.1 = name)).map (·.2)

/-- **The tokens with rows of tokens in the place of variables.** -/
def inlined (σ : List (String × List Token)) (ts : List Token) : List Token :=
  ts.flatMap fun t => if t.kind = .variable then (standsFor? σ t.value).getD [t] else [t]

namespace Tree

mutual

/-- The tree with trees in the place of variables. -/
def inline (σ : List (String × Tree)) : Tree → Tree
  | leaf t => if t.kind = .variable then (standsFor? σ t.value).getD (leaf t) else leaf t
  | node t xs => node t (inlineAll σ xs)

/-- The trees of a row with trees in the place of variables. -/
def inlineAll (σ : List (String × Tree)) : List Tree → List Tree
  | [] => []
  | x :: xs => inline σ x :: inlineAll σ xs

end

variable {v : Vocabulary} {σ : List (String × Tree)}

theorem length_inlineAll (xs : List Tree) : (inlineAll σ xs).length = xs.length := by
  induction xs with
  | nil => rfl
  | cons x xs ih => rw [inlineAll, List.length_cons, List.length_cons, ih]

/-- What stands for a name is one of the things that stand for names. -/
theorem mem_of_standsFor? {α : Type} {σ : List (String × α)} {name : String} {a : α}
    (h : standsFor? σ name = some a) : a ∈ σ.map (·.2) := by
  obtain ⟨entry, hfind, rfl⟩ := Option.map_eq_some_iff.mp h
  exact List.mem_map_of_mem (List.mem_of_find?_eq_some hfind)

/-- What is made of a thing stands for the name of the thing. -/
theorem standsFor?_map {α β : Type} (g : α → β) (σ : List (String × α)) (name : String) :
    standsFor? (σ.map fun entry => (entry.1, g entry.2)) name = (standsFor? σ name).map g := by
  rw [standsFor?, standsFor?, List.find?_map, Option.map_map, Option.map_map]
  rfl

mutual

/-- A tree with trees in it that fit fits. -/
theorem fits_inline (hσ : ∀ x ∈ σ.map (·.2), Fits v x) : ∀ x : Tree, Fits v x → Fits v (inline σ x)
  | leaf t, fits => by
    rw [inline]
    split
    · cases h : standsFor? σ t.value with
      | none => exact fits
      | some x => exact hσ x (mem_of_standsFor? h)
    · exact fits
  | node t xs, fits => by
    refine ⟨?_, fitAll_inlineAll hσ xs fits.2⟩
    rw [length_inlineAll]
    exact fits.1

theorem fitAll_inlineAll (hσ : ∀ x ∈ σ.map (·.2), Fits v x) :
    ∀ xs : List Tree, FitAll v xs → FitAll v (inlineAll σ xs)
  | [], _ => trivial
  | x :: xs, fits => ⟨fits_inline hσ x fits.1, fitAll_inlineAll hσ xs fits.2⟩

end

theorem inlined_append {σ : List (String × List Token)} (ts us : List Token) :
    inlined σ (ts ++ us) = inlined σ ts ++ inlined σ us := List.flatMap_append

mutual

/-- **The post-order of the tree is the row of tokens with the post-orders in it.** -/
theorem postorder_inline : ∀ x : Tree, Fits v x →
    postorder (inline σ x) = inlined (σ.map fun entry => (entry.1, postorder entry.2)) (postorder x)
  | leaf t, fits => by
    rw [inline, postorder, inlined, List.flatMap_singleton]
    split
    · rw [standsFor?_map]
      cases standsFor? σ t.value with
      | none => rfl
      | some x => rfl
    · rfl
  | node t xs, fits => by
    have hkind : t.kind ≠ .variable := fun h => not_isOperand_of_takes fits.1 (Or.inr (Or.inr h))
    rw [inline, postorder, postorder, inlined_append, postorders_inlineAll xs fits.2]
    rw [inlined, inlined, List.flatMap_singleton, if_neg hkind]

theorem postorders_inlineAll : ∀ xs : List Tree, FitAll v xs →
    postorders (inlineAll σ xs) = inlined (σ.map fun entry => (entry.1, postorder entry.2)) (postorders xs)
  | [], _ => rfl
  | x :: xs, fits => by
    rw [inlineAll, postorders, postorders, inlined_append, postorder_inline x fits.1,
      postorders_inlineAll xs fits.2]

end

/-! ## Values -/

/-- The tokens call functions that give the second time what they have given the first time. -/
def GoesOn (apply apply' : Function → List Value → Except Failure Value) (v : Vocabulary) (ts : List Token) : Prop :=
  ∀ t ∈ ts, t.kind = .function → ∀ f, v.function? t.value = some f →
    ∀ vs w, apply f vs = .ok w → apply' f vs = .ok w

section

variable {apply apply' : Function → List Value → Except Failure Value} {env env' : Environment}

/-- The value of a call is what the function gives, brought into the active regime. -/
theorem exists_of_nodeValue_eq_ok {t : Token} (hkind : t.kind = .function) {f : Function}
    (hf : env.vocabulary.function? t.value = some f) {vs : List Value} {w : Value}
    (h : nodeValue apply env t vs = .ok w) : ∃ u, apply f vs = .ok u ∧ env.modes.normalize u = .ok w := by
  unfold nodeValue at h
  simp only [hkind, hf] at h
  split at h
  · cases h
  · exact bind_eq_ok.mp h

/-- The value of a node is the same if the function gives the same. -/
theorem nodeValue_of_goesOn (hmodes : env'.modes = env.modes) (hvocabulary : env'.vocabulary = env.vocabulary)
    {t : Token} (goesOn : GoesOn apply apply' env.vocabulary [t]) {vs : List Value} {w : Value}
    (h : nodeValue apply env t vs = .ok w) : nodeValue apply' env' t vs = .ok w := by
  unfold nodeValue at h ⊢
  rw [hmodes, hvocabulary]
  split at h
  · rename_i hkind
    cases hf : env.vocabulary.function? t.value with
    | none =>
      rw [hf] at h
      cases h
    | some f =>
      simp only [hf] at h ⊢
      cases hproblem : f.arityProblem? vs.length with
      | some cause =>
        rw [hproblem] at h
        cases h
      | none =>
        simp only [hproblem] at h ⊢
        obtain ⟨u, happly, hnormal⟩ := bind_eq_ok.mp h
        rw [goesOn t List.mem_cons_self hkind f hf vs u happly]
        exact hnormal
  · exact h
  · cases h

mutual

/-- **A tree with trees in the place of leaves has the value of the tree**, if the trees have the values of the
    leaves. -/
theorem value_inline (hmodes : env'.modes = env.modes) (hvocabulary : env'.vocabulary = env.vocabulary)
    (hleaf : ∀ t v, leafValue env t = .ok v → value apply' env' (inline σ (leaf t)) = .ok v) :
    ∀ (x : Tree) {w : Value}, GoesOn apply apply' env.vocabulary (postorder x) → value apply env x = .ok w →
      value apply' env' (inline σ x) = .ok w
  | leaf t, w, _, h => hleaf t w h
  | node t xs, w, goesOn, h => by
    rw [postorder] at goesOn
    obtain ⟨hxs, ht⟩ := List.forall_mem_append.mp goesOn
    rw [value] at h
    obtain ⟨vs, hvs, hnode⟩ := bind_eq_ok.mp h
    rw [inline, value, values_inlineAll hmodes hvocabulary hleaf xs hxs hvs, ok_bind]
    exact nodeValue_of_goesOn hmodes hvocabulary ht hnode

theorem values_inlineAll (hmodes : env'.modes = env.modes) (hvocabulary : env'.vocabulary = env.vocabulary)
    (hleaf : ∀ t v, leafValue env t = .ok v → value apply' env' (inline σ (leaf t)) = .ok v) :
    ∀ (xs : List Tree) {ws : List Value}, GoesOn apply apply' env.vocabulary (postorders xs) →
      values apply env xs = .ok ws → values apply' env' (inlineAll σ xs) = .ok ws
  | [], ws, _, h => h
  | x :: xs, ws, goesOn, h => by
    rw [postorders] at goesOn
    obtain ⟨hx, hxs⟩ := List.forall_mem_append.mp goesOn
    rw [values] at h
    obtain ⟨v, hv, h⟩ := bind_eq_ok.mp h
    obtain ⟨vs, hvs, h⟩ := bind_eq_ok.mp h
    rw [inlineAll, values, value_inline hmodes hvocabulary hleaf x hx hv, ok_bind,
      values_inlineAll hmodes hvocabulary hleaf xs hxs hvs, ok_bind]
    exact h

end

/-- The value of a node does not depend on where its token stands. -/
theorem nodeValue_shift {k : Nat} {t : Token} {vs : List Value} {w : Value}
    (h : nodeValue apply env (t.shift k) vs = .ok w) : nodeValue apply env t vs = .ok w := by
  unfold nodeValue at h ⊢
  simp only [Token.shift] at h
  split at h
  · exact h
  · split at h
    · cases h
    · split at h
      · exact h
      · exact h
      · cases h
  · cases h

theorem leafValue_shift {k : Nat} {t : Token} {v : Value} (h : leafValue env (t.shift k) = .ok v) :
    leafValue env t = .ok v := by
  unfold leafValue at h ⊢
  simp only [Token.shift] at h
  split at h
  · exact h
  · exact h
  · exact h
  · cases h

mutual

/-- **The value of a tree does not depend on where its tokens stand.** -/
theorem value_shift {k : Nat} :
    ∀ (x : Tree) {w : Value}, value apply env (x.shift k) = .ok w → value apply env x = .ok w
  | leaf t, w, h => leafValue_shift h
  | node t xs, w, h => by
    rw [shift, value] at h
    obtain ⟨vs, hvs, hnode⟩ := bind_eq_ok.mp h
    rw [value, values_shiftAll xs hvs, ok_bind]
    exact nodeValue_shift hnode

theorem values_shiftAll {k : Nat} :
    ∀ (xs : List Tree) {ws : List Value}, values apply env (shiftAll k xs) = .ok ws → values apply env xs = .ok ws
  | [], ws, h => h
  | x :: xs, ws, h => by
    rw [shiftAll, values] at h
    obtain ⟨v, hv, h⟩ := bind_eq_ok.mp h
    obtain ⟨vs, hvs, h⟩ := bind_eq_ok.mp h
    rw [values, value_shift x hv, ok_bind, values_shiftAll xs hvs, ok_bind]
    exact h

end

end

end Tree

/-! ## Draws -/

/-- **A random function is reached from the function**: it is one itself, or its body calls a function from which
    one is reached. -/
inductive Draws (v : Vocabulary) : Function → Prop where
  | rule {f : Function} {rule : Builtin} : f.implementation = .builtin rule → rule.draws → Draws v f
  | body {f g : Function} : Calls v f g → Draws v g → Draws v f

/-- None of the functions that the tokens call draws random numbers. -/
def DrawsNothing (v : Vocabulary) (ts : List Token) : Prop :=
  ∀ t ∈ ts, t.kind = .function → ∀ f, v.function? t.value = some f → ¬ Draws v f

/-- **All other functions draw nothing.** -/
theorem drawless_not_draws (v : Vocabulary) : Drawless v fun f => ¬ Draws v f := by
  intro f hf
  cases h : f.implementation with
  | builtin rule => exact fun hrule => hf (.rule h hrule)
  | host call => trivial
  | defined name parameters body => exact fun t ht hkind g hg hdraws => hf (.body ⟨h, ht, hkind, hg⟩ hdraws)

/-- Tokens that call no function draw nothing. -/
theorem drawsNothing_of_operators {v : Vocabulary} {ts : List Token} (h : ∀ t ∈ ts, t.kind ≠ .function) :
    DrawsNothing v ts := fun t ht hkind => absurd hkind (h t ht)

/-- A function with a body that draws nothing draws nothing. -/
theorem not_draws_of_body {v : Vocabulary} {f : Function} {name : String} {parameters : List String}
    {body : List Token} (h : f.implementation = .defined name parameters body) (hbody : DrawsNothing v body) :
    ¬ Draws v f := by
  intro hf
  cases hf with
  | rule hrule _ =>
    rw [h] at hrule
    cases hrule
  | body hcalls hdraws =>
    obtain ⟨himpl, ht, hkind, hg⟩ := hcalls
    rw [h] at himpl
    cases himpl
    exact hbody _ ht hkind _ hg hdraws

/-- Where tokens stand does not matter. -/
theorem drawsNothing_shift {v : Vocabulary} {k : Nat} {ts : List Token} (h : DrawsNothing v ts) :
    DrawsNothing v (ts.map (Token.shift k)) := by
  intro t ht
  obtain ⟨u, hu, rfl⟩ := List.mem_map.mp ht
  exact h u hu

variable {env : Environment}

/-- What draws nothing has the same result at every draw. -/
theorem Environment.evaluate_congr_draw {ts : List Token} (h : DrawsNothing env.vocabulary ts) (draw : Nat) :
    { env with draw := draw }.evaluate ts = env.evaluate ts := by
  have same : SameButDraw { env with draw := draw } env := rfl
  have hcalls : ∀ t ∈ ts, t.kind = .function → ∀ f, env.vocabulary.function? t.value = some f →
      ∀ d d' args, ({ env with draw := draw } : Environment).call f d args = env.call f d' args := by
    intro t ht hkind f hf
    have hvocabulary : ({ env with draw := draw } : Environment).vocabulary = env.vocabulary := rfl
    exact callAt_congr_draw (drawless_not_draws env.vocabulary) Limit.nesting hvocabulary same (h t ht hkind f hf)
  rw [Environment.evaluate, Environment.evaluate, evaluateWith, evaluateWith,
    run_congr_draw same hcalls start]

/-! ## Calls -/

/-- What stands for a name among the members of one row and of another one stands in the same place. -/
theorem standsFor?_zip {α β : Type} {R : α → β → Prop} {as : List α} {bs : List β} (h : List.Forall₂ R as bs)
    (name : String) : ∀ names : List String,
      (standsFor? (names.zip as) name = none ∧ standsFor? (names.zip bs) name = none) ∨
        ∃ a b, standsFor? (names.zip as) name = some a ∧ standsFor? (names.zip bs) name = some b ∧ R a b := by
  induction h with
  | nil =>
    intro names
    rw [List.zip_nil_right, List.zip_nil_right]
    exact Or.inl ⟨rfl, rfl⟩
  | @cons a b as bs hab _ ih =>
    intro names
    cases names with
    | nil => exact Or.inl ⟨rfl, rfl⟩
    | cons first names =>
      unfold standsFor? at ih ⊢
      rw [List.zip_cons_cons, List.zip_cons_cons]
      by_cases hname : first = name
      · right
        rw [List.find?_cons_of_pos (by simpa using hname), List.find?_cons_of_pos (by simpa using hname)]
        exact ⟨a, b, rfl, rfl, hab⟩
      · rw [List.find?_cons_of_neg (by simpa using hname), List.find?_cons_of_neg (by simpa using hname)]
        exact ih names

/-- A token of a row with rows in it is one of the row or of the rows in it. -/
theorem mem_of_mem_inlined {σ : List (String × List Token)} {ts : List Token} {t : Token}
    (h : t ∈ inlined σ ts) : t ∈ ts ∨ ∃ us ∈ σ.map (·.2), t ∈ us := by
  obtain ⟨u, hu, ht⟩ := List.mem_flatMap.mp h
  split at ht
  · cases hσ : standsFor? σ u.value with
    | none =>
      rw [hσ, Option.getD_none, List.mem_singleton] at ht
      exact Or.inl (ht ▸ hu)
    | some us =>
      rw [hσ] at ht
      exact Or.inr ⟨us, Tree.mem_of_standsFor? hσ, ht⟩
  · rw [List.mem_singleton] at ht
    exact Or.inl (ht ▸ hu)

/-- Calls that draw nothing do the same at every draw, whatever the allowance. -/
theorem steadyAs_callAt {ts : List Token} (h : DrawsNothing env.vocabulary ts) (n draw : Nat) :
    Tree.SteadyAs (callAt n env) (fun g vs => callAt n env g draw vs) env.vocabulary ts := by
  intro t ht hkind f hf d vs
  have same : SameButDraw env env := rfl
  exact callAt_congr_draw (drawless_not_draws env.vocabulary) n rfl same (h t ht hkind f hf) d draw vs

/-- The value of a tree that draws nothing is the value of its tokens. -/
theorem evaluateWith_eq_ok_iff {x : Tree} (fits : Tree.Fits env.vocabulary x)
    (h : DrawsNothing env.vocabulary x.postorder) (n draw : Nat) (o : Outcome) :
    evaluateWith (callAt n env) env x.postorder = .ok o ↔
      Tree.value (fun g vs => callAt n env g draw vs) env x = .ok o.value ∧ o.operations = x.operations := by
  rw [evaluateWith_postorder fits, Tree.valueAt_eq_value x (steadyAs_callAt h n draw) 0]
  cases Tree.value (fun g vs => callAt n env g draw vs) env x with
  | error failure =>
    refine ⟨fun hfailure => ?_, fun hfailure => ?_⟩
    · cases hfailure
    · cases hfailure.1
  | ok v =>
    refine ⟨fun ho => ?_, fun ⟨hv, hoperations⟩ => ?_⟩
    · cases ho
      exact ⟨rfl, rfl⟩
    · cases hv
      rw [← hoperations]

/-- The value of a tree that draws nothing is the result of its tokens. -/
theorem Environment.evaluate_postorder_iff {x : Tree} (fits : Tree.Fits env.vocabulary x)
    (h : DrawsNothing env.vocabulary x.postorder) (o : Outcome) :
    env.evaluate x.postorder = .ok o ↔ Tree.value env.apply env x = .ok o.value ∧ o.operations = x.operations :=
  evaluateWith_eq_ok_iff fits h Limit.nesting env.draw o

/-- What a name is bound to inside a call: the argument, if it is the name of a parameter, and else the value of the
    variable. -/
theorem lookup_enter (env : Environment) (parameters : List String) (args : List Value) (draw : Nat)
    (name : String) : lookup (enter env parameters args draw) name =
      (standsFor? (parameters.zip args) name).orElse fun _ => env.bindings.find? name := rfl

/-- The functions that a body calls give outside, where one more call may be active, what they give inside. -/
theorem goesOn_enter {ts : List Token} (h : DrawsNothing env.vocabulary ts) (n : Nat) (parameters : List String)
    (args : List Value) (draw : Nat) :
    Tree.GoesOn (fun g vs => callAt n (enter env parameters args draw) g env.draw vs)
      (fun g vs => callAt (n + 1) env g env.draw vs) env.vocabulary ts := by
  intro t ht hkind g hg vs u hu
  have hmore : callAt (n + 1) (enter env parameters args draw) g env.draw vs = .ok u :=
    (callAt_refines_succ n _ g env.draw vs).eq_ok hu
  have same : SameButDraw (enter env parameters args draw) { env with scope := parameters.zip args } := rfl
  have hvocabulary : (enter env parameters args draw).vocabulary = env.vocabulary := rfl
  have hdraw := callAt_congr_draw (drawless_not_draws env.vocabulary) (n + 1) hvocabulary same (h t ht hkind g hg)
    env.draw env.draw vs
  rw [hdraw, callAt_congr_scope] at hmore
  exact hmore

/-- The argument of a call: a tree that draws nothing, and a value that it has and that is read as itself. -/
structure Argument (env : Environment) (x : Tree) (v : Value) : Prop where
  fits : Tree.Fits env.vocabulary x
  drawsNothing : DrawsNothing env.vocabulary x.postorder
  value : Tree.value env.apply env x = .ok v
  kept : env.modes.normalize v = .ok v

section

variable {parameters : List String} {xs : List Tree} {args : List Value}

/-- What stands for a parameter fits and draws nothing. -/
theorem fits_of_mem_zip (hargs : List.Forall₂ (Argument env) xs args) {x : Tree}
    (hx : x ∈ (parameters.zip xs).map (·.2)) :
    Tree.Fits env.vocabulary x ∧ DrawsNothing env.vocabulary x.postorder := by
  obtain ⟨⟨parameter, x⟩, hmem, rfl⟩ := List.mem_map.mp hx
  obtain ⟨i, hi, rfl⟩ := List.getElem_of_mem (List.of_mem_zip hmem).2
  have argument : Argument env (xs.get ⟨i, hi⟩) _ := hargs.get hi (hargs.length_eq ▸ hi)
  exact ⟨argument.fits, argument.drawsNothing⟩

/-- **An operand of the body has inside the call the value that it, or the argument in its place, has outside.** -/
theorem value_inline_leaf (hscope : env.scope = []) (hargs : List.Forall₂ (Argument env) xs args) {draw : Nat}
    {t : Token} {v : Value} (h : Tree.leafValue (enter env parameters args draw) t = .ok v) :
    Tree.value env.apply env (Tree.inline (parameters.zip xs) (.leaf t)) = .ok v := by
  rw [Tree.inline]
  by_cases hkind : t.kind = .variable
  · have hread : variableValue (enter env parameters args draw) t.value = .ok v := by
      unfold Tree.leafValue at h
      simpa only [hkind] using h
    rw [variableValue, lookup_enter] at hread
    rw [if_pos hkind]
    rcases standsFor?_zip hargs t.value parameters with ⟨hnone, hfree⟩ | ⟨x, arg, hx, harg, argument⟩
    · -- the name is no parameter
      have hlookup : lookup env t.value = env.bindings.find? t.value := by
        rw [lookup, hscope]
        rfl
      rw [hfree] at hread
      rw [hnone, Option.getD_none, Tree.value, Tree.leafValue, hkind]
      show variableValue env t.value = .ok v
      rw [variableValue, hlookup]
      exact hread
    · -- the argument is read as itself
      rw [harg] at hread
      have hsame : arg = v := Except.ok.inj (argument.kept.symm.trans hread)
      rw [hx, Option.getD_some, ← hsame]
      exact argument.value
  · rw [if_neg hkind, Tree.value, ← h]
    unfold Tree.leafValue
    split
    · rfl
    · rfl
    · rename_i hvariable
      exact absurd hvariable hkind
    · rfl

/-- The body with the arguments in it is the post-order of a tree. -/
theorem inlined_postorder {b : Tree} (fits : Tree.Fits env.vocabulary b) :
    inlined (parameters.zip (xs.map Tree.postorder)) b.postorder =
      (Tree.inline (parameters.zip xs) b).postorder := by
  rw [Tree.postorder_inline b fits, List.zip_map_right]
  rfl

/-- A body and arguments that draw nothing draw nothing together. -/
theorem drawsNothing_inlined {body : List Token} (hbody : DrawsNothing env.vocabulary body)
    (hargs : List.Forall₂ (Argument env) xs args) :
    DrawsNothing env.vocabulary (inlined (parameters.zip (xs.map Tree.postorder)) body) := by
  intro t ht hkind g hg
  rw [List.zip_map_right] at ht
  rcases mem_of_mem_inlined ht with hb | ⟨us, hus, ht⟩
  · exact hbody t hb hkind g hg
  · rw [List.map_map] at hus
    obtain ⟨entry, hentry, rfl⟩ := List.mem_map.mp hus
    exact (fits_of_mem_zip hargs (List.mem_map_of_mem hentry)).2 t ht hkind g hg

/-- **A call has the value of the body with the arguments in the place of the parameters**, evaluated where no
    names are bound besides the variables. -/
theorem evaluate_inlined {f : Function} {name : String} {b : Tree}
    (himpl : f.implementation = .defined name parameters b.postorder) (fits : Tree.Fits env.vocabulary b)
    (hscope : env.scope = []) (hbody : DrawsNothing env.vocabulary b.postorder)
    (hargs : List.Forall₂ (Argument env) xs args) {draw : Nat} {w : Value} (h : env.call f draw args = .ok w) :
    ∃ n, env.evaluate (inlined (parameters.zip (xs.map Tree.postorder)) b.postorder) = .ok ⟨w, n⟩ := by
  obtain ⟨n, hn⟩ : ∃ n, Limit.nesting = n + 1 := Nat.exists_eq_succ_of_ne_zero (by decide)
  -- the body has the value inside the call
  have hinside : Tree.value (fun g vs => callAt n (enter env parameters args draw) g env.draw vs)
      (enter env parameters args draw) b = .ok w := by
    rw [Environment.call, hn, callAt_defined himpl] at h
    obtain ⟨o, hevaluated, rfl⟩ := exists_of_map_eq_ok h
    have hfits : Tree.Fits (enter env parameters args draw).vocabulary b := fits
    exact ((evaluateWith_eq_ok_iff hfits hbody n env.draw o).mp hevaluated).1
  -- the tree with the arguments in it has it outside
  have houtside : Tree.value env.apply env (Tree.inline (parameters.zip xs) b) = .ok w := by
    have hgoesOn := goesOn_enter hbody n parameters args draw
    have hmodes : env.modes = (enter env parameters args draw).modes := rfl
    have hvocabulary : env.vocabulary = (enter env parameters args draw).vocabulary := rfl
    rw [← hn] at hgoesOn
    exact Tree.value_inline hmodes hvocabulary (fun _ _ => value_inline_leaf hscope hargs) b hgoesOn hinside
  have hfits : Tree.Fits env.vocabulary (Tree.inline (parameters.zip xs) b) :=
    Tree.fits_inline (fun x hx => (fits_of_mem_zip hargs hx).1) b fits
  have hnothing : DrawsNothing env.vocabulary (inlined (parameters.zip (xs.map Tree.postorder)) b.postorder) :=
    drawsNothing_inlined hbody hargs
  rw [inlined_postorder fits] at hnothing ⊢
  exact ⟨_, (Environment.evaluate_postorder_iff hfits hnothing _).mpr ⟨houtside, rfl⟩⟩

end

end SciCalc
