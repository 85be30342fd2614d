/-
  The value of a row in postfix order is the value of its tree.

  1. **Trees** — `Fits` says that every node of a tree has as many operands as its operator takes, or as its
     function is called with.  `valueAt` evaluates such a tree by plain recursion; the number it carries is
     that of the operations before, which random functions draw by.  `value` is the same recursion for
     functions that draw nothing.

  2. **Reading back** (`postorder_injective`) — the tree that a row of tokens is the post-order of is settled
     by the row.

  3. **Forward** (`run_postorder`) — the steps over the post-order of a tree push the value of the tree, or
     fail as the tree does, on any stack and in front of any other tokens.

  4. **Backward** (`exists_trees_of_run`) — a run that ends well has read a row of trees, one for each value that
     waits.  A step takes the operands of a node from the top, so the tree of its result stands behind the
     trees of the values below.
-/
import SciCalc.Evaluation.Basic
import SciCalc.Proofs.Attempt
import SciCalc.Proofs.Tree

namespace SciCalc

open Attempt

namespace Tree

/-! ## Trees that fit a vocabulary -/

/-- The operator or function of a token is applied to so many operands: to as many as the operator takes,
    as the call records, or, where the call records nothing, as the function takes. -/
def Takes (v : Vocabulary) (t : Token) (count : Nat) : Prop :=
  (t.kind = .operator ∧ ∃ o, v.operators.find? t.value = some o ∧ o.rule.arity = count) ∨
  (t.kind = .function ∧ t.argumentCount = some (count : Int)) ∨
  (t.kind = .function ∧ t.argumentCount = none ∧
    ∃ f, v.function? t.value = some f ∧ f.arity = .exactly count)

mutual

/-- The leaves of a tree are operands, and its nodes have as many operands as they are applied to. -/
def Fits (v : Vocabulary) : Tree → Prop
  | leaf t => isOperand t
  | node t xs => Takes v t xs.length ∧ FitAll v xs

/-- All trees of a row fit. -/
def FitAll (v : Vocabulary) : List Tree → Prop
  | [] => True
  | x :: xs => Fits v x ∧ FitAll v xs

end

theorem fitAll_append {v : Vocabulary} :
    ∀ {xs ys : List Tree}, FitAll v (xs ++ ys) ↔ FitAll v xs ∧ FitAll v ys
  | [], ys => by simp [FitAll]
  | x :: xs, ys => by
    rw [List.cons_append, FitAll, FitAll, fitAll_append, and_assoc]

/-! ## Reading a tree back -/

/-- A token is applied to one number of operands. -/
theorem takes_unique {v : Vocabulary} {t : Token} {m n : Nat} (hm : Takes v t m) (hn : Takes v t n) :
    m = n := by
  rcases hm with ⟨hk, o, ho, rfl⟩ | ⟨hk, hc⟩ | ⟨hk, hc, f, hf, ha⟩
  · rcases hn with ⟨-, p, hp, rfl⟩ | ⟨hk', -⟩ | ⟨hk', -⟩
    · rw [ho] at hp
      cases hp
      rfl
    · rw [hk] at hk'
      cases hk'
    · rw [hk] at hk'
      cases hk'
  · rcases hn with ⟨hk', -⟩ | ⟨-, hc'⟩ | ⟨-, hc', -⟩
    · rw [hk] at hk'
      cases hk'
    · rw [hc] at hc'
      cases hc'
      rfl
    · rw [hc] at hc'
      cases hc'
  · rcases hn with ⟨hk', -⟩ | ⟨-, hc'⟩ | ⟨-, -, g, hg, ha'⟩
    · rw [hk] at hk'
      cases hk'
    · rw [hc] at hc'
      cases hc'
    · rw [hf] at hg
      cases hg
      rw [ha] at ha'
      cases ha'
      rfl

/-- A token that is applied to operands is no operand. -/
theorem not_isOperand_of_takes {v : Vocabulary} {t : Token} {n : Nat} (h : Takes v t n) :
    ¬ isOperand t := by
  have hk : t.kind = .operator ∨ t.kind = .function := by
    rcases h with ⟨hk, -⟩ | ⟨hk, -⟩ | ⟨hk, -⟩
    · exact Or.inl hk
    · exact Or.inr hk
    · exact Or.inr hk
  unfold isOperand
  rcases hk with hk | hk <;> rw [hk] <;> decide

/-- **A row of trees is read off its post-order in one way.**  The last token settles whether the last tree
    is an operand or a node, and how many of the trees before it are the node's operands. -/
theorem postorders_injective {v : Vocabulary} : ∀ (n : Nat) {xs ys : List Tree}, FitAll v xs →
    FitAll v ys → (postorders xs).length = n → postorders xs = postorders ys → xs = ys := by
  -- the operands of the last node are trees of a shorter row, not of a tail: the induction is on the length
  intro n
  induction n with
  | zero =>
    intro xs ys hxs hys length same
    have hnil := List.eq_nil_of_length_eq_zero length
    rw [postorders_eq_nil hnil, postorders_eq_nil (same.symm.trans hnil)]
  | succ n ih =>
    intro xs ys fitx fity length same
    rcases List.eq_nil_or_concat xs with rfl | ⟨xs, x, rfl⟩
    · cases length
    rcases List.eq_nil_or_concat ys with rfl | ⟨ys, y, rfl⟩
    · rw [same] at length
      cases length
    simp only [List.concat_eq_append] at fitx fity length same ⊢
    obtain ⟨hxs, hx, -⟩ := fitAll_append.mp fitx
    obtain ⟨hys, hy, -⟩ := fitAll_append.mp fity
    cases x with
    | leaf t =>
      rw [postorders_concat_leaf] at same length
      rw [List.length_append, List.length_singleton] at length
      cases y with
      | leaf u =>
        rw [postorders_concat_leaf] at same
        obtain ⟨hfront, hlast⟩ := List.append_inj' same rfl
        cases hlast
        rw [ih hxs hys (by omega) hfront]
      | node u qs =>
        rw [postorders_concat_node] at same
        obtain ⟨-, hlast⟩ := List.append_inj' same rfl
        cases hlast
        exact absurd hx (not_isOperand_of_takes hy.1)
    | node t ps =>
      rw [postorders_concat_node] at same length
      rw [List.length_append, List.length_singleton] at length
      cases y with
      | leaf u =>
        rw [postorders_concat_leaf] at same
        obtain ⟨-, hlast⟩ := List.append_inj' same rfl
        cases hlast
        exact absurd hy (not_isOperand_of_takes hx.1)
      | node u qs =>
        rw [postorders_concat_node] at same
        obtain ⟨hfront, hlast⟩ := List.append_inj' same rfl
        cases hlast
        -- the operands join the trees in front, and their number parts them again
        have hrows := ih (fitAll_append.mpr ⟨hxs, hx.2⟩) (fitAll_append.mpr ⟨hys, hy.2⟩) (by omega) hfront
        obtain ⟨rfl, rfl⟩ := List.append_inj' hrows (takes_unique hx.1 hy.1)
        rfl

/-- A tree is read off its post-order in one way. -/
theorem postorder_injective {v : Vocabulary} {x y : Tree} (hx : Fits v x) (hy : Fits v y)
    (same : postorder x = postorder y) : x = y := by
  have hrow : postorders [x] = postorders [y] := by
    rw [postorders, postorders, same]
    rfl
  have fitx : FitAll v [x] := ⟨hx, trivial⟩
  have fity : FitAll v [y] := ⟨hy, trivial⟩
  exact List.head_eq_of_cons_eq (postorders_injective _ fitx fity rfl hrow)

/-! ## Evaluation by recursion -/

/-- The value of an operand. -/
def leafValue (env : Environment) (t : Token) : Except Failure Value :=
  match t.kind with
  | .number => env.modes.literal t.value
  | .constant => Evaluation.constantValue env.modes t.value
  | .variable => Evaluation.variableValue env t.value
  | _ => .error (.structural (.unexpectedToken t.value t.position))

/-- The value of an operator or a function for the values of its operands: the name is looked up, the
    number of arguments is checked, two operands are promoted, the rule is applied, and the result is
    brought into the active regime. -/
def nodeValue (apply : Function → List Value → Except Failure Value) (env : Environment) (t : Token)
    (vs : List Value) : Except Failure Value :=
  match t.kind with
  | .function =>
    match env.vocabulary.function? t.value with
    | none => .error (.unknown .function t.value)
    | some f =>
      match f.arityProblem? vs.length with
      | some failure => .error failure
      | none => do env.modes.normalize (← apply f vs)
  | .operator =>
    match env.vocabulary.operators.find? t.value with
    | none => .error (.unknown .operator t.value)
    | some o =>
      match o.rule, vs with
      | .unary rule, [v] => do env.modes.normalize (← rule.apply v)
      | .binary rule, [v, w] => do env.modes.normalize (← rule.apply env.modes (← Value.promote v w))
      | _, _ => .error (.structural (.operatorUnderflow o.symbol t.position))
  | _ => .error (.structural (.unexpectedToken t.value t.position))

mutual

/-- The value of a tree after so many operations: the operands from left to right, then the node. -/
def valueAt (call : Caller) (env : Environment) (before : Nat) : Tree → Except Failure Value
  | leaf t => leafValue env t
  | node t xs => do
    let vs ← valuesAt call env before xs
    nodeValue (fun f => call f (env.draw + (before + operationsOf xs))) env t vs

/-- The values of a row of trees after so many operations. -/
def valuesAt (call : Caller) (env : Environment) (before : Nat) : List Tree → Except Failure (List Value)
  | [] => .ok []
  | x :: xs => do
    let v ← valueAt call env before x
    let vs ← valuesAt call env (before + operations x) xs
    return v :: vs

end

mutual

/-- **The value of a tree by recursion**, for functions that are applied as `apply` says: the operands from
    left to right, then the node. -/
def value (apply : Function → List Value → Except Failure Value) (env : Environment) :
    Tree → Except Failure Value
  | leaf t => leafValue env t
  | node t xs => do
    let vs ← values apply env xs
    nodeValue apply env t vs

/-- The values of a row of trees. -/
def values (apply : Function → List Value → Except Failure Value) (env : Environment) :
    List Tree → Except Failure (List Value)
  | [] => .ok []
  | x :: xs => do
    let v ← value apply env x
    let vs ← values apply env xs
    return v :: vs

end

/-- The values of a row of trees are as many as the trees. -/
theorem length_valuesAt {call : Caller} {env : Environment} :
    ∀ {xs : List Tree} {before : Nat} {vs : List Value},
      valuesAt call env before xs = .ok vs → vs.length = xs.length
  | [], before, vs, h => by
    rw [valuesAt] at h
    cases h
    rfl
  | x :: xs, before, vs, h => by
    rw [valuesAt] at h
    obtain ⟨v, -, h⟩ := bind_eq_ok.mp h
    obtain ⟨ws, hws, h⟩ := bind_eq_ok.mp h
    cases h
    rw [List.length_cons, List.length_cons, length_valuesAt hws]

end Tree

namespace Evaluation

open Tree

variable {call : Caller} {env : Environment}

/-! ## Steps -/

/-- The steps over two rows are those over the first and then those over the second. -/
theorem run_append (ts us : List Token) :
    ∀ s : Machine, run call env s (ts ++ us) = run call env s ts >>= fun s' => run call env s' us := by
  induction ts with
  | nil => intro s; rfl
  | cons t ts ih =>
    intro s
    rw [List.cons_append, run, run]
    cases step call env s t with
    | error failure => rfl
    | ok s' => exact ih s'

/-- The steps over a row are the one over the first token and then those over the others. -/
theorem run_cons (s : Machine) (t : Token) (ts : List Token) :
    run call env s (t :: ts) = step call env s t >>= fun s' => run call env s' ts := by
  rw [run]
  cases step call env s t with
  | error failure => rfl
  | ok s' => rfl

/-- The steps over one token. -/
theorem run_singleton (s : Machine) (t : Token) : run call env s [t] = step call env s t := by
  rw [run]
  cases step call env s t with
  | error failure => rfl
  | ok s' => rfl

/-- The step over an operand pushes its value. -/
theorem step_leaf {t : Token} (h : isOperand t) (s : Machine) :
    step call env s t = (leafValue env t).map fun v => ⟨v :: s.stack, s.operations⟩ := by
  rcases h with h | h | h
  · rw [step, leafValue, h]
    cases env.modes.literal t.value <;> rfl
  · rw [step, leafValue, h]
    cases constantValue env.modes t.value <;> rfl
  · rw [step, leafValue, h]
    cases variableValue env t.value <;> rfl

/-- The step over a function takes the arguments from the top, the last one first. -/
theorem step_function {t : Token} (h : t.kind = .function) {vs : List Value}
    (count : t.argumentCount = some (vs.length : Int) ∨ t.argumentCount = none ∧
      ∃ f, env.vocabulary.function? t.value = some f ∧ f.arity = .exactly vs.length)
    (rest : List Value) (k : Nat) :
    step call env ⟨vs.reverse ++ rest, k⟩ t =
      (nodeValue (fun f => call f (env.draw + k)) env t vs).map fun v => ⟨v :: rest, k + 1⟩ := by
  simp only [step, nodeValue, h, applyFunction]
  cases hf : env.vocabulary.function? t.value with
  | none => rfl
  | some f =>
    have hcount : argumentCount f t.argumentCount = .ok (vs.length : Int) := by
      rcases count with hc | ⟨hc, g, hg, ha⟩
      · rw [hc, argumentCount]
      · rw [hf] at hg
        cases hg
        simp only [hc, argumentCount, ha]
    simp only [hcount, ok_bind]
    cases f.arityProblem? vs.length with
    | some cause => rfl
    | none =>
      -- the arguments are on the stack, and nothing below them is touched
      have henough : ¬ (((vs.reverse ++ rest).length : Int) < vs.length) := by
        rw [List.length_append, List.length_reverse]
        omega
      have htop : ((vs.reverse ++ rest).take (vs.length : Int).toNat).reverse = vs := by
        rw [Int.toNat_natCast, List.take_left' (List.length_reverse), List.reverse_reverse]
      have hrest : (vs.reverse ++ rest).drop (vs.length : Int).toNat = rest := by
        rw [Int.toNat_natCast, List.drop_left' (List.length_reverse)]
      simp only [if_neg henough, htop, hrest]
      cases call f (env.draw + k) vs with
      | error failure => rfl
      | ok v =>
        simp only [ok_bind, pushResult]
        cases env.modes.normalize v <;> rfl

/-- The step over an operator takes its operands from the top, the right one first. -/
theorem step_operator {t : Token} (h : t.kind = .operator) {o : Operator}
    (found : env.vocabulary.operators.find? t.value = some o) {vs : List Value}
    (arity : o.rule.arity = vs.length) (rest : List Value) (k : Nat) :
    step call env ⟨vs.reverse ++ rest, k⟩ t =
      (nodeValue (fun f => call f (env.draw + k)) env t vs).map fun v => ⟨v :: rest, k + 1⟩ := by
  simp only [step, nodeValue, h, applyOperator, found]
  cases hr : o.rule with
  | unary rule =>
    rw [hr] at arity
    obtain ⟨v, rfl⟩ := List.length_eq_one_iff.mp arity.symm
    simp only [List.reverse_singleton, List.singleton_append]
    cases rule.apply v with
    | error failure => rfl
    | ok w =>
      simp only [ok_bind, pushResult]
      cases env.modes.normalize w <;> rfl
  | binary rule =>
    rw [hr] at arity
    match vs, arity with
    | [v, w], _ =>
      simp only [List.reverse_cons, List.reverse_nil, List.nil_append, List.cons_append]
      cases v.promote w with
      | error failure => rfl
      | ok o =>
        simp only [ok_bind]
        cases rule.apply env.modes o with
        | error failure => rfl
        | ok u =>
          simp only [ok_bind, pushResult]
          cases env.modes.normalize u <;> rfl

/-- The step over the token of a node takes the operands of the node and pushes its value. -/
theorem step_node {t : Token} {vs : List Value} (takes : Takes env.vocabulary t vs.length)
    (rest : List Value) (k : Nat) :
    step call env ⟨vs.reverse ++ rest, k⟩ t =
      (nodeValue (fun f => call f (env.draw + k)) env t vs).map fun v => ⟨v :: rest, k + 1⟩ := by
  rcases takes with ⟨h, o, found, arity⟩ | ⟨h, hc⟩ | ⟨h, hc⟩
  · exact step_operator h found arity rest k
  · exact step_function h (Or.inl hc) rest k
  · exact step_function h (Or.inr hc) rest k

/-! ## Forward: a tree is evaluated in post-order -/

mutual

/-- **The steps over the post-order of a tree** push the value of the tree, or fail as the tree does. -/
theorem run_postorder : ∀ x : Tree, Fits env.vocabulary x → ∀ s : Machine,
    run call env s (postorder x) =
      (valueAt call env s.operations x).map fun v => ⟨v :: s.stack, s.operations + operations x⟩
  | leaf t, fits, s => by
    rw [postorder, run_singleton, step_leaf fits, valueAt, operations, Nat.add_zero]
  | node t xs, fits, s => by
    rw [postorder, run_append, run_postorders xs fits.2 s, valueAt, operations]
    cases hvs : valuesAt call env s.operations xs with
    | error failure => rfl
    | ok vs =>
      -- the values wait one for each operand, so the node takes all of them
      have takes : Takes env.vocabulary t vs.length := by
        rw [length_valuesAt hvs]
        exact fits.1
      simp only [map_ok, ok_bind, run_singleton]
      exact step_node takes s.stack (s.operations + operationsOf xs)

/-- The steps over a row of trees push their values, the last one on top. -/
theorem run_postorders : ∀ xs : List Tree, FitAll env.vocabulary xs → ∀ s : Machine,
    run call env s (postorders xs) =
      (valuesAt call env s.operations xs).map fun vs =>
        ⟨vs.reverse ++ s.stack, s.operations + operationsOf xs⟩
  | [], fits, s => rfl
  | x :: xs, fits, s => by
    rw [postorders, run_append, run_postorder x fits.1 s, valuesAt, operationsOf]
    cases valueAt call env s.operations x with
    | error failure => rfl
    | ok v =>
      simp only [map_ok, ok_bind, run_postorders xs fits.2]
      cases valuesAt call env (s.operations + operations x) xs with
      | error failure => rfl
      | ok vs =>
        simp only [map_ok, ok_bind, pure_eq_ok, List.reverse_cons, List.append_assoc,
          List.singleton_append, Nat.add_assoc]

end

/-! ## Backward: a run that ends well has read trees -/

/-- A number of arguments that fits a function is that of a row of arguments. -/
theorem nonneg_of_arityProblem?_eq_none {f : Function} {n : Int} (h : f.arityProblem? n = none) :
    0 ≤ n := by
  unfold Function.arityProblem? at h
  split at h
  · split at h
    · cases h
    · omega
  · split at h
    · omega
    · cases h

/-- The number of arguments of a call is the recorded one or that of the function. -/
theorem takes_of_argumentCount {v : Vocabulary} {t : Token} {f : Function} {n : Int}
    (h : t.kind = .function) (found : v.function? t.value = some f)
    (count : argumentCount f t.argumentCount = .ok n) (fits : f.arityProblem? n = none) :
    Takes v t n.toNat := by
  have hn := nonneg_of_arityProblem?_eq_none fits
  unfold argumentCount at count
  split at count
  · rename_i m a hm
    cases count
    refine Or.inr (Or.inl ⟨h, ?_⟩)
    rw [hm, Int.toNat_of_nonneg hn]
  · rename_i m hm ha
    cases count
    refine Or.inr (Or.inr ⟨h, hm, f, found, ?_⟩)
    rw [ha, Int.toNat_natCast]
  · cases count

/-- A step over a function that ends well has taken its arguments and left one value. -/
theorem takes_of_applyFunction_eq_ok {s s' : Machine} {t : Token} (h : t.kind = .function)
    (ok : applyFunction call env s t = .ok s') :
    ∃ n, Takes env.vocabulary t n ∧ n ≤ s.stack.length ∧ s'.stack.length + n = s.stack.length + 1 := by
  unfold applyFunction at ok
  cases hf : env.vocabulary.function? t.value with
  | none =>
    rw [hf] at ok
    cases ok
  | some f =>
    rw [hf] at ok
    obtain ⟨n, hn, ok⟩ := bind_eq_ok.mp ok
    cases hp : f.arityProblem? n with
    | some cause =>
      rw [hp] at ok
      cases ok
    | none =>
      simp only [hp] at ok
      have hpos := nonneg_of_arityProblem?_eq_none hp
      by_cases hlt : (s.stack.length : Int) < n
      · rw [if_pos hlt] at ok
        cases ok
      · rw [if_neg hlt] at ok
        obtain ⟨v, -, ok⟩ := bind_eq_ok.mp ok
        obtain ⟨w, -, ok⟩ := bind_eq_ok.mp ok
        cases ok
        refine ⟨n.toNat, takes_of_argumentCount h hf hn hp, by omega, ?_⟩
        rw [List.length_cons, List.length_drop]
        omega

/-- A step over an operator that ends well has taken its operands and left one value. -/
theorem takes_of_applyOperator_eq_ok {s s' : Machine} {t : Token} (h : t.kind = .operator)
    (ok : applyOperator env s t = .ok s') :
    ∃ n, Takes env.vocabulary t n ∧ n ≤ s.stack.length ∧ s'.stack.length + n = s.stack.length + 1 := by
  unfold applyOperator at ok
  cases ho : env.vocabulary.operators.find? t.value with
  | none =>
    rw [ho] at ok
    cases ok
  | some o =>
    simp only [ho] at ok
    split at ok
    · rename_i rule v rest hr hs
      obtain ⟨w, -, ok⟩ := bind_eq_ok.mp ok
      obtain ⟨u, -, ok⟩ := bind_eq_ok.mp ok
      cases ok
      refine ⟨1, Or.inl ⟨h, o, ho, by rw [hr]; rfl⟩, ?_, ?_⟩
      · rw [hs, List.length_cons]
        omega
      · rw [hs, List.length_cons, List.length_cons]
    · rename_i rule w v rest hr hs
      obtain ⟨p, -, ok⟩ := bind_eq_ok.mp ok
      obtain ⟨x, -, ok⟩ := bind_eq_ok.mp ok
      obtain ⟨u, -, ok⟩ := bind_eq_ok.mp ok
      cases ok
      refine ⟨2, Or.inl ⟨h, o, ho, by rw [hr]; rfl⟩, ?_, ?_⟩
      · rw [hs, List.length_cons, List.length_cons]
        omega
      · rw [hs, List.length_cons, List.length_cons, List.length_cons]
    · cases ok

/-- **What a step does to the height of the stack**: an operand adds a value, and an operator or a function
    puts one value in the place of its operands. -/
theorem step_eq_ok {s s' : Machine} {t : Token} (ok : step call env s t = .ok s') :
    (isOperand t ∧ s'.stack.length = s.stack.length + 1) ∨
      ∃ n, Takes env.vocabulary t n ∧ n ≤ s.stack.length ∧ s'.stack.length + n = s.stack.length + 1 := by
  unfold step at ok
  split at ok
  · rename_i h
    obtain ⟨v, -, ok⟩ := bind_eq_ok.mp ok
    cases ok
    exact Or.inl ⟨Or.inl h, rfl⟩
  · rename_i h
    obtain ⟨v, -, ok⟩ := bind_eq_ok.mp ok
    cases ok
    exact Or.inl ⟨Or.inr (Or.inl h), rfl⟩
  · rename_i h
    obtain ⟨v, -, ok⟩ := bind_eq_ok.mp ok
    cases ok
    exact Or.inl ⟨Or.inr (Or.inr h), rfl⟩
  · rename_i h
    exact Or.inr (takes_of_applyFunction_eq_ok h ok)
  · rename_i h
    exact Or.inr (takes_of_applyOperator_eq_ok h ok)
  · cases ok

/-- A token that a step is taken over ends a tree: the row of trees for the values that waited becomes one
    for the values that wait afterwards. -/
theorem exists_trees_of_step {s s' : Machine} {t : Token} (ok : step call env s t = .ok s')
    {xs : List Tree} (fit : FitAll env.vocabulary xs) (length : xs.length = s.stack.length) :
    ∃ ys, FitAll env.vocabulary ys ∧ ys.length = s'.stack.length ∧
      postorders ys = postorders xs ++ [t] := by
  rcases step_eq_ok ok with ⟨operand, hs⟩ | ⟨n, takes, hle, hs⟩
  · refine ⟨xs ++ [leaf t], fitAll_append.mpr ⟨fit, operand, trivial⟩, ?_, ?_⟩
    · rw [List.length_append, List.length_singleton, length, hs]
    · exact postorders_concat_leaf xs t
  · -- the trees of the last `n` values become the operands of a node
    have hsplit := List.take_append_drop (xs.length - n) xs
    have hlast : (xs.drop (xs.length - n)).length = n := by
      rw [List.length_drop]
      omega
    rw [← hsplit] at fit
    obtain ⟨hfront, hback⟩ := fitAll_append.mp fit
    refine ⟨xs.take (xs.length - n) ++ [node t (xs.drop (xs.length - n))],
      fitAll_append.mpr ⟨hfront, ⟨?_, hback⟩, trivial⟩, ?_, ?_⟩
    · rw [hlast]
      exact takes
    · rw [List.length_append, List.length_singleton, List.length_take]
      omega
    · rw [postorders_concat_node, hsplit]

/-- **A run that ends well has read a row of trees**, one for each value that waits. -/
theorem exists_trees_of_run {ts : List Token} :
    ∀ {s s' : Machine} {xs : List Tree}, run call env s ts = .ok s' →
      FitAll env.vocabulary xs → xs.length = s.stack.length →
      ∃ ys, FitAll env.vocabulary ys ∧ ys.length = s'.stack.length ∧
        postorders ys = postorders xs ++ ts := by
  induction ts with
  | nil =>
    intro s s' xs ok fit length
    cases ok
    exact ⟨xs, fit, length, by rw [List.append_nil]⟩
  | cons t ts ih =>
    intro s s' xs ok fit length
    rw [run] at ok
    cases hstep : step call env s t with
    | error failure =>
      rw [hstep] at ok
      cases ok
    | ok s₁ =>
      rw [hstep] at ok
      obtain ⟨ys, hys, hlen, hpost⟩ := exists_trees_of_step hstep fit length
      obtain ⟨zs, hzs, hlen', hpost'⟩ := ih ok hys hlen
      exact ⟨zs, hzs, hlen', by rw [hpost', hpost, List.append_assoc, List.singleton_append]⟩

/-- Tokens have a value if the run over them ends well and leaves one value. -/
theorem evaluateWith_eq_ok {ts : List Token} {outcome : Outcome} :
    evaluateWith call env ts = .ok outcome ↔ ∃ s, run call env start ts = .ok s ∧ finish s = .ok outcome := by
  rw [evaluateWith]
  cases run call env start ts with
  | error f => simp
  | ok s => simp

/-- Tokens that have a value are the post-order of a tree. -/
theorem exists_tree_of_evaluateWith {ts : List Token} {outcome : Outcome}
    (ok : evaluateWith call env ts = .ok outcome) :
    ∃ x, Fits env.vocabulary x ∧ postorder x = ts := by
  obtain ⟨s, hrun, hfinish⟩ := evaluateWith_eq_ok.mp ok
  obtain ⟨ys, hys, hlen, hpost⟩ := exists_trees_of_run hrun (show FitAll env.vocabulary [] from trivial) rfl
  unfold finish at hfinish
  split at hfinish
  · rename_i v hstack
    rw [hstack] at hlen
    obtain ⟨x, rfl⟩ := List.length_eq_one_iff.mp hlen
    refine ⟨x, hys.1, ?_⟩
    rw [← List.append_nil (postorder x)]
    exact hpost
  · cases hfinish

/-- The result of the tokens of a tree is its value, with the number of its operations. -/
theorem evaluateWith_postorder {x : Tree} (fits : Fits env.vocabulary x) :
    evaluateWith call env (postorder x) =
      match valueAt call env 0 x with
      | .ok v => .ok ⟨v, operations x⟩
      | .error failure => .error failure.translated := by
  rw [evaluateWith, run_postorder x fits start, start]
  cases valueAt call env 0 x with
  | error failure => rfl
  | ok v => simp only [map_ok, finish, Nat.zero_add]

end Evaluation

end SciCalc
