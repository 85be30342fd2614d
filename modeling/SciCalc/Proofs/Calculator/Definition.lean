/-
  Functions of the user mean their bodies.

  1. **Expressions** (`exists_tree_of_compile`) — what is compiled is the post-order of a tree, and what a tree that
     draws nothing has as its value is read again as itself.

  2. **Calls** (`exists_call_value`) — a calculation of a call has called the function with the values of the
     arguments, each of them as it is alone.

  3. **Theorem** (`calculate_call`) — outside the exact regime the value is that of the body with the arguments in
     the place of the parameters.  Only the sign of a decimal zero can make a difference, for it is lost where the
     zero is read once more (`not_always_body`).
-/
import SciCalc.Proofs.Calculator.Assignment
import SciCalc.Proofs.Calculator.Reset
import SciCalc.Proofs.Evaluation.Substitution
import SciCalc.Proofs.Postfix.Written

namespace SciCalc

open Attempt

/-- The value is a negative zero of the decimals. -/
def Value.isNegativeZero : Value → Bool
  | .decimal (.finite true 0 _) _ => true
  | _ => false

/-- Only a negative zero has a sign to lose. -/
theorem Value.unsigned_of_isNegativeZero_eq_false {v : Value} (h : v.isNegativeZero = false) : v.unsigned = v := by
  refine unsigned_of_ne fun e ctx hv => ?_
  rw [hv] at h
  cases h

/-- The parameters and the body of a function that was defined by an expression. -/
def Function.definition? (f : Function) : Option (List String × List Token) :=
  match f.implementation with
  | .defined _ parameters body => some (parameters, body)
  | _ => none

namespace Calculator

variable {c : Calculator} {v : Value}

/-! ## Expressions -/

/-- **What is compiled is the post-order of the tree that the text is read as.** -/
theorem exists_tree_of_compile (reached : Reachable c) {e : String} {ps : List Token}
    (h : c.compile (.text e) = .ok ps) :
    ∃ x, ReadsText c.vocabulary c.modes.complexEnabled e x ∧ x.postorder = ps ∧ Tree.Fits c.vocabulary x := by
  have table : c.vocabulary.operators = .basic ∨ c.vocabulary.operators = .calculator :=
    Or.inr reached.coherent.operators
  obtain ⟨ts, htokens, hordered⟩ := compile_eq_ok.mp h
  have hdepth : Postfix.ofTokens c.vocabulary.operators Limit.nesting ts = .ok ps := hordered
  obtain ⟨x, hx, hpost⟩ := exists_readsText table htokens hdepth
  obtain ⟨body, fin, hlexes, hclimbs⟩ := id hx
  exact ⟨x, hx, hpost, (hclimbs.fits (ranked_of_table table)).of_operators⟩

/-! ## Calls -/

/-- The parameters and the body of the function of a name, if the function was defined by an expression. -/
def definition? (c : Calculator) (name : String) : Option (List String × List Token) :=
  (c.functions.find? name).bind Function.definition?

theorem exists_of_definition? {name : String} {parameters : List String} {body : List Token}
    (h : c.definition? name = some (parameters, body)) :
    ∃ f defined, c.functions.find? name = some f ∧ f.implementation = .defined defined parameters body := by
  obtain ⟨f, hf, hdefined⟩ := Option.bind_eq_some_iff.mp h
  unfold Function.definition? at hdefined
  split at hdefined
  · rename_i defined _ _ himpl
    cases hdefined
    exact ⟨f, defined, hf, himpl⟩
  · cases hdefined

/-- Trees that are read further on have the values that they have alone. -/
theorem exists_values {env : Environment} {ys xs : List Tree} (h : List.Forall₂ Tree.IsShiftOf ys xs) :
    ∀ {args : List Value}, Tree.values env.apply env ys = .ok args →
      List.Forall₂ (fun x a => Tree.value env.apply env x = .ok a) xs args := by
  induction h with
  | nil =>
    intro args hargs
    cases hargs
    exact .nil
  | @cons y x ys xs hshift _ ih =>
    intro args hargs
    obtain ⟨k, rfl⟩ := hshift
    rw [Tree.values] at hargs
    obtain ⟨a, ha, hargs⟩ := bind_eq_ok.mp hargs
    obtain ⟨as, has, hargs⟩ := bind_eq_ok.mp hargs
    cases hargs
    exact .cons (Tree.value_shift x ha) (ih has)

/-- Trees that draw nothing draw nothing further on. -/
theorem drawsNothing_postorders {vocabulary : Vocabulary} {ys xs : List Tree}
    (h : List.Forall₂ Tree.IsShiftOf ys xs) :
    (∀ x ∈ xs, DrawsNothing vocabulary x.postorder) → DrawsNothing vocabulary (Tree.postorders ys) := by
  induction h with
  | nil => exact fun _ => nofun
  | @cons y x ys xs hshift _ ih =>
    intro hxs
    obtain ⟨k, rfl⟩ := hshift
    obtain ⟨hx, hxs⟩ := List.forall_mem_cons.mp hxs
    rw [Tree.postorders, Tree.postorder_shift]
    exact List.forall_mem_append.mpr ⟨drawsNothing_shift hx, ih hxs⟩

/-- **A call has called the function with the values of the arguments.** -/
theorem exists_call_value (reached : Reachable c) {name : String} (hname : Token.IsName name) {f : Function}
    (hf : c.functions.find? name = some f) (hdraws : ¬ Draws c.vocabulary f) {es : List String} {xs : List Tree}
    (hxs : List.Forall₂ (ReadsText c.vocabulary c.modes.complexEnabled) es xs)
    (hnothing : ∀ x ∈ xs, DrawsNothing c.vocabulary x.postorder)
    (h : (c.calculate (.text (callText name es))).1.value = some v) :
    ∃ args w, List.Forall₂ (fun x a => Tree.value c.begin.environment.apply c.begin.environment x = .ok a) xs args ∧
      c.begin.environment.apply f args = .ok w ∧ c.modes.normalize w = .ok v := by
  have spares : c.vocabulary.operators.Spares := by
    have hoperators : c.vocabulary.operators = .calculator := reached.coherent.operators
    rw [hoperators]
    exact Operators.spares_calculator
  have hfind : c.vocabulary.function? name = some f := hf
  have hfunction : c.vocabulary.isFunction name = true := by
    rw [Vocabulary.isFunction, hfind]
    rfl
  obtain ⟨ys, hcall, hshift⟩ := exists_readsText_call spares hname hfunction hxs
  -- the text is read as the call
  obtain ⟨ts, ps, outcome, htokens, hordered, heval, rfl⟩ := exists_outcome_of_calculate h
  obtain ⟨x, hread, hpost, fits⟩ := exists_tree_of_compile reached (compile_eq_ok.mpr ⟨ts, htokens, hordered⟩)
  have separable : c.vocabulary.operators.Separable :=
    Operators.separable_of_table (Or.inr reached.coherent.operators)
  obtain rfl := hread.unique separable hcall
  have hwhole : DrawsNothing c.vocabulary (Tree.node (callToken name ys.length) ys).postorder := by
    refine List.forall_mem_append.mpr ⟨drawsNothing_postorders hshift hnothing, ?_⟩
    intro t ht _ g hg
    rw [List.mem_singleton.mp ht] at hg
    obtain rfl := Option.some.inj (hfind.symm.trans hg)
    exact hdraws
  rw [← hpost] at heval
  have fits' : Tree.Fits c.begin.environment.vocabulary (.node (callToken name ys.length) ys) := fits
  obtain ⟨hvalue, -⟩ := (Environment.evaluate_postorder_iff fits' hwhole outcome).mp heval
  -- its value is that of the function for the values of the arguments
  rw [Tree.value] at hvalue
  obtain ⟨args, hargs, hnode⟩ := bind_eq_ok.mp hvalue
  have hkind : (callToken name ys.length).kind = .function := rfl
  obtain ⟨w, hw, hnormal⟩ := Tree.exists_of_nodeValue_eq_ok hkind hfind hnode
  exact ⟨args, w, exists_values hshift hargs, hw, hnormal⟩

/-! ## Theorem -/

/-- **Outside the exact regime the value of an evaluation is read again as itself**, but a decimal zero can lose its
    sign. -/
theorem kept_of_evaluate (reached : Reachable c) (hregime : c.modes.regime ≠ .exact) {ps : List Token} {o : Outcome}
    (h : c.begin.environment.evaluate ps = .ok o) :
    c.modes.normalize o.value = .ok o.value ∨
      c.modes.regime = .decimal ∧ c.modes.rounding ≠ .down ∧ c.modes.normalize o.value = .ok o.value.unsigned := by
  have hleast : Limit.leastPrecision ≤ c.begin.environment.modes.precision := reached.limited.1
  have hkept : c.modes.Rereads o.value :=
    Evaluation.evaluateWith_holds (Modes.normalize_rereads hleast) (Modes.literal_rereads hleast) ps o h
  rcases hkept fun hexact => absurd hexact hregime with hsame | ⟨hrounding, hsame⟩
  · exact Or.inl hsame
  · by_cases hdecimal : c.modes.regime = .decimal
    · exact Or.inr ⟨hdecimal, hrounding, hsame⟩
    · left
      have hnative : o.value.Native c.modes := Evaluation.evaluateWith_native hleast ps o h
      have hunsigned : o.value.unsigned = o.value := by
        refine Value.unsigned_of_ne fun e ctx hv => ?_
        rw [hv] at hnative
        exact hdecimal hnative.1
      rwa [hunsigned] at hsame

/-- An expression that draws nothing has one result in front of a calculation and in it. -/
theorem evaluate_begin {ps : List Token} (h : DrawsNothing c.vocabulary ps) (draw : Nat) :
    { c.environment with draw := draw }.evaluate ps = c.begin.environment.evaluate ps := by
  have hbegin : DrawsNothing c.begin.environment.vocabulary ps := h
  exact Environment.evaluate_congr_draw hbegin draw

/-- **A function of the user means its body.**  Outside the exact regime the value of a call is that of the body with
    the arguments in the place of the parameters, evaluated with the variables of the calculator, where only a
    decimal zero may have lost its sign; no argument may be a negative zero that loses it. -/
theorem calculate_call (reached : Reachable c) (hregime : c.modes.regime ≠ .exact) {name : String}
    (hname : Token.IsName name) {parameters : List String} {body : List Token}
    (hdefined : c.definition? name = some (parameters, body)) (hbody : DrawsNothing c.vocabulary body)
    {es : List String} {rows : List (List Token)}
    (hes : List.Forall₂ (fun e row => c.compile (.text e) = .ok row) es rows)
    (hnothing : ∀ row ∈ rows, DrawsNothing c.vocabulary row)
    (hzero : c.modes.regime = .decimal → c.modes.rounding ≠ .down →
      ∀ row ∈ rows, ∀ o, c.environment.evaluate row = .ok o → o.value.isNegativeZero = false)
    (h : (c.calculate (.text (callText name es))).1.value = some v) (draw : Nat) :
    ∃ w n, { c.environment with draw := draw }.evaluate (inlined (parameters.zip rows) body) = .ok ⟨w, n⟩ ∧
      (v = w ∨ c.modes.regime = .decimal ∧ c.modes.rounding ≠ .down ∧ v = w.unsigned) := by
  obtain ⟨f, defined, hf, himpl⟩ := exists_of_definition? hdefined
  have hdraws : ¬ Draws c.vocabulary f := not_draws_of_body himpl hbody
  -- the arguments are trees
  obtain ⟨xs, hxs, rfl, fits⟩ : ∃ xs, List.Forall₂ (ReadsText c.vocabulary c.modes.complexEnabled) es xs ∧
      xs.map Tree.postorder = rows ∧ ∀ x ∈ xs, Tree.Fits c.vocabulary x := by
    clear hnothing hzero h
    induction hes with
    | nil => exact ⟨[], .nil, rfl, nofun⟩
    | cons he _ ih =>
      obtain ⟨x, hx, rfl, hfits⟩ := exists_tree_of_compile reached he
      obtain ⟨xs, hxs, rfl, fits⟩ := ih
      exact ⟨x :: xs, .cons hx hxs, rfl, List.forall_mem_cons.mpr ⟨hfits, fits⟩⟩
  rw [List.forall_mem_map] at hnothing
  rw [List.forall_mem_map] at hzero
  obtain ⟨args, w, hargs, hw, hnormal⟩ := exists_call_value reached hname hf hdraws hxs hnothing h
  -- their values are read as themselves
  have hargument : ∀ x a, (x ∈ xs ∧ Tree.value c.begin.environment.apply c.begin.environment x = .ok a) →
      Argument c.begin.environment x a := by
    rintro x a ⟨hx, ha⟩
    have heval : c.begin.environment.evaluate x.postorder = .ok ⟨a, x.operations⟩ :=
      (Environment.evaluate_postorder_iff (fits x hx) (hnothing x hx) _).mpr ⟨ha, rfl⟩
    refine ⟨fits x hx, hnothing x hx, ha, ?_⟩
    rcases kept_of_evaluate reached hregime heval with hsame | ⟨hdecimal, hrounding, hsame⟩
    · exact hsame
    · have heval' : c.environment.evaluate x.postorder = .ok ⟨a, x.operations⟩ :=
        (evaluate_begin (hnothing x hx) c.environment.draw).trans heval
      have hsign := hzero hdecimal hrounding x hx _ heval'
      rwa [Value.unsigned_of_isNegativeZero_eq_false hsign] at hsame
  have arguments : List.Forall₂ (Argument c.begin.environment) xs args :=
    ((List.forall₂_and_left xs args).mpr ⟨fun _ hx => hx, hargs⟩).imp hargument
  -- the body is a tree
  obtain ⟨b, hb, rfl⟩ := reached.coherent.compiled f (Registry.mem_of_find? hf) defined parameters body himpl
  have hfits : Tree.Fits c.begin.environment.vocabulary b := hb.of_operators
  obtain ⟨n, heval⟩ := evaluate_inlined himpl hfits rfl hbody arguments hw
  refine ⟨w, n, ?_, ?_⟩
  · have hinlined : DrawsNothing c.vocabulary (inlined (parameters.zip (xs.map Tree.postorder)) b.postorder) :=
      drawsNothing_inlined hbody arguments
    rw [evaluate_begin hinlined]
    exact heval
  · rcases kept_of_evaluate reached hregime heval with hsame | ⟨hdecimal, hrounding, hsame⟩
    · exact Or.inl (Except.ok.inj (hnormal.symm.trans hsame))
    · exact Or.inr ⟨hdecimal, hrounding, Except.ok.inj (hnormal.symm.trans hsame)⟩

/-- The arguments are named as the parameters of the others are. -/
theorem calculate_call_crossed :
    let c := session 10 [.setMode .regime (.text "decimal"), .assign (.text "x") (.text "7"),
      .assign (.text "y") (.text "2"), .defineFunction (.text "f") [.text "x", .text "y"] (.text "x-y")]
    let rows : List (List Token) := [[⟨.variable, "y", 0, none⟩], [⟨.variable, "x", 0, none⟩]]
    let body : List Token := [⟨.variable, "x", 0, none⟩, ⟨.variable, "y", 2, none⟩, ⟨.operator, "-", 1, none⟩]
    let v := Value.decimal (.finite true 5 0) c.modes.context
    c.definition? "f" = some (["x", "y"], body) ∧
      (c.calculate (.text (callText "f" ["y", "x"]))).1.value = some v ∧
      ∃ w n, { c.environment with draw := 0 }.evaluate (inlined (["x", "y"].zip rows) body) = .ok ⟨w, n⟩ ∧
        (v = w ∨ c.modes.regime = .decimal ∧ c.modes.rounding ≠ .down ∧ v = w.unsigned) := by
  intro c rows body v
  have hdefined : c.definition? "f" = some (["x", "y"], body) := by decide +kernel
  have hvalue : (c.calculate (.text (callText "f" ["y", "x"]))).1.value = some v := by decide +kernel
  have hcompiled : List.Forall₂ (fun e row => c.compile (.text e) = .ok row) ["y", "x"] rows := by
    have hy : c.compile (.text "y") = .ok [⟨.variable, "y", 0, none⟩] := by decide +kernel
    have hx : c.compile (.text "x") = .ok [⟨.variable, "x", 0, none⟩] := by decide +kernel
    exact .cons hy (.cons hx .nil)
  have hkinds : ∀ row ∈ rows, ∀ t ∈ row, t.kind ≠ .function := by decide
  have hbody : ∀ t ∈ body, t.kind ≠ .function := by decide
  have hregime : c.modes.regime ≠ .exact := by decide +kernel
  have reached : Reachable c := reachable_session 10 _
  have hname : Token.IsName "f" := ⟨'f', [], rfl, by decide, nofun⟩
  have hzero : ∀ row ∈ rows, ∀ o, c.environment.evaluate row = .ok o → o.value.isNegativeZero = false := by
    have hsigns : ∀ row ∈ rows, (c.environment.evaluate row).toOption.any (·.value.isNegativeZero) = false := by
      decide +kernel
    intro row hrow o ho
    have hsign := hsigns row hrow
    rw [ho] at hsign
    exact hsign
  clear_value c rows body v
  exact ⟨hdefined, hvalue, calculate_call reached hregime hname hdefined (drawsNothing_of_operators hbody) hcompiled
    (fun row hrow => drawsNothing_of_operators (hkinds row hrow)) (fun _ _ => hzero) hvalue 0⟩

/-- **Where a call does not mean its body.**  A decimal that a lower precision makes a negative zero loses its sign
    where it is read as a parameter, so that it is no negative number there; and a name with a line feed behind it
    is not read as the name of its function. -/
theorem not_always_body :
    let c := session 10 [.setMode .regime (.text "decimal"), .setMode .precision (.integer 60),
      .assign (.text "x") (.text "-1e-1000058"), .setMode .precision (.integer 50),
      .defineFunction (.text "f") [.text "p"] (.text "arg(p)")]
    let argument : List Token := [⟨.variable, "p", 4, none⟩, ⟨.function, "arg", 0, some 1⟩]
    let x : List Token := [⟨.variable, "x", 0, none⟩]
    let d := session 10 [.defineFunction (.text "f") [.text "p"] (.text "p+1"),
      .defineFunction (.text "f\n") [.text "p"] (.text "p+2")]
    let sum : List Token := [⟨.variable, "p", 0, none⟩, ⟨.number, "2", 2, none⟩, ⟨.operator, "+", 1, none⟩]
    let one : List Token := [⟨.number, "1", 0, none⟩]
    (c.definition? "f" = some (["p"], argument) ∧ c.compile (.text "x") = .ok x ∧
      (c.calculate (.text (callText "f" ["x"]))).1.value = some (.decimal (.finite false 0 (-1)) c.modes.context) ∧
      c.environment.evaluate (inlined (["p"].zip [x]) argument) =
        .ok ⟨.decimal (.finite false 3141592653589793 (-15)) c.modes.context, 1⟩) ∧
    (d.definition? "f\n" = some (["p"], sum) ∧ d.compile (.text "1") = .ok one ∧
      (d.calculate (.text (callText "f\n" ["1"]))).1.value = some (.real (Double.ofInt 2)) ∧
      d.environment.evaluate (inlined (["p"].zip [one]) sum) = .ok ⟨.real (Double.ofInt 3), 1⟩) := by
  decide +kernel

end Calculator

end SciCalc
