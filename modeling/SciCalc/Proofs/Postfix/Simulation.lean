/-
  The scan with two stacks is the run.

  1. **Findings** (`note`) — what a scan does with what a run finds: it stops at the first problem, or notes
     everything down up to the first message that cannot be told.

  2. **States** (`toScan`) — what waits in a run is laid out on the two stacks of a scan: a parenthesis with
     the function name of its call below it, and a frame for each parenthesis.  A function name in front of
     its parenthesis already lies on the stack.

  3. **Steps** (`advance_eq`) — a step of the scan does to the stacks what a step of the run does to what
     waits.  So the stacks stay in step over any tokens, and nothing is taken from an empty one.

  4. **Runs** (`validate_eq`, `parse_eq`).
-/
import SciCalc.Proofs.Attempt
import SciCalc.Proofs.Postfix.Scan
import SciCalc.Proofs.Postfix.Step

namespace SciCalc.Postfix

open Attempt

/-! ## Findings -/

/-- What becomes of the issues with something found, or the first problem if problems are raised. -/
def note (functions : Option Registry) :
    Option (List Issue) → List Finding → Except Halt (Option (List Issue))
  | none, found =>
    match firstProblem? found with
    | some cause => .error (.raised cause.failure)
    | none => .ok none
  | some is, found =>
    match firstUntold? functions found with
    | some failure => .error (.raised failure)
    | none => .ok (some (is ++ found.filterMap (Finding.issue? functions)))

section

variable {functions : Option Registry}

@[simp] theorem note_nil (issues : Option (List Issue)) : note functions issues [] = .ok issues := by
  cases issues with
  | none => rfl
  | some is =>
    rw [note, List.filterMap_nil, List.append_nil]
    rfl

@[simp] theorem problemIf_true (cause : StructuralCause) : problemIf true cause = [.problem cause] := rfl

@[simp] theorem problemIf_false (cause : StructuralCause) : problemIf false cause = [] := rfl

/-- Things found one after the other are noted down one after the other. -/
theorem note_append (issues : Option (List Issue)) (found more : List Finding) :
    note functions issues (found ++ more) =
      note functions issues found >>= fun issues => note functions issues more := by
  cases issues with
  | none =>
    rw [note, note, firstProblem?, List.findSome?_append]
    unfold firstProblem?
    cases List.findSome? _ found with
    | some cause => rfl
    | none => rfl
  | some is =>
    rw [note, note, firstUntold?, List.findSome?_append, List.filterMap_append, ← List.append_assoc]
    unfold firstUntold?
    cases List.findSome? _ found with
    | some failure => rfl
    | none => rfl

/-- A failure is collected as the finding that it tells of is noted down. -/
theorem collect_eq {f : Finding} {failure : Failure} {position : Option Int}
    (hfailure : f.failure? functions = some failure)
    (hissue : ∀ r, failure.report? = some r → f.issue? functions = some { r.issue with position := position })
    (c : Scan) (is : List Issue) :
    c.collect is failure position =
      (note functions (some is) [f]).map fun issues => { c with issues := issues } := by
  rw [Scan.collect, note, firstUntold?, List.findSome?_cons, Finding.untold?, hfailure, Option.filter_some]
  cases hreport : failure.report? with
  | none => rfl
  | some r =>
    rw [List.filterMap_cons, hissue r hreport]
    rfl

/-- The issue of a problem is what its failure tells. -/
theorem issue_eq {cause : StructuralCause} {r : Report} (h : cause.failure.report? = some r) :
    { r.issue with position := cause.position } = cause.issue := by
  rcases cause.failure_cases with hf | hf
  · rw [hf] at h
    cases h
    rfl
  · rw [hf] at h
    cases h

theorem report_eq (functions : Option Registry) (c : Scan) (cause : StructuralCause) :
    c.report cause =
      (note functions c.issues [.problem cause]).map fun issues => { c with issues := issues } := by
  rw [Scan.report]
  cases c.issues with
  | none => rfl
  | some is =>
    refine collect_eq (f := .problem cause) rfl (fun r hr => ?_) c is
    rw [issue_eq hr, Finding.issue?]

theorem reportIf_eq (functions : Option Registry) (c : Scan) (b : Bool) (cause : StructuralCause) :
    c.reportIf b cause =
      (note functions c.issues (problemIf b cause)).map fun issues => { c with issues := issues } := by
  cases b with
  | true => exact report_eq functions c cause
  | false =>
    rw [problemIf_false, note_nil]
    rfl

/-- A call that is checked is noted down. -/
theorem checkCall_eq (functions : Option Registry) (c : Scan) (f : Token) (count : Nat) :
    c.checkCall functions f count =
      (note functions c.issues [.call f.value count f.position]).map fun issues =>
        { c with issues := issues } := by
  cases c with
  | mk output stack frames due previous issues =>
    cases issues with
    | none => rfl
    | some is =>
      cases hcheck : functions.bind fun r => r.checkCall f.value count with
      | none =>
        have hissue : Finding.issue? functions (.call f.value count f.position) = none := by
          cases functions with
          | none => rfl
          | some r =>
            rw [Option.bind_some] at hcheck
            rw [Finding.issue?, hcheck]
            rfl
        simp only [Scan.checkCall, hcheck, note, firstUntold?, List.findSome?_cons, Finding.untold?,
          Finding.failure?, Option.filter_none, List.findSome?_nil, List.filterMap_cons, hissue,
          List.filterMap_nil, List.append_nil, map_ok]
      | some failure =>
        simp only [Scan.checkCall, hcheck]
        refine collect_eq (f := .call f.value count f.position) hcheck (fun r hr => ?_) _ is
        obtain ⟨registry, rfl, hfound⟩ := Option.bind_eq_some_iff.mp hcheck
        rw [Finding.issue?, hfound, Option.bind_some, hr]
        rfl

end

/-! ## States -/

/-- What waits, laid out on the stack. -/
def flatten : List Pending → List Token
  | [] => []
  | .operator t :: rest => t :: flatten rest
  | .paren t call _ :: rest => t :: (call.toList ++ flatten rest)

/-- The frames of the open parentheses. -/
def framesOf : List Pending → List Frame
  | [] => []
  | .operator _ :: rest => framesOf rest
  | .paren t call commas :: rest => ⟨t, call.isSome, commas⟩ :: framesOf rest

/-- Operators wait as operators, parentheses as parentheses, and calls are calls of functions. -/
def Pending.WellKinded : Pending → Prop
  | .operator t => t.kind = .operator
  | .paren t call _ => t.kind = .leftParen ∧ ∀ f, call = some f → f.kind = .function

/-- Everything that waits is of its kind. -/
def WellKinded (pending : List Pending) : Prop := ∀ p ∈ pending, p.WellKinded

/-- A state of the run on two stacks, with some tokens on top. -/
def lift (s : State) (top : List Token) (issues : Option (List Issue)) : Scan :=
  ⟨s.output, top ++ flatten s.pending, framesOf s.pending, s.operandDue, s.previous, issues⟩

/-- The function name that waits for the left parenthesis behind it. -/
def lead (s : State) (next : Option Token) : List Token :=
  if next.any (·.kind = .leftParen) then (s.previous.filter (·.kind = .function)).toList else []

/-- The state of the scan for a state of the run in front of a token. -/
def toScan (s : State) (issues : Option (List Issue)) (next : Option Token) : Scan :=
  lift s (lead s next) issues

theorem wellKinded_nil : WellKinded [] := fun _ h => absurd h List.not_mem_nil

theorem wellKinded_cons {p : Pending} {rest : List Pending} :
    WellKinded (p :: rest) ↔ p.WellKinded ∧ WellKinded rest :=
  List.forall_mem_cons

theorem length_framesOf (pending : List Pending) : (framesOf pending).length = depth pending := by
  induction pending with
  | nil => rfl
  | cons p rest ih =>
    cases p with
    | operator t => exact ih
    | paren t call commas => rw [framesOf, depth, List.length_cons, ih]

/-- Operators leave the two stacks as they leave what waits. -/
theorem unwind_flatten {pending : List Pending} (kinds : WellKinded pending) (out : List Token) :
    Scan.unwind out (flatten pending) =
      ((release out pending).1, flatten (release out pending).2) := by
  induction pending generalizing out with
  | nil => rfl
  | cons p rest ih =>
    obtain ⟨hp, hrest⟩ := wellKinded_cons.mp kinds
    cases p with
    | operator t =>
      -- the stack knows an operator from a parenthesis by its kind alone
      have hk : t.kind ≠ .leftParen := by
        rw [show t.kind = .operator from hp]
        decide
      rw [flatten, Scan.unwind, if_neg hk, ih hrest, release]
    | paren t call commas =>
      rw [flatten, Scan.unwind, if_pos hp.1]
      rfl

/-- The same holds for the operators that bind before a new one. -/
theorem unwindStronger_flatten {ops : Operators} {o : Operator} {pending : List Pending}
    (kinds : WellKinded pending) (out : List Token) :
    Scan.unwindStronger ops o out (flatten pending) =
      ((releaseStronger ops o out pending).1, flatten (releaseStronger ops o out pending).2) := by
  induction pending generalizing out with
  | nil => rfl
  | cons p rest ih =>
    obtain ⟨hp, hrest⟩ := wellKinded_cons.mp kinds
    cases p with
    | operator t =>
      rw [flatten, Scan.unwindStronger, if_pos (show t.kind = .operator from hp), releaseStronger]
      cases ops.find? t.value with
      | none => rfl
      | some top =>
        simp only
        split
        · exact ih hrest (t :: out)
        · rfl
    | paren t call commas =>
      have hk : t.kind ≠ .operator := by
        rw [hp.1]
        decide
      rw [flatten, Scan.unwindStronger, if_neg hk]
      rfl

/-- The innermost frame is that of the parenthesis that the operators leave off at. -/
theorem framesOf_release (out : List Token) (pending : List Pending) :
    framesOf (release out pending).2 = framesOf pending := by
  induction pending generalizing out with
  | nil => rfl
  | cons p rest ih =>
    cases p with
    | operator t => exact ih (t :: out)
    | paren t call commas => rfl

theorem framesOf_releaseStronger {ops : Operators} (o : Operator) (out : List Token)
    (pending : List Pending) : framesOf (releaseStronger ops o out pending).2 = framesOf pending := by
  induction pending generalizing out with
  | nil => rfl
  | cons p rest ih =>
    cases p with
    | paren t call commas => rfl
    | operator t =>
      rw [releaseStronger]
      split
      · split
        · exact ih (t :: out)
        · rfl
      · rfl

/-- Operators leave until nothing waits or a parenthesis does. -/
theorem release_cases (out : List Token) (pending : List Pending) :
    (release out pending).2 = [] ∨
      ∃ p call commas rest, (release out pending).2 = .paren p call commas :: rest := by
  induction pending generalizing out with
  | nil => exact Or.inl rfl
  | cons p rest ih =>
    cases p with
    | operator t => exact ih (t :: out)
    | paren t call commas => exact Or.inr ⟨t, call, commas, rest, rfl⟩

theorem WellKinded.of_suffix {pending rest : List Pending} (kinds : WellKinded pending)
    (h : rest <:+ pending) : WellKinded rest := fun p hp => kinds p (h.mem hp)

/-! ## Steps -/

section

variable {functions : Option Registry} {s : State} {t : Token} {issues : Option (List Issue)}

@[simp] theorem lift_output (top : List Token) : (lift s top issues).output = s.output := rfl

@[simp] theorem lift_stack (top : List Token) :
    (lift s top issues).stack = top ++ flatten s.pending := rfl

@[simp] theorem lift_frames (top : List Token) : (lift s top issues).frames = framesOf s.pending := rfl

@[simp] theorem lift_operandDue (top : List Token) : (lift s top issues).operandDue = s.operandDue := rfl

@[simp] theorem lift_previous (top : List Token) : (lift s top issues).previous = s.previous := rfl

@[simp] theorem lift_follows (top : List Token) (kind : TokenKind) :
    (lift s top issues).follows kind = s.follows kind := rfl

theorem report_lift (functions : Option Registry) (top : List Token) (cause : StructuralCause) :
    (lift s top issues).report cause =
      (note functions issues [.problem cause]).map fun issues => lift s top issues :=
  report_eq functions _ cause

theorem reportIf_lift (functions : Option Registry) (top : List Token) (b : Bool) (cause : StructuralCause) :
    (lift s top issues).reportIf b cause =
      (note functions issues (problemIf b cause)).map fun issues => lift s top issues :=
  reportIf_eq functions _ b cause

theorem onOperand_eq :
    (lift s [] issues).onOperand t =
      (note functions issues (onOperand s t).1).map fun issues => lift (onOperand s t).2 [] issues := by
  simp only [Scan.onOperand, lift_operandDue, reportIf_lift functions, onOperand]
  cases note functions issues (problemIf (!s.operandDue) (.missingOperator t.value t.position)) <;> rfl

theorem onFunction_eq {next : Option Token} :
    (lift s [] issues).onFunction t next =
      (note functions issues (onFunction s t next).1).map fun issues =>
        lift (onFunction s t next).2 (if next.any (·.kind = .leftParen) then [t] else []) issues := by
  simp only [Scan.onFunction, lift_operandDue, reportIf_lift functions, onFunction,
    note_append]
  cases note functions issues (problemIf (!s.operandDue) (.missingOperator t.value t.position)) with
  | error halt => rfl
  | ok issues =>
    cases hopens : next.any (fun p => decide (p.kind = .leftParen)) with
    | true =>
      simp only [ok_bind, map_ok, if_true, Bool.not_true, problemIf_false, note_nil]
      rfl
    | false =>
      simp only [ok_bind, map_ok, report_lift functions, Bool.not_false, problemIf_true,
        Bool.false_eq_true, if_false]
      cases note functions issues [.problem (.missingParenthesis t.value t.position)] <;> rfl

theorem onLeftParen_eq (maxDepth : Int) :
    (lift s (s.previous.filter (·.kind = .function)).toList issues).onLeftParen maxDepth t =
      (note functions issues (onLeftParen maxDepth s t).1).map fun issues =>
        lift (onLeftParen maxDepth s t).2 [] issues := by
  simp only [Scan.onLeftParen, lift_operandDue, reportIf_lift functions, onLeftParen,
    note_append]
  cases note functions issues (problemIf (!s.operandDue) (.missingOperator "(" t.position)) with
  | error halt => rfl
  | ok issues =>
    simp only [map_ok, ok_bind, reportIf_lift functions, lift_frames, length_framesOf]
    cases note functions issues (problemIf (maxDepth ≤ depth s.pending) (.tooDeep maxDepth t.position)) with
    | error halt => rfl
    | ok issues =>
      -- a function name in front of the parenthesis is found on top of the stack
      cases s with
      | mk output pending due previous =>
        cases previous with
        | none => rfl
        | some f =>
          by_cases hf : f.kind = .function
          · simp [lift, flatten, framesOf, Scan.follows, hf]
          · simp [lift, flatten, framesOf, Scan.follows, hf]

/-- What closing a group does. -/
theorem close_group {c : Scan} {p : Token} {commas : Nat} {out below : List Token} {emptyCall : Bool}
    (h : Scan.unwind c.output c.stack = (out, p :: below)) :
    c.close functions ⟨p, false, commas⟩ emptyCall =
      .ok { c with output := out, stack := below, operandDue := false } := by
  simp only [Scan.close, h, Scan.pop, ok_bind, Bool.false_eq_true, if_false, pure_eq_ok]

/-- What closing a call does. -/
theorem close_call {c : Scan} {p f : Token} {commas : Nat} {out below : List Token} {emptyCall : Bool}
    (h : Scan.unwind c.output c.stack = (out, p :: f :: below)) :
    c.close functions ⟨p, true, commas⟩ emptyCall =
      (note functions c.issues [.call f.value (if emptyCall then 0 else commas + 1) f.position]).map
        fun issues => { c with
          output := { f with argumentCount := some ((if emptyCall then 0 else commas + 1 : Nat) : Int) } :: out
          stack := below
          operandDue := false
          issues := issues } := by
  simp only [Scan.close, h, Scan.pop, ok_bind, if_true, checkCall_eq]
  cases note functions c.issues [.call f.value (if emptyCall then 0 else commas + 1) f.position] <;> rfl

theorem onRightParen_eq (kinds : WellKinded s.pending) :
    (lift s [] issues).onRightParen functions t =
      (note functions issues (onRightParen s t).1).map fun issues => lift (onRightParen s t).2 [] issues := by
  have hframes := framesOf_release s.output s.pending
  have hunwind := unwind_flatten kinds s.output
  unfold onRightParen Scan.onRightParen
  cases hrelease : release s.output s.pending with
  | mk out left =>
  rw [hrelease] at hframes hunwind
  rcases release_cases s.output s.pending with hleft | ⟨p, call, commas, rest, hleft⟩
  · -- without an open parenthesis there is no frame
    rw [hrelease] at hleft
    cases hleft
    simp only [lift_frames, ← hframes, framesOf]
    exact report_lift functions [] _
  · rw [hrelease] at hleft
    cases hleft
    simp only [lift_frames, ← hframes, framesOf, reportIf_eq functions, lift_follows,
      lift_operandDue]
    cases call with
    | none =>
      simp only [Option.isSome_none, Bool.false_and, Bool.not_false, Bool.and_true]
      show Except.bind (Except.map _ (note functions issues (problemIf s.operandDue (missingBeforeRight s t)))) _ = _
      cases note functions issues (problemIf s.operandDue (missingBeforeRight s t)) with
      | error halt => rfl
      | ok issues => exact close_group hunwind
    | some f =>
      simp only [Option.isSome_some, Bool.true_and, note_append]
      show Except.bind (Except.map _ (note functions issues
        (problemIf (s.operandDue && !s.follows .leftParen) (missingBeforeRight s t)))) _ = _
      cases note functions issues
        (problemIf (s.operandDue && !s.follows .leftParen) (missingBeforeRight s t)) with
      | error halt => rfl
      | ok issues => exact close_call hunwind

theorem onComma_eq (kinds : WellKinded s.pending) :
    (lift s [] issues).onComma t =
      (note functions issues (onComma s t).1).map fun issues => lift (onComma s t).2 [] issues := by
  have hframes := framesOf_release s.output s.pending
  have hunwind := unwind_flatten kinds s.output
  unfold onComma Scan.onComma
  cases hrelease : release s.output s.pending with
  | mk out left =>
  rw [hrelease] at hframes hunwind
  rcases release_cases s.output s.pending with hleft | ⟨p, call, commas, rest, hleft⟩
  · rw [hrelease] at hleft
    cases hleft
    simp only [lift_frames, ← hframes, framesOf]
    exact report_lift functions [] _
  · rw [hrelease] at hleft
    cases hleft
    cases call with
    | none =>
      simp only [lift_frames, ← hframes, framesOf, Option.isSome_none]
      exact report_lift functions [] _
    | some f =>
      simp only [lift_frames, ← hframes, framesOf, Option.isSome_some,
        reportIf_lift functions, lift_operandDue]
      cases note functions issues (problemIf s.operandDue (.emptyArgument t.position)) with
      | error halt => rfl
      | ok issues =>
        simp only [map_ok, ok_bind, lift_output, lift_stack, List.nil_append, hunwind]
        rfl

theorem onPrefix_eq {ops : Operators} :
    (lift s [] issues).onPrefix ops t =
      (note functions issues (onPrefix ops s t).1).map fun issues => lift (onPrefix ops s t).2 [] issues := by
  unfold Scan.onPrefix onPrefix
  cases ops.unary? t.value with
  | some o =>
    rw [note_nil]
    rfl
  | none => exact report_lift functions [] _

theorem onBinary_eq {ops : Operators} (kinds : WellKinded s.pending) :
    (lift s [] issues).onBinary ops t =
      (note functions issues (onBinary ops s t).1).map fun issues => lift (onBinary ops s t).2 [] issues := by
  unfold Scan.onBinary onBinary
  cases ops.binary? t.value with
  | some incoming =>
    simp only [lift_stack, lift_output, List.nil_append, unwindStronger_flatten kinds]
    rw [note_nil]
    simp only [map_ok, pure_eq_ok, lift, flatten, framesOf, framesOf_releaseStronger, List.nil_append]
  | none =>
    simp only [report_lift functions]
    cases note functions issues [.problem (.notBinary t.value t.position)] <;> rfl

end

/-- A step keeps everything that waits of its kind. -/
theorem wellKinded_step {ops : Operators} {maxDepth : Int} {s : State} {t : Token} {next : Option Token}
    (kinds : WellKinded s.pending) : WellKinded (step ops maxDepth s t next).2.pending :=
  forall_pending_step (fun _ hp => hp) (fun ht _ => ht)
    (fun ht => ⟨ht, fun _ hf => of_decide_eq_true (Option.mem_filter_iff.mp hf).2⟩) (fun _ _ _ hp => hp) kinds

/-- Only in front of a left parenthesis a function name waits for one. -/
theorem lead_of_kind {s : State} {t : Token} (h : t.kind ≠ .leftParen) : lead s (some t) = [] := by
  rw [lead, Option.any_some, if_neg]
  exact fun hk => h (of_decide_eq_true hk)

theorem lead_of_leftParen {s : State} {t : Token} (h : t.kind = .leftParen) :
    lead s (some t) = (s.previous.filter (·.kind = .function)).toList := by
  rw [lead, Option.any_some, if_pos (decide_eq_true h)]

/-- Only behind a function name a function name waits. -/
theorem lead_advance {s : State} {t : Token} {next : Option Token} (h : t.kind ≠ .function) :
    lead { s with previous := some t } next = [] := by
  have hnone : (some t).filter (fun f => decide (f.kind = .function)) = none := by
    rw [Option.filter_some, if_neg]
    exact fun hk => h (of_decide_eq_true hk)
  rw [lead, hnone]
  exact ite_self _

theorem lead_advance_function {s : State} {t : Token} {next : Option Token} (h : t.kind = .function) :
    lead { s with previous := some t } next = if next.any (·.kind = .leftParen) then [t] else [] := by
  have hsome : (some t).filter (fun f => decide (f.kind = .function)) = some t := by
    rw [Option.filter_some, if_pos (decide_eq_true h)]
  rw [lead, hsome]
  rfl

/-- **A step of the scan is a step of the run.** -/
theorem advance_eq {v : Vocabulary} {maxDepth : Int} {s : State} {t : Token} {next : Option Token}
    {issues : Option (List Issue)} (kinds : WellKinded s.pending) :
    (toScan s issues (some t)).advance v maxDepth t next =
      (note v.functions issues (step v.operators maxDepth s t next).1).map fun issues =>
        toScan { (step v.operators maxDepth s t next).2 with previous := some t } issues next := by
  -- the step on the stacks, and what lies on top of them behind the token
  have hstep : (toScan s issues (some t)).step v maxDepth t next =
      (note v.functions issues (step v.operators maxDepth s t next).1).map fun issues =>
        lift (step v.operators maxDepth s t next).2
          (lead { (step v.operators maxDepth s t next).2 with previous := some t } next) issues := by
    unfold toScan
    cases hk : t.kind with
    | function =>
      rw [lead_of_kind (by rw [hk]; decide), lead_advance_function hk]
      simp only [Scan.step, step, hk]
      exact onFunction_eq
    | leftParen =>
      rw [lead_of_leftParen hk, lead_advance (by rw [hk]; decide)]
      simp only [Scan.step, step, hk]
      exact onLeftParen_eq maxDepth
    | rightParen =>
      rw [lead_of_kind (by rw [hk]; decide), lead_advance (by rw [hk]; decide)]
      simp only [Scan.step, step, hk]
      exact onRightParen_eq kinds
    | comma =>
      rw [lead_of_kind (by rw [hk]; decide), lead_advance (by rw [hk]; decide)]
      simp only [Scan.step, step, hk]
      exact onComma_eq kinds
    | operator =>
      rw [lead_of_kind (by rw [hk]; decide), lead_advance (by rw [hk]; decide)]
      simp only [Scan.step, step, hk]
      by_cases due : s.operandDue = true
      · rw [if_pos due, if_pos (show (lift s [] issues).operandDue = true from due)]
        exact onPrefix_eq
      · rw [if_neg due, if_neg (show ¬ (lift s [] issues).operandDue = true from due)]
        exact onBinary_eq kinds
    | _ =>
      rw [lead_of_kind (by rw [hk]; decide), lead_advance (by rw [hk]; decide)]
      simp only [Scan.step, step, hk]
      exact onOperand_eq
  rw [Scan.advance, hstep]
  cases note v.functions issues (step v.operators maxDepth s t next).1 <;> rfl

/-! ## Runs -/

variable {v : Vocabulary} {maxDepth : Int}

/-- Behind the last token only what waits lies on the stack. -/
theorem lead_of_finish {s : State} {e : Token} (he : e.isFinish = true) : lead s (some e) = [] := by
  have hk : e.kind = .finish := of_decide_eq_true he
  exact lead_of_kind (by rw [hk]; decide)

/-- What a scan leaves: the issues, and the tokens in postfix order. -/
def result (c : Scan) : Option (List Issue) × List Token := (c.issues, c.output.reverse)

/-- What a scan does with what a run finds, and the tokens of the run. -/
def noted (functions : Option Registry) (issues : Option (List Issue)) (r : List Finding × List Token) :
    Except Halt (Option (List Issue) × List Token) :=
  (note functions issues r.1).map fun issues => (issues, r.2)

/-- With more found before. -/
theorem noted_append (functions : Option Registry) (issues : Option (List Issue)) (found : List Finding)
    (r : List Finding × List Token) :
    noted functions issues (found ++ r.1, r.2) =
      note functions issues found >>= fun issues => noted functions issues r := by
  rw [noted, note_append]
  cases note functions issues found <;> rfl

/-- What waits at the end goes the same way. -/
theorem drain_eq {functions : Option Registry} {pending : List Pending} (kinds : WellKinded pending) :
    ∀ {c : Scan}, (c.drain (flatten pending)).map result =
      noted functions c.issues (finish c.output pending) := by
  induction pending with
  | nil =>
    intro c
    rw [flatten, Scan.drain, finish, noted, note_nil]
    rfl
  | cons p rest ih =>
    intro c
    obtain ⟨hp, hrest⟩ := wellKinded_cons.mp kinds
    cases p with
    | operator t =>
      have ht : t.kind = .operator := hp
      rw [flatten, Scan.drain, if_neg (by rw [ht]; decide), if_pos ht, ih hrest, finish]
    | paren t call commas =>
      -- the name of the function is dropped
      have hcall : ∀ c : Scan, c.drain (call.toList ++ flatten rest) = c.drain (flatten rest) := by
        intro c
        cases call with
        | none => rfl
        | some f =>
          have hf : f.kind = .function := hp.2 f rfl
          rw [Option.toList_some, List.singleton_append, Scan.drain, if_neg (by rw [hf]; decide),
            if_neg (by rw [hf]; decide)]
      rw [flatten, Scan.drain, if_pos hp.1, report_eq functions, finish]
      show _ = noted functions c.issues ([.problem (.unmatchedLeft t.position)] ++ (finish c.output rest).1, _)
      rw [noted_append]
      cases note functions c.issues [.problem (.unmatchedLeft t.position)] with
      | error halt => rfl
      | ok issues =>
        simp only [map_ok, ok_bind, hcall]
        exact ih hrest

/-- **The scan over tokens finds what the run finds.** -/
theorem loop_eq (ts : List Token) : ∀ {s : State} {issues : Option (List Issue)}, WellKinded s.pending →
    ((toScan s issues ts.head?).loop v maxDepth ts >>= fun c => c.drain c.stack).map result =
      noted v.functions issues (runFrom v.operators maxDepth s ts) := by
  induction ts with
  | nil =>
    intro s issues kinds
    exact drain_eq (c := lift s [] issues) kinds
  | cons t ts ih =>
    intro s issues kinds
    rw [Scan.loop, runFrom]
    by_cases ht : t.isFinish = true
    · rw [if_pos ht, if_pos ht, List.head?_cons, toScan, lead_of_finish ht, Scan.onFinish,
        reportIf_lift v.functions]
      show _ = noted v.functions issues (onFinish s t ++ (finish s.output s.pending).1, _)
      rw [noted_append]
      show ((note v.functions issues (onFinish s t)).map _ >>= _).map result = _
      cases note v.functions issues (onFinish s t) with
      | error halt => rfl
      | ok issues => exact drain_eq (c := lift s [] issues) kinds
    · -- the state behind the token is laid out for the next one, as the induction hypothesis asks
      rw [if_neg ht, if_neg ht, List.head?_cons, advance_eq kinds]
      show _ = noted v.functions issues ((step v.operators maxDepth s t ts.head?).1 ++
        (runFrom v.operators maxDepth _ ts).1, _)
      rw [noted_append]
      cases note v.functions issues (step v.operators maxDepth s t ts.head?).1 with
      | error halt => rfl
      | ok issues => exact ih (wellKinded_step kinds)

theorem toScan_initial (issues : Option (List Issue)) (next : Option Token) :
    toScan .initial issues next = Scan.start issues := by
  rw [toScan, lead, show State.initial.previous = none from rfl, Option.filter_none, Option.toList_none,
    ite_self]
  rfl

theorem run_eq (v : Vocabulary) (maxDepth : Int) (issues : Option (List Issue)) (ts : List Token) :
    (Scan.run v maxDepth issues ts).map result =
      noted v.functions issues (run v.operators maxDepth ts) := by
  rw [Scan.run, run]
  by_cases h : ts.head?.all (·.isFinish) = true
  · rw [if_pos h, if_pos h, report_eq v.functions]
    show ((note v.functions issues [.problem .empty]).map _).map result = _
    rw [noted]
    cases note v.functions issues [.problem .empty] <;> rfl
  · rw [if_neg h, if_neg h]
    rw [← toScan_initial issues ts.head?]
    exact loop_eq ts (show WellKinded State.initial.pending from wellKinded_nil)

/-- **The check of the scan ends as that of the run does**: nothing is taken from an empty stack. -/
theorem validate_eq (ts : List Token) :
    Scan.validate v maxDepth ts = (validate v maxDepth ts).mapError .raised := by
  -- a scan that collects issues stops at a message that cannot be told, and at no other finding
  have h := run_eq v maxDepth (some []) ts
  rw [noted, note, List.nil_append] at h
  rw [Scan.validate, validate]
  cases huntold : firstUntold? v.functions (run v.operators maxDepth ts).1 with
  | some failure =>
    simp only [huntold, map_error] at h ⊢
    cases hrun : Scan.run v maxDepth (some []) ts with
    | error halt =>
      rw [hrun] at h
      cases h
      rfl
    | ok c =>
      rw [hrun] at h
      cases h
  | none =>
    simp only [huntold, map_ok] at h ⊢
    cases hrun : Scan.run v maxDepth (some []) ts with
    | error halt =>
      rw [hrun] at h
      cases h
    | ok c =>
      rw [hrun, map_ok, Except.ok.injEq, result, Prod.mk.injEq] at h
      rw [map_ok, h.1]
      rfl

/-- The conversion of the scan fails as that of the run does. -/
theorem parse_eq (ts : List Token) :
    Scan.parse v maxDepth ts = (ofTokens v.operators maxDepth ts).mapError fun cause => .raised cause.failure := by
  -- a scan that raises problems stops at the first one
  have h := run_eq v maxDepth none ts
  rw [noted, note] at h
  rw [Scan.parse, ofTokens]
  cases hproblem : firstProblem? (run v.operators maxDepth ts).1 with
  | some cause =>
    simp only [hproblem, map_error] at h ⊢
    cases hrun : Scan.run v maxDepth none ts with
    | error halt =>
      rw [hrun] at h
      cases h
      rfl
    | ok c =>
      rw [hrun] at h
      cases h
  | none =>
    simp only [hproblem, map_ok] at h ⊢
    cases hrun : Scan.run v maxDepth none ts with
    | error halt =>
      rw [hrun] at h
      cases h
    | ok c =>
      rw [hrun, map_ok, Except.ok.injEq, result, Prod.mk.injEq] at h
      rw [map_ok, h.2]
      rfl

end SciCalc.Postfix
