/-
  Rearranging without problems.

  1. **Findings** — a run ends well if nothing found is a problem (`Faultless`).

  2. **Passing** (`Passes`) — the steps over some tokens find no problem; `Completes` says that they reach
     the end with everything complete.  `ofTokens_eq_ok_iff` ties this to the conversion.

  3. **Steps** — what one step does to a state, one lemma for each kind of token, for the states in which it
     finds no problem; and which states these are.

  4. **Depth** (`opensWithin_step`) — the open parentheses that wait are those that are open in the text.
-/
import SciCalc.Postfix.Basic
import SciCalc.Proofs.Attempt
import SciCalc.Proofs.Operator.Ranking
import SciCalc.Proofs.Postfix.Climbing

namespace SciCalc

namespace Postfix

open Tree

/-! ## Findings -/

/-- Nothing found is a problem. -/
def Faultless (found : List Finding) : Prop := firstProblem? found = none

@[simp] theorem faultless_nil : Faultless [] := rfl

@[simp] theorem faultless_append {found more : List Finding} :
    Faultless (found ++ more) ↔ Faultless found ∧ Faultless more := by
  unfold Faultless firstProblem?
  rw [List.findSome?_append, Option.or_eq_none_iff]

@[simp] theorem faultless_call (name : String) (count : Nat) (position : Int) :
    Faultless [.call name count position] := rfl

@[simp] theorem not_faultless_problem (cause : StructuralCause) (found : List Finding) :
    ¬ Faultless (.problem cause :: found) := by
  intro h
  cases h

@[simp] theorem faultless_problemIf {b : Bool} {cause : StructuralCause} :
    Faultless (problemIf b cause) ↔ b = false := by
  cases b with
  | true => exact iff_of_false (not_faultless_problem cause []) (by decide)
  | false => exact iff_of_true rfl rfl

/-! ## Passing -/

variable {ops : Operators} {d : Int}

/-- The state behind a token. -/
def advance (ops : Operators) (d : Int) (s : State) (t : Token) (next : Option Token) : State :=
  { (step ops d s t next).2 with previous := some t }

/-- The steps from a state in front of some tokens to a state in front of the rest find no problem. -/
inductive Passes (ops : Operators) (d : Int) : State → List Token → State → List Token → Prop where
  | refl {s ts} : Passes ops d s ts s ts
  | step {s t ts s' rest} : Faultless (step ops d s t ts.head?).1 →
      Passes ops d (advance ops d s t ts.head?) ts s' rest → Passes ops d s (t :: ts) s' rest

theorem Passes.trans {s s' s'' : State} {ts us vs : List Token} (h : Passes ops d s ts s' us)
    (h' : Passes ops d s' us s'' vs) : Passes ops d s ts s'' vs := by
  induction h with
  | refl => exact h'
  | step faultless _ ih => exact .step faultless (ih h')

/-- A single step. -/
theorem Passes.single {s s' : State} {t : Token} {ts : List Token} (found : List Finding)
    (h : Postfix.step ops d s t ts.head? = (found, { s' with previous := s.previous }))
    (faultless : Faultless found) (previous : s'.previous = some t) : Passes ops d s (t :: ts) s' ts := by
  have hadvance : advance ops d s t ts.head? = s' := by
    rw [advance, h, ← previous]
  refine .step ?_ ?_
  · rw [h]
    exact faultless
  · rw [hadvance]
    exact .refl

/-- The steps over all tokens find no problem and leave a complete expression, which is `out` in postfix
    order. -/
def Completes (ops : Operators) (d : Int) (s : State) (ts : List Token) (out : List Token) : Prop :=
  ∃ s', Passes ops d s ts s' [] ∧ s'.operandDue = false ∧ finish s'.output s'.pending = ([], out)

theorem completes_nil {s : State} {out : List Token} :
    Completes ops d s [] out ↔ s.operandDue = false ∧ finish s.output s.pending = ([], out) := by
  constructor
  · rintro ⟨s', passes, done, hfinish⟩
    cases passes
    exact ⟨done, hfinish⟩
  · intro ⟨done, hfinish⟩
    exact ⟨s, .refl, done, hfinish⟩

theorem completes_cons {s : State} {t : Token} {ts out : List Token} :
    Completes ops d s (t :: ts) out ↔
      Faultless (step ops d s t ts.head?).1 ∧ Completes ops d (advance ops d s t ts.head?) ts out := by
  constructor
  · rintro ⟨s', passes, done, hfinish⟩
    cases passes with
    | step faultless passes => exact ⟨faultless, s', passes, done, hfinish⟩
  · intro ⟨faultless, s', passes, done, hfinish⟩
    exact ⟨s', .step faultless passes, done, hfinish⟩

/-- What completes an expression goes on to do so after some steps. -/
theorem Completes.of_passes {s s' : State} {ts rest out : List Token} (passes : Passes ops d s ts s' rest)
    (h : Completes ops d s ts out) : Completes ops d s' rest out := by
  induction passes with
  | refl => exact h
  | step _ _ ih => exact ih (completes_cons.mp h).2

/-! ## The conversion -/

/-- What is found at the end are problems. -/
theorem faultless_finish {out : List Token} {pending : List Pending} :
    Faultless (finish out pending).1 ↔ (finish out pending).1 = [] := by
  induction pending generalizing out with
  | nil => exact iff_of_true rfl rfl
  | cons p rest ih =>
    cases p with
    | operator t => exact ih
    | paren t call commas => exact iff_of_false (not_faultless_problem _ _) (List.cons_ne_nil _ _)

/-- The conversion gives the tokens of a run that finds no problem. -/
theorem ofTokens_eq_ok {ts out : List Token} :
    ofTokens ops d ts = .ok out ↔ Faultless (run ops d ts).1 ∧ (run ops d ts).2 = out := by
  unfold ofTokens Faultless
  cases run ops d ts with
  | mk found tokens =>
    cases h : firstProblem? found with
    | some cause =>
      refine iff_of_false (fun e => ?_) (fun e => ?_)
      · simp only [h] at e
        cases e
      · cases e.1
    | none => simp only [h, Except.ok.injEq, true_and]

/-- The end of the expression opens no call. -/
theorem step_head?_append {s : State} {t e : Token} {ts : List Token} (he : e.isFinish = true) :
    step ops d s t (ts ++ [e]).head? = step ops d s t ts.head? := by
  cases ts with
  | cons u us => rfl
  | nil =>
    have hk : e.kind = .finish := of_decide_eq_true he
    have hnext : [e].head?.any (fun p => decide (p.kind = .leftParen)) = false := by
      simp [hk]
    unfold step
    split
    · unfold onFunction
      simp only [List.nil_append, hnext]
      rfl
    all_goals rfl

/-- A run to the end finds no problem exactly if the expression is complete. -/
theorem runFrom_iff_completes {e : Token} (he : e.isFinish = true) {out : List Token} :
    ∀ {ts : List Token} {s : State}, (∀ t ∈ ts, t.isFinish = false) →
      ((Faultless (runFrom ops d s (ts ++ [e])).1 ∧ (runFrom ops d s (ts ++ [e])).2 = out) ↔
        Completes ops d s ts out) := by
  intro ts
  induction ts with
  | nil =>
    intro s _
    rw [completes_nil, List.nil_append, runFrom, if_pos he]
    simp only [faultless_append, onFinish, faultless_problemIf, faultless_finish]
    rw [and_assoc, Prod.ext_iff]
  | cons t ts ih =>
    intro s body
    have ht := body t List.mem_cons_self
    rw [completes_cons, ← ih fun u hu => body u (List.mem_cons_of_mem t hu), List.cons_append, runFrom,
      if_neg (by rw [ht]; decide), step_head?_append he]
    simp only [faultless_append, and_assoc]
    rfl

/-- **The conversion gives tokens exactly if the expression in front of the end is complete.** -/
theorem ofTokens_eq_ok_iff {ts : List Token} {e : Token} (he : e.isFinish = true)
    (body : ∀ t ∈ ts, t.isFinish = false) {out : List Token} :
    ofTokens ops d (ts ++ [e]) = .ok out ↔ Completes ops d .initial ts out := by
  rw [ofTokens_eq_ok]
  cases ts with
  | nil =>
    rw [completes_nil]
    refine iff_of_false (fun h => ?_) (fun h => absurd h.1 (by decide))
    rw [run, List.nil_append, List.head?_cons, Option.all_some, if_pos he] at h
    exact not_faultless_problem _ _ h.1
  | cons t ts =>
    have hrun : run ops d (t :: ts ++ [e]) = runFrom ops d .initial (t :: ts ++ [e]) := by
      rw [run, List.cons_append, List.head?_cons, Option.all_some, if_neg]
      rw [body t List.mem_cons_self]
      decide
    rw [hrun]
    exact runFrom_iff_completes he body

/-! ## Leaving -/

/-- A waiting operator leaves before a new one. -/
def Yields (ops : Operators) (incoming : Operator) (w : Token) : Prop :=
  ∃ top, ops.find? w.value = some top ∧ bindsFirst top incoming = true

/-- The innermost thing that waits stays before every binary operator that binds so strongly. -/
def Guarded (ops : Operators) (least : Int) : List Pending → Prop
  | .operator w :: _ => ∀ key o, ops.binary? key = some o → least ≤ o.precedence → ¬ Yields ops o w
  | _ => True

/-- The operators inside a parenthesis leave. -/
theorem release_paren (out : List Token) (ws : List Token) (p : Token) (call : Option Token)
    (commas : Nat) (rest : List Pending) :
    release out (ws.map .operator ++ .paren p call commas :: rest) =
      (ws.reverse ++ out, .paren p call commas :: rest) := by
  induction ws generalizing out with
  | nil => rfl
  | cons w ws ih =>
    rw [List.map_cons, List.cons_append, release, ih, List.reverse_cons, List.append_assoc,
      List.singleton_append]

/-- Without a parenthesis all operators leave. -/
theorem release_operators (out : List Token) (ws : List Token) :
    release out (ws.map .operator) = (ws.reverse ++ out, []) := by
  induction ws generalizing out with
  | nil => rfl
  | cons w ws ih =>
    rw [List.map_cons, release, ih, List.reverse_cons, List.append_assoc, List.singleton_append]

/-- Nothing leaves before an operator that what waits is guarded against. -/
theorem releaseStronger_guarded {least : Int} {key : String} {o : Operator} {pending : List Pending}
    (ho : ops.binary? key = some o) (hle : least ≤ o.precedence) (guarded : Guarded ops least pending)
    (out : List Token) : releaseStronger ops o out pending = (out, pending) := by
  cases pending with
  | nil => rfl
  | cons p rest =>
    cases p with
    | paren t call commas => rfl
    | operator w =>
      have hstay := guarded key o ho hle
      rw [releaseStronger]
      cases hw : ops.find? w.value with
      | none => rfl
      | some top =>
        cases hb : bindsFirst top o with
        | true => exact absurd ⟨top, hw, hb⟩ hstay
        | false => simp only [hb, Bool.false_eq_true, if_false]

/-- Operators that yield leave before the operator that they yield to. -/
theorem releaseStronger_yields {o : Operator} {ws : List Token} (yields : ∀ w ∈ ws, Yields ops o w)
    (out : List Token) (base : List Pending) :
    releaseStronger ops o out (ws.map .operator ++ base) =
      releaseStronger ops o (ws.reverse ++ out) base := by
  induction ws generalizing out with
  | nil => rfl
  | cons w ws ih =>
    obtain ⟨top, hw, hb⟩ := yields w List.mem_cons_self
    rw [List.map_cons, List.cons_append, releaseStronger]
    simp only [hw, hb, if_true]
    rw [ih (fun u hu => yields u (List.mem_cons_of_mem w hu)), List.reverse_cons, List.append_assoc,
      List.singleton_append]

/-- At the end all operators leave. -/
theorem finish_operators (out : List Token) (ws : List Token) :
    finish out (ws.map .operator) = ([], (ws.reverse ++ out).reverse) := by
  induction ws generalizing out with
  | nil => rfl
  | cons w ws ih =>
    rw [List.map_cons, finish, ih, List.reverse_cons, List.append_assoc, List.singleton_append]

/-- At the end an open parenthesis is a problem. -/
theorem finish_paren_ne_nil (out : List Token) (ws : List Token) (p : Token) (call : Option Token)
    (commas : Nat) (rest : List Pending) :
    (finish out (ws.map .operator ++ .paren p call commas :: rest)).1 ≠ [] := by
  induction ws generalizing out with
  | nil => exact List.cons_ne_nil _ _
  | cons w ws ih => exact ih (w :: out)

/-! ## Steps that find no problem -/

section

variable {s : State} {t p f w : Token} {ts ws : List Token} {base : List Pending} {commas : Nat}

theorem passes_operand (ht : isOperand t) (due : s.operandDue = true) :
    Passes ops d s (t :: ts) ⟨t :: s.output, s.pending, false, some t⟩ ts := by
  refine .single [] ?_ faultless_nil rfl
  have hstep : step ops d s t ts.head? = onOperand s t := by
    rcases ht with ht | ht | ht <;> simp only [step, ht]
  rw [hstep, onOperand, due]
  rfl

theorem passes_function (hf : f.kind = .function) (hp : p.kind = .leftParen) (due : s.operandDue = true) :
    Passes ops d s (f :: p :: ts) ⟨s.output, s.pending, true, some f⟩ (p :: ts) := by
  refine .single [] ?_ faultless_nil rfl
  simp only [step, hf, onFunction, due, List.head?_cons, Option.any_some, hp]
  rfl

theorem passes_leftParen (hp : p.kind = .leftParen) (due : s.operandDue = true)
    (hd : (depth s.pending : Int) < d) :
    Passes ops d s (p :: ts)
      ⟨s.output, .paren p (s.previous.filter (·.kind = .function)) 0 :: s.pending, true, some p⟩ ts := by
  have hdeep : ¬ d ≤ (depth s.pending : Int) := by omega
  refine .single [] ?_ faultless_nil rfl
  simp only [step, hp, onLeftParen, due, decide_eq_false hdeep]
  rfl

theorem passes_rightParen_group (ht : t.kind = .rightParen) (done : s.operandDue = false)
    (hs : s.pending = ws.map .operator ++ .paren p none commas :: base) :
    Passes ops d s (t :: ts) ⟨ws.reverse ++ s.output, base, false, some t⟩ ts := by
  refine .single [] ?_ faultless_nil rfl
  simp only [step, ht, onRightParen, hs, release_paren, done]
  rfl

theorem passes_rightParen_call (ht : t.kind = .rightParen) (done : s.operandDue = false)
    (closed : s.follows .leftParen = false)
    (hs : s.pending = ws.map .operator ++ .paren p (some f) commas :: base) :
    Passes ops d s (t :: ts)
      ⟨{ f with argumentCount := some ((commas + 1 : Nat) : Int) } :: (ws.reverse ++ s.output), base, false,
        some t⟩ ts := by
  refine .single [.call f.value (commas + 1) f.position] ?_ (faultless_call ..) rfl
  simp only [step, ht, onRightParen, hs, release_paren, done, closed]
  rfl

theorem passes_rightParen_empty (ht : t.kind = .rightParen) (hs : s.pending = .paren p (some f) commas :: base)
    (follows : s.follows .leftParen = true) :
    Passes ops d s (t :: ts)
      ⟨{ f with argumentCount := some 0 } :: s.output, base, false, some t⟩ ts := by
  refine .single [.call f.value 0 f.position] ?_ (faultless_call ..) rfl
  simp only [step, ht, onRightParen, hs, release, follows, problemIf]
  simp

theorem passes_comma (ht : t.kind = .comma) (done : s.operandDue = false)
    (hs : s.pending = ws.map .operator ++ .paren p (some f) commas :: base) :
    Passes ops d s (t :: ts)
      ⟨ws.reverse ++ s.output, .paren p (some f) (commas + 1) :: base, true, some t⟩ ts := by
  refine .single [] ?_ faultless_nil rfl
  simp only [step, ht, onComma, hs, release_paren, done]
  rfl

theorem passes_prefix (ht : t.kind = .operator) (due : s.operandDue = true) {o : Operator}
    (ho : ops.unary? t.value = some o) :
    Passes ops d s (t :: ts)
      ⟨s.output, .operator { t with value := "unary" ++ t.value } :: s.pending, true, some t⟩ ts := by
  refine .single [] ?_ faultless_nil rfl
  simp only [step, ht, due, if_true, onPrefix, ho, ← Operators.key_of_unary? ho]

theorem passes_binary (ht : t.kind = .operator) (done : s.operandDue = false) {o : Operator}
    (ho : ops.binary? t.value = some o) (hs : s.pending = ws.map .operator ++ base)
    (yields : ∀ w ∈ ws, Yields ops o w) {least : Int} (hle : least ≤ o.precedence)
    (guarded : Guarded ops least base) :
    Passes ops d s (t :: ts) ⟨ws.reverse ++ s.output, .operator t :: base, true, some t⟩ ts := by
  refine .single [] ?_ faultless_nil rfl
  simp only [step, ht, done, onBinary, ho, hs, releaseStronger_yields yields,
    releaseStronger_guarded ho hle guarded]
  rfl

end

/-! ## Where a step finds no problem -/

section

variable {s : State} {t : Token} {next : Option Token}

theorem due_of_operand (ht : isOperand t) (h : Faultless (step ops d s t next).1) :
    s.operandDue = true := by
  have hstep : step ops d s t next = onOperand s t := by
    rcases ht with ht | ht | ht <;> simp only [step, ht]
  rw [hstep, onOperand, faultless_problemIf, Bool.not_eq_false'] at h
  exact h

theorem due_of_function (ht : t.kind = .function) (h : Faultless (step ops d s t next).1) :
    s.operandDue = true ∧ ∃ p, next = some p ∧ p.kind = .leftParen := by
  simp only [step, ht, onFunction, faultless_append, faultless_problemIf, Bool.not_eq_false'] at h
  obtain ⟨due, opens⟩ := h
  cases next with
  | none => cases opens
  | some p => exact ⟨due, p, rfl, of_decide_eq_true opens⟩

theorem due_of_leftParen (ht : t.kind = .leftParen) (h : Faultless (step ops d s t next).1) :
    s.operandDue = true ∧ (depth s.pending : Int) < d := by
  simp only [step, ht, onLeftParen, faultless_append, faultless_problemIf, Bool.not_eq_false'] at h
  obtain ⟨due, hd⟩ := h
  have hdeep := of_decide_eq_false hd
  exact ⟨due, by omega⟩

theorem opened_of_rightParen (ht : t.kind = .rightParen) (h : Faultless (step ops d s t next).1) :
    ∃ out p call commas rest, release s.output s.pending = (out, .paren p call commas :: rest) ∧
      (s.operandDue = true → call.isSome = true ∧ s.follows .leftParen = true) := by
  simp only [step, ht, onRightParen] at h
  split at h
  · rename_i out p call commas rest hrelease
    refine ⟨out, p, call, commas, rest, hrelease, fun due => ?_⟩
    cases call with
    | none =>
      rw [due] at h
      cases h
    | some f =>
      have hempty := (faultless_append.mp h).1
      rw [faultless_problemIf, due] at hempty
      simpa using hempty
  · exact absurd h (not_faultless_problem _ _)

theorem called_of_comma (ht : t.kind = .comma) (h : Faultless (step ops d s t next).1) :
    s.operandDue = false ∧
      ∃ out p f commas rest, release s.output s.pending = (out, .paren p (some f) commas :: rest) := by
  simp only [step, ht, onComma] at h
  split at h
  · rename_i out p f commas rest hrelease
    rw [faultless_problemIf] at h
    exact ⟨h, out, p, f, commas, rest, hrelease⟩
  · exact absurd h (not_faultless_problem _ _)

theorem unary_of_operator (ht : t.kind = .operator) (due : s.operandDue = true)
    (h : Faultless (step ops d s t next).1) : ∃ o, ops.unary? t.value = some o := by
  simp only [step, ht, due, if_true, onPrefix] at h
  split at h
  · rename_i o ho
    exact ⟨o, ho⟩
  · exact absurd h (not_faultless_problem _ _)

theorem binary_of_operator (ht : t.kind = .operator) (done : s.operandDue = false)
    (h : Faultless (step ops d s t next).1) : ∃ o, ops.binary? t.value = some o := by
  simp only [step, ht, done, Bool.false_eq_true, if_false, onBinary] at h
  split at h
  · rename_i o ho
    exact ⟨o, ho⟩
  · exact absurd h (not_faultless_problem _ _)

end

/-! ## Depth -/

theorem depth_release (out : List Token) (pending : List Pending) :
    depth (release out pending).2 = depth pending := by
  induction pending generalizing out with
  | nil => rfl
  | cons p rest ih =>
    cases p with
    | operator w => exact ih (w :: out)
    | paren t call commas => rfl

theorem depth_releaseStronger (o : Operator) (out : List Token) (pending : List Pending) :
    depth (releaseStronger ops o out pending).2 = depth pending := by
  induction pending generalizing out with
  | nil => rfl
  | cons p rest ih =>
    cases p with
    | paren t call commas => rfl
    | operator w =>
      rw [releaseStronger]
      split
      · split
        · exact ih (w :: out)
        · rfl
      · rfl

/-- A right parenthesis closes one that waits. -/
theorem depth_advance_rightParen {s : State} {t : Token} {next : Option Token} (ht : t.kind = .rightParen)
    (h : Faultless (step ops d s t next).1) :
    depth (advance ops d s t next).pending = depth s.pending - 1 := by
  obtain ⟨out, p, call, commas, rest, hrelease, -⟩ := opened_of_rightParen ht h
  have hall := depth_release s.output s.pending
  rw [hrelease, depth] at hall
  simp only [advance, step, ht, onRightParen, hrelease]
  cases call with
  | none => exact Nat.eq_sub_of_add_eq hall
  | some f => exact Nat.eq_sub_of_add_eq hall

/-- A token that is no parenthesis neither opens nor closes one. -/
theorem depth_advance {s : State} {t : Token} {next : Option Token} (hleft : t.kind ≠ .leftParen)
    (hright : t.kind ≠ .rightParen) (h : Faultless (step ops d s t next).1) :
    depth (advance ops d s t next).pending = depth s.pending := by
  unfold advance step
  split
  · rfl
  · rename_i ht
    exact absurd ht hleft
  · rename_i ht
    exact absurd ht hright
  · rename_i ht
    -- the parenthesis of the call waits with one comma more
    obtain ⟨-, out, p, f, commas, rest, hrelease⟩ := called_of_comma ht h
    have hall := depth_release s.output s.pending
    rw [hrelease] at hall
    simp only [onComma, hrelease]
    exact hall
  · split
    · unfold onPrefix
      split
      · rfl
      · rfl
    · unfold onBinary
      split
      · exact depth_releaseStronger ..
      · rfl
  · rfl

/-- **The open parentheses that wait are those that are open in the text**: a step that finds no problem
    keeps what is said about the depth of the rest. -/
theorem opensWithin_step {s : State} {t : Token} {next : Option Token} {ts : List Token}
    (h : Faultless (step ops d s t next).1) :
    opensWithin d (depth s.pending) (t :: ts) ↔
      opensWithin d (depth (advance ops d s t next).pending) ts := by
  rw [SciCalc.opensWithin]
  split
  · rename_i ht
    have hd := (due_of_leftParen ht h).2
    have hdepth : depth (advance ops d s t next).pending = depth s.pending + 1 := by
      simp only [advance, step, ht, onLeftParen, depth]
    rw [hdepth]
    exact and_iff_right hd
  · rename_i ht
    rw [depth_advance_rightParen ht h]
  · rename_i hleft hright
    rw [depth_advance hleft hright h]

theorem Passes.opensWithin_iff {s s' : State} {ts rest : List Token} (h : Passes ops d s ts s' rest) :
    opensWithin d (depth s.pending) ts ↔ opensWithin d (depth s'.pending) rest := by
  induction h with
  | refl => exact Iff.rfl
  | step faultless _ ih => rw [opensWithin_step faultless, ih]

/-- What completes an expression opens no more parentheses than it may. -/
theorem Completes.opensWithin {s : State} {ts out : List Token} (h : Completes ops d s ts out) :
    opensWithin d (depth s.pending) ts := by
  obtain ⟨s', passes, -, -⟩ := h
  rw [passes.opensWithin_iff]
  trivial

end Postfix

end SciCalc
