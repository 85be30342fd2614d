/-
  The first check refuses no expression.

  The first check counts parentheses and looks for operators that follow operators; it knows nothing about
  what waits.  In a run that finds no problem its count is the number of parentheses that wait
  (`depth_advance`), and behind an operator an operand is due (`Alert`), where only prefix operators find no
  problem.  So it finds nothing in tokens that can be put into postfix order (`problems_eq_nil`).
-/
import SciCalc.Proofs.Postfix.Passing
import SciCalc.Token.Check

namespace SciCalc.Postfix

open Token (followsOperator problemsFrom problems)

variable {ops : Operators} {d : Int}

/-- Behind an operator an operand is due. -/
def Alert (s : State) : Prop := s.follows .operator = true → s.operandDue = true

theorem alert_initial : Alert .initial := fun _ => rfl

/-- A step that finds no problem leaves an operand due behind an operator. -/
theorem alert_advance {s : State} {t : Token} {next : Option Token}
    (h : Faultless (step ops d s t next).1) : Alert (advance ops d s t next) := by
  intro hfollows
  have ht : t.kind = .operator := of_decide_eq_true hfollows
  simp only [advance, step, ht]
  split
  · rename_i due
    obtain ⟨o, ho⟩ := unary_of_operator ht due h
    simp only [onPrefix, ho]
    exact due
  · rename_i done
    obtain ⟨o, ho⟩ := binary_of_operator ht (Bool.eq_false_iff.mpr done) h
    simp only [onBinary, ho]

/-- An operator that may stand where it does is no operator that cannot follow the one before. -/
theorem followsOperator_eq_none {s : State} {t : Token} {next : Option Token} (alert : Alert s)
    (h : Faultless (step ops d s t next).1) : followsOperator ops s.previous t = none := by
  unfold followsOperator
  split
  · rename_i p hp
    rw [if_neg]
    simp only [Bool.and_eq_true, decide_eq_true_eq, Bool.not_eq_true', not_and, Bool.not_eq_false]
    rintro ⟨hprevious, ht⟩
    have due : s.operandDue = true := alert (by simp only [State.follows, hp, hprevious, decide_true])
    obtain ⟨o, ho⟩ := unary_of_operator ht due h
    rw [Operators.canBeUnary, ho]
    rfl
  · rfl

/-- Where nothing is left open no parenthesis waits. -/
theorem depth_eq_zero_of_finish {pending : List Pending} {out : List Token}
    (h : (finish out pending).1 = []) : depth pending = 0 := by
  induction pending generalizing out with
  | nil => rfl
  | cons p rest ih =>
    cases p with
    | operator t => exact ih h
    | paren t call commas => exact absurd h (List.cons_ne_nil _ _)

/-- **The first check finds nothing in the rest of an expression that is completed**, with the parentheses
    that wait as its count. -/
theorem problemsFrom_eq_nil {ts out : List Token} :
    ∀ {s : State}, Alert s → Completes ops d s ts out →
      problemsFrom ops (depth s.pending) s.previous ts = [] := by
  induction ts with
  | nil =>
    intro s _ h
    obtain ⟨-, hfinish⟩ := completes_nil.mp h
    rw [problemsFrom, depth_eq_zero_of_finish (congrArg Prod.fst hfinish)]
    rfl
  | cons t ts ih =>
    intro s alert h
    obtain ⟨faultless, hrest⟩ := completes_cons.mp h
    have hnext := ih (alert_advance faultless) hrest
    unfold problemsFrom
    split
    · rename_i ht
      rwa [show depth (advance ops d s t ts.head?).pending = depth s.pending + 1 by
        simp only [advance, step, ht, onLeftParen, depth]] at hnext
    · rename_i ht hdepth
      -- a right parenthesis that finds no problem closes one that waits
      obtain ⟨out, p, call, commas, rest, hrelease, -⟩ := opened_of_rightParen ht faultless
      have hall := depth_release s.output s.pending
      rw [hrelease, depth, hdepth] at hall
      cases hall
    · rename_i n ht hdepth
      rwa [depth_advance_rightParen ht faultless, hdepth, Nat.succ_sub_one] at hnext
    · rename_i hleft hright hright'
      have hkind : t.kind ≠ .rightParen := by
        intro hk
        cases hdepth : depth s.pending with
        | zero => exact hright hk hdepth
        | succ n => exact hright' n hk hdepth
      rw [followsOperator_eq_none alert faultless]
      rwa [depth_advance hleft hkind faultless] at hnext

/-- **The first check finds no problem in tokens that can be put into postfix order.** -/
theorem problems_eq_nil {body ps : List Token} {e : Token} (he : e.isFinish = true)
    (hbody : ∀ t ∈ body, t.isFinish = false) (ok : ofTokens ops d (body ++ [e]) = .ok ps) :
    problems ops (body ++ [e]) = [] := by
  have completes := (ofTokens_eq_ok_iff he hbody).mp ok
  have hfilter : (body ++ [e]).filter (!·.isFinish) = body := by
    have hkeep : body.filter (!·.isFinish) = body :=
      List.filter_eq_self.mpr fun t ht => by rw [hbody t ht]; rfl
    rw [List.filter_append, hkeep, List.filter_cons, he]
    exact List.append_nil body
  rw [problems, hfilter]
  cases body with
  | nil => exact absurd (completes_nil.mp completes).1 (by decide)
  | cons t ts => exact problemsFrom_eq_nil alert_initial completes

end SciCalc.Postfix
