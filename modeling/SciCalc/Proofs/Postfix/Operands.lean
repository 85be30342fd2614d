/-
  Operands keep their order.

  1. **What leaves** (`filterMap_release`, `filterMap_finish`) — only operators leave what waits, so all other
     tokens in postfix order stay as they are.

  2. **Operands** (`operandsOf_run`) — a step adds the operand that it reads, and so the operands in postfix
     order are those of the expression, in the order in which they are written.
-/
import SciCalc.Proofs.Postfix.Passing
import SciCalc.Proofs.Postfix.Simulation

namespace SciCalc.Postfix

open Tree

/-! ## What leaves -/

section

variable {α : Type} {g : Token → Option α} {pending : List Pending}

/-- Operators that leave do not count where only other tokens do. -/
theorem filterMap_release (h : ∀ t : Token, t.kind = .operator → g t = none) (kinds : WellKinded pending)
    (out : List Token) : (release out pending).1.filterMap g = out.filterMap g := by
  induction pending generalizing out with
  | nil => rfl
  | cons p rest ih =>
    obtain ⟨hp, hrest⟩ := wellKinded_cons.mp kinds
    cases p with
    | paren t call commas => rfl
    | operator t => rw [release, ih hrest, List.filterMap_cons_none (h t hp)]

theorem filterMap_releaseStronger (h : ∀ t : Token, t.kind = .operator → g t = none) {ops : Operators}
    (o : Operator) (kinds : WellKinded pending) (out : List Token) :
    (releaseStronger ops o out pending).1.filterMap g = out.filterMap g := by
  induction pending generalizing out with
  | nil => rfl
  | cons p rest ih =>
    obtain ⟨hp, hrest⟩ := wellKinded_cons.mp kinds
    cases p with
    | paren t call commas => rfl
    | operator t =>
      rw [releaseStronger]
      split
      · split
        · rw [ih hrest, List.filterMap_cons_none (h t hp)]
        · rfl
      · rfl

/-- At the end only operators leave. -/
theorem filterMap_finish (h : ∀ t : Token, t.kind = .operator → g t = none) (kinds : WellKinded pending)
    (out : List Token) : (finish out pending).2.filterMap g = out.reverse.filterMap g := by
  induction pending generalizing out with
  | nil => rfl
  | cons p rest ih =>
    obtain ⟨hp, hrest⟩ := wellKinded_cons.mp kinds
    cases p with
    | paren t call commas => exact ih hrest out
    | operator t =>
      rw [finish, ih hrest, List.filterMap_reverse, List.filterMap_cons_none (h t hp), List.filterMap_reverse]

end

/-! ## Operands -/

instance : DecidablePred isOperand := fun t =>
  inferInstanceAs (Decidable (t.kind = .number ∨ t.kind = .constant ∨ t.kind = .variable))

/-- The token as an operand. -/
def operand? (t : Token) : Option Token := if isOperand t then some t else none

/-- The operands among tokens. -/
def operandsOf (ts : List Token) : List Token := ts.filterMap operand?

theorem operand?_of_kind {t : Token} {k : TokenKind} (hk : t.kind = k)
    (h : ¬ (k = .number ∨ k = .constant ∨ k = .variable)) : operand? t = none :=
  if_neg (not_isOperand_of_kind hk h)

theorem operand?_operator (t : Token) (h : t.kind = .operator) : operand? t = none :=
  operand?_of_kind h (by decide)

/-- A token that is no operand adds none. -/
theorem operandsOf_cons_none {t : Token} (h : operand? t = none) (ts : List Token) :
    operandsOf (t :: ts) = operandsOf ts :=
  List.filterMap_cons_none h

theorem operandsOf_cons (t : Token) (ts : List Token) :
    operandsOf (t :: ts) = (operand? t).toList ++ operandsOf ts := by
  rw [operandsOf, List.filterMap_cons]
  cases operand? t <;> rfl

theorem operandsOf_reverse (ts : List Token) : operandsOf ts.reverse = (operandsOf ts).reverse :=
  List.filterMap_reverse

theorem mem_operandsOf {t : Token} {ts : List Token} : t ∈ operandsOf ts ↔ t ∈ ts ∧ isOperand t := by
  simp only [operandsOf, operand?, List.mem_filterMap, Option.ite_none_right_eq_some, Option.some.injEq]
  exact ⟨fun ⟨_, hmem, hop, heq⟩ => heq ▸ ⟨hmem, hop⟩, fun ⟨hmem, hop⟩ => ⟨t, hmem, hop, rfl⟩⟩

/-- A right parenthesis adds no operand. -/
theorem operandsOf_onRightParen {s : State} {t : Token} (kinds : WellKinded s.pending) :
    operandsOf (onRightParen s t).2.output = operandsOf s.output := by
  have hout : operandsOf _ = operandsOf s.output := filterMap_release operand?_operator kinds s.output
  unfold onRightParen
  split
  · rename_i out p call commas rest hrelease
    have hkinds := kinds.of_suffix (release_suffix s.output s.pending)
    rw [hrelease] at hout hkinds
    cases call with
    | none => exact hout
    | some f =>
      have hf : f.kind = .function := (wellKinded_cons.mp hkinds).1.2 f rfl
      refine (operandsOf_cons_none (t := { f with argumentCount := some _ }) ?_ out).trans hout
      exact operand?_of_kind (k := .function) hf (by decide)
  · rfl

/-- A comma adds no operand. -/
theorem operandsOf_onComma {s : State} {t : Token} (kinds : WellKinded s.pending) :
    operandsOf (onComma s t).2.output = operandsOf s.output := by
  have hout : operandsOf _ = operandsOf s.output := filterMap_release operand?_operator kinds s.output
  unfold onComma
  split
  · rename_i out p f commas rest hrelease
    rw [hrelease] at hout
    exact hout
  · rfl

/-- **A step adds the operand that it reads**, and no other one. -/
theorem operandsOf_step {ops : Operators} {d : Int} {s : State} {t : Token} {next : Option Token}
    (kinds : WellKinded s.pending) :
    operandsOf (step ops d s t next).2.output = (operand? t).toList ++ operandsOf s.output := by
  -- what is no operand is not counted, whatever the step does with it
  have hnone : ∀ {out : List Token} {k : TokenKind}, t.kind = k →
      ¬ (k = .number ∨ k = .constant ∨ k = .variable) → operandsOf out = operandsOf s.output →
      operandsOf out = (operand? t).toList ++ operandsOf s.output := by
    intro out k hk h hout
    rw [operand?_of_kind hk h]
    exact hout
  unfold step
  split
  · rename_i hk
    exact hnone hk (by decide) rfl
  · rename_i hk
    exact hnone hk (by decide) rfl
  · rename_i hk
    exact hnone hk (by decide) (operandsOf_onRightParen kinds)
  · rename_i hk
    exact hnone hk (by decide) (operandsOf_onComma kinds)
  · rename_i hk
    refine hnone hk (by decide) ?_
    split
    · unfold onPrefix
      split <;> rfl
    · unfold onBinary
      split
      · exact filterMap_releaseStronger operand?_operator _ kinds s.output
      · rfl
  · exact operandsOf_cons t s.output

/-- The operands that a run gives are those given before and those that it reads, in this order. -/
theorem operandsOf_runFrom {ops : Operators} {d : Int} (ts : List Token) :
    ∀ {s : State}, WellKinded s.pending →
      operandsOf (runFrom ops d s ts).2 =
        operandsOf s.output.reverse ++ operandsOf (ts.takeWhile (!·.isFinish)) := by
  induction ts with
  | nil => exact fun kinds => (filterMap_finish operand?_operator kinds _).trans (List.append_nil _).symm
  | cons t ts ih =>
    intro s kinds
    rw [runFrom]
    split
    · rename_i hfinish
      rw [List.takeWhile_cons_of_neg (by rw [hfinish]; decide)]
      exact (filterMap_finish operand?_operator kinds _).trans (List.append_nil _).symm
    · rename_i hfinish
      have hmore := ih (s := { (step ops d s t ts.head?).2 with previous := some t }) (wellKinded_step kinds)
      rw [List.takeWhile_cons_of_pos (by rw [Bool.eq_false_iff.mpr hfinish]; rfl), operandsOf_cons]
      dsimp only at hmore ⊢
      rw [hmore, operandsOf_reverse, operandsOf_step kinds, List.reverse_append, List.append_assoc,
        operandsOf_reverse]
      cases operand? t <;> rfl

/-- **The operands in postfix order are those of the expression**, in their order. -/
theorem operandsOf_run {ops : Operators} {d : Int} (ts : List Token) :
    operandsOf (run ops d ts).2 = operandsOf (ts.takeWhile (!·.isFinish)) := by
  unfold run
  split
  · rename_i hempty
    cases ts with
    | nil => rfl
    | cons t ts =>
      have hfinish : t.isFinish = true := hempty
      rw [List.takeWhile_cons_of_neg (by rw [hfinish]; decide)]
  · exact operandsOf_runFrom ts (s := .initial) wellKinded_nil

/-- An operand in postfix order is one of the expression. -/
theorem mem_of_mem_ofTokens {ops : Operators} {d : Int} {ts ps : List Token}
    (h : ofTokens ops d ts = .ok ps) {t : Token} (ht : t ∈ ps) (hop : isOperand t) : t ∈ ts := by
  obtain ⟨-, rfl⟩ := ofTokens_eq_ok.mp h
  have hmem : t ∈ operandsOf (run ops d ts).2 := mem_operandsOf.mpr ⟨ht, hop⟩
  rw [operandsOf_run] at hmem
  exact (List.takeWhile_sublist _).subset (mem_operandsOf.mp hmem).1

end SciCalc.Postfix
