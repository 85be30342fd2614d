/-
  Reading an expression by precedence climbing.

  1. **The reading** (`Climbs`) — an operand is read, and then, as long as the next token is a binary
     operator that binds at least as strongly as asked for, the operator and its right operand.  The reading
     is a relation between the tokens in front of it, the tree, and the tokens behind it; its rules are
     those of a recursive parser, one for each thing that can be read.

  2. **One reading** (`Climbs.unique`) — tokens are read in at most one way.

  3. **Depth** (`opensWithin`) — how many parentheses may be open when another one opens.
-/
import SciCalc.Operator.Basic
import SciCalc.Proofs.Tree

namespace SciCalc

open Tree

/-- The token is a binary operator that binds at least as strongly as asked for. -/
def Continues (ops : Operators) (least : Int) (t : Token) : Prop :=
  t.kind = .operator ∧ ∃ o, ops.binary? t.value = some o ∧ least ≤ o.precedence

/-- How strongly the operators in the right operand of an operator have to bind. -/
def Operator.rightBound (o : Operator) : Int :=
  match o.grouping with
  | .left => o.precedence + 1
  | .right => o.precedence

mutual

/-- **Precedence climbing**: a tree whose binary operators outside parentheses bind at least so strongly is
    read in front of the rest of the tokens. -/
inductive Climbs (ops : Operators) : Int → List Token → Tree → List Token → Prop where
  | intro {least ts x ts' y rest} : ReadsOperand ops ts x ts' → Extends ops least x ts' y rest →
      Climbs ops least ts y rest

/-- A number, a constant or a variable, a tree in parentheses, a call, or an operand with a prefix
    operator. -/
inductive ReadsOperand (ops : Operators) : List Token → Tree → List Token → Prop where
  | plain {t rest} : isOperand t → ReadsOperand ops (t :: rest) (.leaf t) rest
  | group {p ts x q rest} : p.kind = .leftParen → Climbs ops 1 ts x (q :: rest) → q.kind = .rightParen →
      ReadsOperand ops (p :: ts) x rest
  | emptyCall {f p q rest} : f.kind = .function → p.kind = .leftParen → q.kind = .rightParen →
      ReadsOperand ops (f :: p :: q :: rest) (.node { f with argumentCount := some 0 } []) rest
  | call {f p ts xs rest} : f.kind = .function → p.kind = .leftParen → ReadsArguments ops ts xs rest →
      ReadsOperand ops (f :: p :: ts) (.node { f with argumentCount := some (xs.length : Int) } xs) rest
  | signed {t o ts x rest} : t.kind = .operator → ops.unary? t.value = some o →
      Climbs ops (o.precedence + 1) ts x rest →
      ReadsOperand ops (t :: ts) (.node { t with value := "unary" ++ t.value } [x]) rest

/-- The arguments of a call, with commas between them and the right parenthesis behind them. -/
inductive ReadsArguments (ops : Operators) : List Token → List Tree → List Token → Prop where
  | last {ts x q rest} : Climbs ops 1 ts x (q :: rest) → q.kind = .rightParen →
      ReadsArguments ops ts [x] rest
  | more {ts x c ts' xs rest} : Climbs ops 1 ts x (c :: ts') → c.kind = .comma →
      ReadsArguments ops ts' xs rest → ReadsArguments ops ts (x :: xs) rest

/-- The binary operators behind a tree that has been read, each with its right operand. -/
inductive Extends (ops : Operators) : Int → Tree → List Token → Tree → List Token → Prop where
  | stop {least x ts} : (∀ t, ts.head? = some t → ¬ Continues ops least t) → Extends ops least x ts x ts
  | step {least x t o ts y ts' z rest} : t.kind = .operator → ops.binary? t.value = some o →
      least ≤ o.precedence → Climbs ops o.rightBound ts y ts' →
      Extends ops least (.node t [x, y]) ts' z rest → Extends ops least x (t :: ts) z rest

end

/-! ## One reading -/

/-- Nothing is read in front of a right parenthesis. -/
theorem ReadsOperand.head_ne_rightParen {ops : Operators} {q : Token} {ts rest : List Token} {x : Tree}
    (h : ReadsOperand ops (q :: ts) x rest) : q.kind ≠ .rightParen := by
  cases h with
  | plain ht =>
    rcases ht with ht | ht | ht <;> rw [ht] <;> decide
  | group hp _ _ =>
    rw [hp]
    decide
  | emptyCall hf _ _ =>
    rw [hf]
    decide
  | call hf _ _ =>
    rw [hf]
    decide
  | signed ht _ _ =>
    rw [ht]
    decide

theorem Climbs.head_ne_rightParen {ops : Operators} {least : Int} {q : Token} {ts rest : List Token}
    {x : Tree} (h : Climbs ops least (q :: ts) x rest) : q.kind ≠ .rightParen := by
  cases h with
  | intro hx _ => exact hx.head_ne_rightParen

theorem ReadsArguments.head_ne_rightParen {ops : Operators} {q : Token} {ts rest : List Token}
    {xs : List Tree} (h : ReadsArguments ops (q :: ts) xs rest) : q.kind ≠ .rightParen := by
  cases h with
  | last hx _ => exact hx.head_ne_rightParen
  | more hx _ _ => exact hx.head_ne_rightParen

mutual

/-- **Tokens are read in one way.** -/
theorem Climbs.unique {ops : Operators} {least : Int} {ts : List Token} {x y : Tree}
    {rest rest' : List Token} : Climbs ops least ts x rest → Climbs ops least ts y rest' →
      x = y ∧ rest = rest'
  | .intro hx ex, .intro hy ey => by
    obtain ⟨rfl, rfl⟩ := ReadsOperand.unique hx hy
    exact Extends.unique ex ey
termination_by structural h => h

theorem ReadsOperand.unique {ops : Operators} {ts : List Token} {x y : Tree}
    {rest rest' : List Token} : ReadsOperand ops ts x rest → ReadsOperand ops ts y rest' →
      x = y ∧ rest = rest'
  | .plain ht, h => by
    cases h with
    | plain _ => exact ⟨rfl, rfl⟩
    | group hp' _ _ => exact absurd ht (not_isOperand_of_kind hp' (by decide))
    | emptyCall hf' _ _ => exact absurd ht (not_isOperand_of_kind hf' (by decide))
    | call hf' _ _ => exact absurd ht (not_isOperand_of_kind hf' (by decide))
    | signed ht' _ _ => exact absurd ht (not_isOperand_of_kind ht' (by decide))
  | .group hp hx hq, h => by
    cases h with
    | plain ht' => exact absurd ht' (not_isOperand_of_kind hp (by decide))
    | group _ hx' _ =>
      obtain ⟨rfl, hrest⟩ := Climbs.unique hx hx'
      cases hrest
      exact ⟨rfl, rfl⟩
    | emptyCall hf' _ _ => exact absurd (hp.symm.trans hf') (by decide)
    | call hf' _ _ => exact absurd (hp.symm.trans hf') (by decide)
    | signed ht' _ _ => exact absurd (hp.symm.trans ht') (by decide)
  | .emptyCall hf hp hq, h => by
    cases h with
    | plain ht' => exact absurd ht' (not_isOperand_of_kind hf (by decide))
    | group hp' _ _ => exact absurd (hf.symm.trans hp') (by decide)
    | emptyCall _ _ _ => exact ⟨rfl, rfl⟩
    | call _ _ hxs' => exact absurd hq hxs'.head_ne_rightParen
    | signed ht' _ _ => exact absurd (hf.symm.trans ht') (by decide)
  | .call hf hp hxs, h => by
    cases h with
    | plain ht' => exact absurd ht' (not_isOperand_of_kind hf (by decide))
    | group hp' _ _ => exact absurd (hf.symm.trans hp') (by decide)
    | emptyCall _ _ hq' => exact absurd hq' hxs.head_ne_rightParen
    | call _ _ hxs' =>
      obtain ⟨rfl, rfl⟩ := ReadsArguments.unique hxs hxs'
      exact ⟨rfl, rfl⟩
    | signed ht' _ _ => exact absurd (hf.symm.trans ht') (by decide)
  | .signed ht ho hx, h => by
    cases h with
    | plain ht' => exact absurd ht' (not_isOperand_of_kind ht (by decide))
    | group hp' _ _ => exact absurd (ht.symm.trans hp') (by decide)
    | emptyCall hf' _ _ => exact absurd (ht.symm.trans hf') (by decide)
    | call hf' _ _ => exact absurd (ht.symm.trans hf') (by decide)
    | signed _ ho' hx' =>
      rw [ho] at ho'
      cases ho'
      obtain ⟨rfl, rfl⟩ := Climbs.unique hx hx'
      exact ⟨rfl, rfl⟩
termination_by structural h => h

theorem ReadsArguments.unique {ops : Operators} {ts : List Token} {xs ys : List Tree}
    {rest rest' : List Token} : ReadsArguments ops ts xs rest → ReadsArguments ops ts ys rest' →
      xs = ys ∧ rest = rest'
  | .last hx hq, h => by
    cases h with
    | last hy hq' =>
      obtain ⟨rfl, hrest⟩ := Climbs.unique hx hy
      cases hrest
      exact ⟨rfl, rfl⟩
    | more hy hc _ =>
      obtain ⟨-, hrest⟩ := Climbs.unique hx hy
      cases hrest
      rw [hq] at hc
      cases hc
  | .more hx hc hxs, h => by
    cases h with
    | last hy hq =>
      obtain ⟨-, hrest⟩ := Climbs.unique hx hy
      cases hrest
      rw [hq] at hc
      cases hc
    | more hy hc' hys =>
      obtain ⟨rfl, hrest⟩ := Climbs.unique hx hy
      cases hrest
      obtain ⟨rfl, rfl⟩ := ReadsArguments.unique hxs hys
      exact ⟨rfl, rfl⟩
termination_by structural h => h

theorem Extends.unique {ops : Operators} {least : Int} {x y z : Tree} {ts rest rest' : List Token} :
    Extends ops least x ts y rest → Extends ops least x ts z rest' → y = z ∧ rest = rest'
  | .stop hstop, h => by
    cases h with
    | stop _ => exact ⟨rfl, rfl⟩
    | step ht ho hle _ _ => exact absurd ⟨ht, _, ho, hle⟩ (hstop _ rfl)
  | .step ht ho hle hy hz, h => by
    cases h with
    | stop hstop => exact absurd ⟨ht, _, ho, hle⟩ (hstop _ rfl)
    | step _ ho' _ hy' hz' =>
      rw [ho] at ho'
      cases ho'
      obtain ⟨rfl, rfl⟩ := Climbs.unique hy hy'
      exact Extends.unique hz hz'
termination_by structural h => h

end

/-! ## Depth -/

/-- No more than so many parentheses are open at once, `depth` of them in front of the tokens: when one
    opens, fewer than so many are open. -/
def opensWithin (limit : Int) : Nat → List Token → Prop
  | _, [] => True
  | depth, t :: ts =>
    match t.kind with
    | .leftParen => (depth : Int) < limit ∧ opensWithin limit (depth + 1) ts
    | .rightParen => opensWithin limit (depth - 1) ts
    | _ => opensWithin limit depth ts

end SciCalc
