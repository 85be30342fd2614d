/-
  What the conversion gives fits the operators, and what it raises tells of the expression.

  1. **The tree fits** (`Climbs.fits`) — every operator of a tree that climbing reads has as many operands as
     it takes, and every call says how many arguments it has.  No function is looked up for this, so that the
     tree fits whatever functions there are (`Fits.of_operators`).

  2. **Findings** (`Sober`) — a step over a token finds problems of the expression, and none of those that
     the evaluation of a malformed row has.
-/
import SciCalc.Proofs.Blame
import SciCalc.Proofs.Evaluation.Postorder
import SciCalc.Proofs.Postfix.Parsing
import SciCalc.Proofs.Postfix.Step

namespace SciCalc

open Tree

/-! ## The tree fits -/

/-- The vocabulary of the operators alone. -/
def Operators.alone (ops : Operators) : Vocabulary := ⟨ops, none⟩

/-- What is applied to so many operands without any functions is so with them. -/
theorem Tree.Takes.of_operators {v : Vocabulary} {t : Token} {n : Nat}
    (h : Takes v.operators.alone t n) : Takes v t n := by
  rcases h with h | h | ⟨-, -, f, hf, -⟩
  · exact Or.inl h
  · exact Or.inr (Or.inl h)
  · cases hf

mutual

/-- **A tree that fits the operators alone fits them with any functions.** -/
theorem Tree.Fits.of_operators {v : Vocabulary} : ∀ {x : Tree}, Fits v.operators.alone x → Fits v x
  | leaf _, h => h
  | node _ _, h => ⟨Takes.of_operators h.1, FitAll.of_operators h.2⟩

theorem Tree.FitAll.of_operators {v : Vocabulary} :
    ∀ {xs : List Tree}, FitAll v.operators.alone xs → FitAll v xs
  | [], _ => trivial
  | _ :: _, h => ⟨Fits.of_operators h.1, FitAll.of_operators h.2⟩

end

section

variable {ops : Operators}

/-- A call that records its number of arguments has that many. -/
theorem takes_of_call {f : Token} (hf : f.kind = .function) (n : Nat) :
    Takes ops.alone { f with argumentCount := some (n : Int) } n :=
  Or.inr (Or.inl ⟨hf, rfl⟩)

/-- A prefix operator has one operand. -/
theorem takes_of_unary? (r : ops.Ranked) {t : Token} (ht : t.kind = .operator) {o : Operator}
    (ho : ops.unary? t.value = some o) : Takes ops.alone { t with value := "unary" ++ t.value } 1 :=
  Or.inl ⟨ht, o, ho, r.arity_eq_one ho⟩

/-- A binary operator has two operands. -/
theorem takes_of_binary? {t : Token} (ht : t.kind = .operator) {o : Operator}
    (ho : ops.binary? t.value = some o) : Takes ops.alone t 2 := by
  obtain ⟨found, binary⟩ := Operators.binary?_eq_some.mp ho
  exact Or.inl ⟨ht, o, found, of_decide_eq_true binary⟩

mutual

/-- **A tree that climbing reads fits the operators.** -/
theorem Climbs.fits (r : ops.Ranked) {least : Int} {ts rest : List Token} {x : Tree} :
    Climbs ops least ts x rest → Fits ops.alone x
  | .intro hx hext => Extends.fits r hext (ReadsOperand.fits r hx)
termination_by structural h => h

theorem ReadsOperand.fits (r : ops.Ranked) {ts rest : List Token} {x : Tree} :
    ReadsOperand ops ts x rest → Fits ops.alone x
  | .plain ht => ht
  | .group _ hx _ => Climbs.fits r hx
  | .emptyCall hf _ _ => ⟨takes_of_call hf 0, trivial⟩
  | .call hf _ hxs => ⟨takes_of_call hf _, ReadsArguments.fits r hxs⟩
  | .signed ht ho hx => ⟨takes_of_unary? r ht ho, Climbs.fits r hx, trivial⟩
termination_by structural h => h

theorem ReadsArguments.fits (r : ops.Ranked) {ts rest : List Token} {xs : List Tree} :
    ReadsArguments ops ts xs rest → FitAll ops.alone xs
  | .last hx _ => ⟨Climbs.fits r hx, trivial⟩
  | .more hx _ hxs => ⟨Climbs.fits r hx, ReadsArguments.fits r hxs⟩
termination_by structural h => h

theorem Extends.fits (r : ops.Ranked) {least : Int} {x y : Tree} {ts rest : List Token} :
    Extends ops least x ts y rest → Fits ops.alone x → Fits ops.alone y
  | .stop _, fits => fits
  | .step ht ho _ hy hz, fits =>
    Extends.fits r hz ⟨takes_of_binary? ht ho, fits, Climbs.fits r hy, trivial⟩
termination_by structural h => h

end

end

namespace Postfix

/-- **Tokens in postfix order are the post-order of a tree that fits the operators.** -/
theorem exists_tree_of_ofTokens {ops : Operators} (r : ops.Ranked) {d : Int} {body : List Token} {e : Token}
    (he : e.isFinish = true) (hbody : ∀ t ∈ body, t.isFinish = false) {out : List Token}
    (ok : ofTokens ops d (body ++ [e]) = .ok out) : ∃ x, Fits ops.alone x ∧ x.postorder = out := by
  obtain ⟨x, hx, -, rfl⟩ := (completes_iff_climbs r hbody).mp ((ofTokens_eq_ok_iff he hbody).mp ok)
  exact ⟨x, hx.fits r, rfl⟩

/-! ## Findings -/

/-- All problems among the findings are problems of the expression. -/
def Sober (found : List Finding) : Prop := ∀ cause, .problem cause ∈ found → cause.isOfExpression = true

theorem sober_append {fs gs : List Finding} : Sober (fs ++ gs) ↔ Sober fs ∧ Sober gs := by
  simp only [Sober, List.mem_append, or_imp, forall_and]

variable {ops : Operators} {d : Int}

/-- **What a step finds are problems of the expression.** -/
theorem sober_step (s : State) (t : Token) (next : Option Token) : Sober (step ops d s t next).1 := by
  intro cause h
  cases finds_step _ h <;> rfl

theorem sober_onFinish (s : State) (t : Token) : Sober (onFinish s t) := by
  intro cause h
  rcases finds_onFinish h with heq | heq
  · cases heq
    rfl
  · cases heq
    rfl

theorem sober_finish (pending : List Pending) (out : List Token) : Sober (finish out pending).1 := by
  intro cause h
  obtain ⟨p, -, -, -, heq⟩ := finds_finish h
  cases heq
  rfl

/-- What a run finds are problems of the expression. -/
theorem sober_runFrom (ts : List Token) : ∀ s : State, Sober (runFrom ops d s ts).1 := by
  induction ts with
  | nil => exact fun s => sober_finish s.pending s.output
  | cons t ts ih =>
    intro s
    rw [runFrom]
    split
    · exact sober_append.mpr ⟨sober_onFinish s t, sober_finish s.pending s.output⟩
    · exact sober_append.mpr ⟨sober_step s t ts.head?, ih _⟩

/-- **The conversion raises a problem of the expression.** -/
theorem isOfExpression_of_ofTokens {ts : List Token} {cause : StructuralCause}
    (failed : ofTokens ops d ts = .error cause) : cause.isOfExpression = true := by
  have sober : Sober (run ops d ts).1 := by
    unfold run
    split
    · intro first h
      cases List.mem_singleton.mp h
      rfl
    · exact sober_runFrom ts .initial
  unfold ofTokens at failed
  dsimp only at failed
  split at failed
  · rename_i first hfirst
    cases failed
    obtain ⟨f, hf, hcause⟩ := List.exists_of_findSome?_eq_some hfirst
    cases f with
    | problem found =>
      cases hcause
      exact sober _ hf
    | call name count position => cases hcause
  · cases failed

end Postfix

end SciCalc
