/-
  Trees that are read within other rows of tokens.

  1. **In front of more** (`Climbs.before`) — a tree that is read in front of a rest is read in the same way if
     something comes behind the rest that is no operator, such as a comma or a right parenthesis.

  2. **Further on** (`Climbs.shift`) — reading looks at the kinds and texts of tokens, and not at where they stand:
     from tokens that stand further on the tree is read with its tokens further on (`Tree.shift`).
-/
import SciCalc.Proofs.Postfix.Climbing
import SciCalc.Proofs.Token.Argument

namespace SciCalc

open Tree

variable {ops : Operators}

/-! ## In front of more -/

/-- What stops the reading of operators in front of a rest stops it in front of more. -/
theorem stops_before {least : Int} {q : Token} (hq : q.kind ≠ .operator) {ts : List Token} (more : List Token)
    (h : ∀ t, ts.head? = some t → ¬ Continues ops least t) :
    ∀ t, (ts ++ q :: more).head? = some t → ¬ Continues ops least t := by
  intro t ht
  cases ts with
  | nil =>
    obtain rfl : q = t := Option.some.inj ht
    exact fun hcontinues => hq hcontinues.1
  | cons u ts => exact h t ht

section

variable {q : Token} (more : List Token)

mutual

/-- **A tree is read in the same way if something behind the rest is no operator.** -/
theorem Climbs.before (hq : q.kind ≠ .operator) {least : Int} {ts rest : List Token} {x : Tree} :
    Climbs ops least ts x rest → Climbs ops least (ts ++ q :: more) x (rest ++ q :: more)
  | .intro hx hext => .intro (ReadsOperand.before hq hx) (Extends.before hq hext)
termination_by structural h => h

theorem ReadsOperand.before (hq : q.kind ≠ .operator) {ts rest : List Token} {x : Tree} :
    ReadsOperand ops ts x rest → ReadsOperand ops (ts ++ q :: more) x (rest ++ q :: more)
  | .plain ht => .plain ht
  | .group hp hx hr => .group hp (Climbs.before hq hx) hr
  | .emptyCall hf hp hr => .emptyCall hf hp hr
  | .call hf hp hxs => .call hf hp (ReadsArguments.before hq hxs)
  | .signed ht ho hx => .signed ht ho (Climbs.before hq hx)
termination_by structural h => h

theorem ReadsArguments.before (hq : q.kind ≠ .operator) {ts rest : List Token} {xs : List Tree} :
    ReadsArguments ops ts xs rest → ReadsArguments ops (ts ++ q :: more) xs (rest ++ q :: more)
  | .last hx hr => .last (Climbs.before hq hx) hr
  | .more hx hc hxs => .more (Climbs.before hq hx) hc (ReadsArguments.before hq hxs)
termination_by structural h => h

theorem Extends.before (hq : q.kind ≠ .operator) {least : Int} {ts rest : List Token} {x y : Tree} :
    Extends ops least x ts y rest → Extends ops least x (ts ++ q :: more) y (rest ++ q :: more)
  | .stop hstop => .stop (stops_before hq more hstop)
  | .step ht ho hle hy hz => .step ht ho hle (Climbs.before hq hy) (Extends.before hq hz)
termination_by structural h => h

end

end

/-! ## Further on -/

namespace Tree

mutual

/-- The tree with all its tokens so many characters further on. -/
def shift (k : Nat) : Tree → Tree
  | leaf t => leaf (t.shift k)
  | node t xs => node (t.shift k) (shiftAll k xs)

/-- The trees of a row with all their tokens further on. -/
def shiftAll (k : Nat) : List Tree → List Tree
  | [] => []
  | x :: xs => shift k x :: shiftAll k xs

end

theorem length_shiftAll (k : Nat) (xs : List Tree) : (shiftAll k xs).length = xs.length := by
  induction xs with
  | nil => rfl
  | cons x xs ih => rw [shiftAll, List.length_cons, List.length_cons, ih]

mutual

theorem postorder_shift (k : Nat) : ∀ x : Tree, (shift k x).postorder = x.postorder.map (Token.shift k)
  | leaf t => rfl
  | node t xs => by
    rw [shift, postorder, postorder, List.map_append, postorders_shiftAll k xs]
    rfl

theorem postorders_shiftAll (k : Nat) :
    ∀ xs : List Tree, postorders (shiftAll k xs) = (postorders xs).map (Token.shift k)
  | [] => rfl
  | x :: xs => by
    rw [shiftAll, postorders, postorders, List.map_append, postorder_shift k x, postorders_shiftAll k xs]

end

end Tree

section

variable (k : Nat)

mutual

/-- **Reading does not look at where tokens stand.** -/
theorem Climbs.shift {least : Int} {ts rest : List Token} {x : Tree} :
    Climbs ops least ts x rest → Climbs ops least (ts.map (Token.shift k)) (x.shift k) (rest.map (Token.shift k))
  | .intro hx hext => .intro (ReadsOperand.shift hx) (Extends.shift hext)
termination_by structural h => h

theorem ReadsOperand.shift {ts rest : List Token} {x : Tree} :
    ReadsOperand ops ts x rest → ReadsOperand ops (ts.map (Token.shift k)) (x.shift k) (rest.map (Token.shift k))
  | .plain ht => .plain ht
  | .group hp hx hr => .group hp (Climbs.shift hx) hr
  | .emptyCall hf hp hr => .emptyCall hf hp hr
  | @ReadsOperand.call _ f p _ xs _ hf hp hxs => by
    have hname : (f.shift k).kind = .function := hf
    have hopen : (p.shift k).kind = .leftParen := hp
    have hcall := ReadsOperand.call hname hopen (ReadsArguments.shift hxs)
    rw [length_shiftAll] at hcall
    exact hcall
  | .signed ht ho hx => .signed ht ho (Climbs.shift hx)
termination_by structural h => h

theorem ReadsArguments.shift {ts rest : List Token} {xs : List Tree} :
    ReadsArguments ops ts xs rest →
      ReadsArguments ops (ts.map (Token.shift k)) (shiftAll k xs) (rest.map (Token.shift k))
  | .last hx hr => .last (Climbs.shift hx) hr
  | .more hx hc hxs => .more (Climbs.shift hx) hc (ReadsArguments.shift hxs)
termination_by structural h => h

theorem Extends.shift {least : Int} {ts rest : List Token} {x y : Tree} :
    Extends ops least x ts y rest →
      Extends ops least (x.shift k) (ts.map (Token.shift k)) (y.shift k) (rest.map (Token.shift k))
  | .stop hstop => .stop fun t ht => by
    rw [List.head?_map] at ht
    obtain ⟨u, hu, rfl⟩ := Option.map_eq_some_iff.mp ht
    exact hstop u hu
  | .step ht ho hle hy hz => .step ht ho hle (Climbs.shift hy) (Extends.shift hz)
termination_by structural h => h

end

end

end SciCalc
