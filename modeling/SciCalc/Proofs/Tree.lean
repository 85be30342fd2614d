/-
  Expressions as trees.

  A row of tokens in postfix order is read off a tree: a node stands behind its operands.  `postorder` is
  that row, `operations` counts the operators and calls in it, and `subtrees` lists the trees that the row is
  made of, each behind those below it.
-/
import SciCalc.Token.Basic

namespace SciCalc

/-- An expression: an operand, or an operator or a function with its operands. -/
inductive Tree where
  | leaf (token : Token)
  | node (token : Token) (operands : List Tree)

namespace Tree

/-- The token stands for an operand. -/
def isOperand (t : Token) : Prop := t.kind = .number ∨ t.kind = .constant ∨ t.kind = .variable

theorem not_isOperand_of_kind {t : Token} {k : TokenKind} (hk : t.kind = k)
    (h : ¬ (k = .number ∨ k = .constant ∨ k = .variable)) : ¬ isOperand t := by
  rw [isOperand, hk]
  exact h

mutual

/-- The tokens of a tree in post-order. -/
def postorder : Tree → List Token
  | leaf t => [t]
  | node t xs => postorders xs ++ [t]

/-- The tokens of a row of trees, one tree after the other. -/
def postorders : List Tree → List Token
  | [] => []
  | x :: xs => postorder x ++ postorders xs

end

mutual

/-- The number of operators and calls. -/
def operations : Tree → Nat
  | leaf _ => 0
  | node _ xs => operationsOf xs + 1

/-- The number of operators and calls in a row of trees. -/
def operationsOf : List Tree → Nat
  | [] => 0
  | x :: xs => operations x + operationsOf xs

end

mutual

/-- The trees within a tree in post-order, the tree itself as the last one. -/
def subtrees : Tree → List Tree
  | leaf t => [leaf t]
  | node t xs => subtreesOf xs ++ [node t xs]

/-- The trees within a row of trees. -/
def subtreesOf : List Tree → List Tree
  | [] => []
  | x :: xs => subtrees x ++ subtreesOf xs

end

theorem postorders_append : ∀ xs ys : List Tree, postorders (xs ++ ys) = postorders xs ++ postorders ys
  | [], ys => rfl
  | x :: xs, ys => by
    rw [List.cons_append, postorders, postorders, postorders_append xs ys, List.append_assoc]

/-- The post-order of a row that ends with an operand. -/
theorem postorders_concat_leaf (xs : List Tree) (t : Token) :
    postorders (xs ++ [leaf t]) = postorders xs ++ [t] := by
  rw [postorders_append, postorders, postorder, postorders, List.append_nil]

/-- The post-order of a row that ends with a node. -/
theorem postorders_concat_node (xs : List Tree) (t : Token) (ys : List Tree) :
    postorders (xs ++ [node t ys]) = postorders (xs ++ ys) ++ [t] := by
  rw [postorders_append, postorders, postorder, postorders, List.append_nil, postorders_append,
    List.append_assoc]

/-- Every tree has a token. -/
theorem postorders_eq_nil {xs : List Tree} (h : postorders xs = []) : xs = [] := by
  rcases List.eq_nil_or_concat xs with rfl | ⟨xs, x, rfl⟩
  · rfl
  · rw [List.concat_eq_append] at h
    cases x with
    | leaf t =>
      rw [postorders_concat_leaf] at h
      exact absurd h (List.concat_ne_nil t _)
    | node t ys =>
      rw [postorders_concat_node] at h
      exact absurd h (List.concat_ne_nil t _)

end Tree

end SciCalc
