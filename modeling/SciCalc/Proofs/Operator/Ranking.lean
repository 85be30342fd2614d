/-
  Tables of operators whose precedences fit together.

  Rearranging operators by precedence gives the trees of precedence climbing only for tables of a kind:
  binary operators of one precedence group to the same side, and none that groups to the right has the
  precedence of a prefix operator.  `Ranked` says so of a table.  Whether it holds is decided by going
  through the table once, as it does for the two tables that there are.
-/
import SciCalc.Operator.Basic

namespace SciCalc

namespace Operators

/-! ## Looking up -/

/-- An operator that is found has the key that was asked for. -/
theorem key_of_find? {ops : Operators} {key : String} {o : Operator} (h : ops.find? key = some o) :
    o.key = key := by
  have hkey := List.find?_some h
  exact of_decide_eq_true hkey

/-- An operator that is found stands in the table. -/
theorem mem_of_find? {ops : Operators} {key : String} {o : Operator} (h : ops.find? key = some o) :
    o ∈ ops.all :=
  List.mem_of_find?_eq_some h

/-- A binary operator is one that is found and takes two operands. -/
theorem binary?_eq_some {ops : Operators} {key : String} {o : Operator} :
    ops.binary? key = some o ↔ ops.find? key = some o ∧ o.isBinary = true := by
  rw [binary?, Option.filter_eq_some_iff]

/-- The key of a prefix operator. -/
theorem key_of_unary? {ops : Operators} {symbol : String} {o : Operator}
    (h : ops.unary? symbol = some o) : o.key = "unary" ++ symbol :=
  key_of_find? h

/-! ## Ranked tables -/

/-- The key is one of a prefix operator. -/
def isPrefixKey (key : String) : Bool := "unary".toList.isPrefixOf key.toList

/-- **The precedences of a table fit together.** -/
structure Ranked (ops : Operators) : Prop where
  /-- Every binary operator may stand in an expression. -/
  positive : ∀ o ∈ ops.all, o.isBinary = true → 1 ≤ o.precedence
  /-- Binary operators of one precedence group to the same side. -/
  grouping : ∀ o ∈ ops.all, o.isBinary = true → ∀ p ∈ ops.all, p.isBinary = true →
    o.precedence = p.precedence → o.grouping = p.grouping
  /-- A prefix operator takes one operand. -/
  unary : ∀ o ∈ ops.all, isPrefixKey o.key = true → o.rule.arity = 1
  /-- A binary operator of the precedence of a prefix operator groups to the left. -/
  sign : ∀ o ∈ ops.all, isPrefixKey o.key = true → ∀ p ∈ ops.all, p.isBinary = true →
    o.precedence = p.precedence → p.grouping = .left

instance (ops : Operators) : Decidable ops.Ranked :=
  decidable_of_iff ((∀ o ∈ ops.all, o.isBinary = true → 1 ≤ o.precedence) ∧
      (∀ o ∈ ops.all, o.isBinary = true → ∀ p ∈ ops.all, p.isBinary = true →
        o.precedence = p.precedence → o.grouping = p.grouping) ∧
      (∀ o ∈ ops.all, isPrefixKey o.key = true → o.rule.arity = 1) ∧
      ∀ o ∈ ops.all, isPrefixKey o.key = true → ∀ p ∈ ops.all, p.isBinary = true →
        o.precedence = p.precedence → p.grouping = .left)
    ⟨fun ⟨h₁, h₂, h₃, h₄⟩ => ⟨h₁, h₂, h₃, h₄⟩, fun ⟨h₁, h₂, h₃, h₄⟩ => ⟨h₁, h₂, h₃, h₄⟩⟩

/-- The operators without a calculator are ranked. -/
theorem ranked_basic : Ranked basic := by decide +kernel

/-- The operators of a calculator are ranked. -/
theorem ranked_calculator : Ranked calculator := by decide +kernel

theorem isPrefixKey_of_unary? {ops : Operators} {symbol : String} {o : Operator}
    (h : ops.unary? symbol = some o) : isPrefixKey o.key = true := by
  rw [key_of_unary? h, isPrefixKey, String.toList_append, List.isPrefixOf_iff_prefix]
  exact List.prefix_append _ _

namespace Ranked

variable {ops : Operators}

theorem one_le (r : ops.Ranked) {key : String} {o : Operator} (h : ops.binary? key = some o) :
    1 ≤ o.precedence := by
  obtain ⟨found, binary⟩ := binary?_eq_some.mp h
  exact r.positive o (mem_of_find? found) binary

theorem grouping_eq (r : ops.Ranked) {key key' : String} {o p : Operator}
    (ho : ops.binary? key = some o) (hp : ops.binary? key' = some p)
    (same : o.precedence = p.precedence) : o.grouping = p.grouping := by
  obtain ⟨found, binary⟩ := binary?_eq_some.mp ho
  obtain ⟨found', binary'⟩ := binary?_eq_some.mp hp
  exact r.grouping o (mem_of_find? found) binary p (mem_of_find? found') binary' same

theorem arity_eq_one (r : ops.Ranked) {symbol : String} {o : Operator}
    (h : ops.unary? symbol = some o) : o.rule.arity = 1 :=
  r.unary o (mem_of_find? h) (isPrefixKey_of_unary? h)

theorem grouping_eq_left (r : ops.Ranked) {symbol key : String} {o p : Operator}
    (ho : ops.unary? symbol = some o) (hp : ops.binary? key = some p)
    (same : o.precedence = p.precedence) : p.grouping = .left := by
  obtain ⟨found, binary⟩ := binary?_eq_some.mp hp
  exact r.sign o (mem_of_find? ho) (isPrefixKey_of_unary? ho) p (mem_of_find? found) binary same

end Ranked

end Operators

end SciCalc
