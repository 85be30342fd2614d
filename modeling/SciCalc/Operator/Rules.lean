/-
  What operators compute.

  Comparisons and logical operators give one or zero.
-/
import SciCalc.Function.Power
import SciCalc.Operator.Basic

namespace SciCalc

/-- One if a condition holds, and else zero. -/
def truth (b : Bool) : Value := .integer (if b then 1 else 0)

/-- The value of a prefix operator. -/
def UnaryRule.apply : UnaryRule → Value → Except Failure Value
  | identity, v => .ok v
  | negation, v => v.neg
  | host call, v => call v

namespace BinaryRule

/-- The truth of a condition on the order of two operands. -/
def ordered (o : Operands) (holds : Int → Bool) : Except Failure Value := do
  return truth (holds (← o.compare))

/-- The value of a binary operator. -/
def apply (m : Modes) (rule : BinaryRule) (o : Operands) : Except Failure Value :=
  match rule with
  | add => o.add
  | subtract => o.sub
  | multiply => o.mul
  | divide => o.div
  | modulo => o.modulo
  | floorDivide => o.floorDivide
  | power => o.power
  | guardedModulo =>
    if o.values.2.isZero then .error (.divisionByZero .modulo) else o.modulo
  | guardedFloorDivide =>
    if o.values.2.isZero then .error (.divisionByZero .division) else o.floorDivide
  | generalPower => o.values.1.power m o.values.2
  | less => ordered o (· < 0)
  | greater => ordered o (0 < ·)
  | atMost => ordered o (· ≤ 0)
  | atLeast => ordered o (0 ≤ ·)
  | equal => return truth (← o.equal)
  | unequal => return truth !(← o.equal)
  | both => .ok (truth (!o.values.1.isZero && !o.values.2.isZero))
  | either => .ok (truth (!o.values.1.isZero || !o.values.2.isZero))
  | host call => call o.values.1 o.values.2

end BinaryRule

namespace OperatorRule

/-- The value of an operator for as many operands as it takes, which are not promoted. -/
def apply (m : Modes) (rule : OperatorRule) (args : List Value) : Except Failure Value :=
  match rule, args with
  | unary rule, [v] => rule.apply v
  | binary .generalPower, [v, w] => v.power m w
  | binary rule, [v, w] => do rule.apply m (← Operands.ofGiven v w)
  | _, _ => .error (.unexpected "TypeError" "wrong number of operands")

end OperatorRule

end SciCalc
