/-
  Arithmetic is blameless.

  Whatever goes wrong with numbers tells of numbers: a division by zero, a result out of range, a fault of
  the plain arithmetic underneath.  One lemma for each operation on doubles, complex numbers, operands and
  values, and for what the modes make of a value; each is settled by those of the operations that it uses.
-/
import SciCalc.Constant
import SciCalc.Mode
import SciCalc.Proofs.Blame
import SciCalc.Proofs.Value.Integer
import SciCalc.Value.Arithmetic

namespace SciCalc

open Attempt

/-! ## Doubles -/

namespace Double

@[simp] theorem checkOverflow_blameless (x : Binary) : Blameless (checkOverflow x) := by
  cases x <;> simp [checkOverflow]

@[simp] theorem checkUnderflow_blameless (x : Binary) : Blameless (checkUnderflow x) := by
  simp [checkUnderflow]

@[simp] theorem checkDefined_blameless (x : Binary) : Blameless (checkDefined x) := by
  simp [checkDefined]

@[simp] theorem check_blameless (x : Binary) : Blameless (check x) := by
  simp [check]

end Double

/-! ## Complex numbers -/

namespace Complex

@[simp] theorem div_blameless (z w : Complex) : Blameless (z.div w) := by
  simp [div]

@[simp] theorem reciprocal_blameless (z : Complex) : Blameless z.reciprocal := by
  simp [reciprocal]

@[simp] theorem exp_blameless (z : Complex) : Blameless z.exp := blameless_ofFault _

@[simp] theorem ln_blameless (z : Complex) : Blameless z.ln := by
  simp [ln]

@[simp] theorem sqrt_blameless (z : Complex) : Blameless z.sqrt := blameless_ofFault _

@[simp] theorem expTurned_blameless (z : Complex) (back : Bool) : Blameless (z.expTurned back) :=
  exp_blameless _

@[simp] theorem sin_blameless (z : Complex) : Blameless z.sin := by
  simp [sin]

@[simp] theorem cos_blameless (z : Complex) : Blameless z.cos := by
  simp [cos]

@[simp] theorem tan_blameless (z : Complex) : Blameless z.tan := by
  simp [tan]

@[simp] theorem integerPower_blameless (z : Complex) (n : Int) : Blameless (z.integerPower n) := by
  simp [integerPower]

@[simp] theorem power_blameless (z w : Complex) : Blameless (z.power w) := by
  unfold power
  split
  · exact integerPower_blameless _ _
  · simp

end Complex

/-! ## Values -/

namespace Value

@[simp] theorem toReal_blameless (v : Value) : Blameless v.toReal := by
  cases v with
  | real x => exact blameless_ok x
  | integer n =>
    simp only [toReal]
    split <;> simp
  | complex z => simp [toReal]
  | decimal x ctx =>
    simp only [toReal]
    split <;> simp

@[simp] theorem toComplex_blameless (v : Value) : Blameless v.toComplex := by
  cases v <;> simp [toComplex]

@[simp] theorem exactDecimal_blameless (v : Value) : Blameless v.exactDecimal := by
  cases v <;> simp [exactDecimal]

@[simp] theorem toDecimal_blameless (ctx : Context) (v : Value) : Blameless (v.toDecimal ctx) := by
  simp [toDecimal]

@[simp] theorem promote_blameless (v w : Value) : Blameless (v.promote w) := by
  unfold promote
  split
  · simp
  · split <;> simp

end Value

namespace Operands

@[simp] theorem decimalResult_blameless (ctx : Context) (r : Except Fault Decimal) :
    Blameless (decimalResult ctx r) :=
  blameless_ofFault _

@[simp] theorem add_blameless (o : Operands) : Blameless o.add := by
  cases o <;> simp [add]

@[simp] theorem sub_blameless (o : Operands) : Blameless o.sub := by
  cases o <;> simp [sub]

@[simp] theorem mul_blameless (o : Operands) : Blameless o.mul := by
  cases o <;> simp [mul]

@[simp] theorem divInteger_blameless (n m : Int) : Blameless (divInteger n m) := by
  simp [divInteger]

@[simp] theorem div_blameless (o : Operands) : Blameless o.div := by
  cases o <;> simp [div]

@[simp] theorem modulo_blameless (o : Operands) : Blameless o.modulo := by
  cases o <;> simp [modulo]

@[simp] theorem floorDivide_blameless (o : Operands) : Blameless o.floorDivide := by
  cases o <;> simp [floorDivide]

@[simp] theorem powReal_blameless (x y : Binary) : Blameless (powReal x y) := by
  unfold powReal
  rw [blameless_bind]
  refine ⟨blameless_ofFault _, ?_⟩
  intro r _
  cases r <;> simp

@[simp] theorem powInteger_blameless (n m : Int) : Blameless (powInteger n m) := by
  simp [powInteger]

@[simp] theorem power_blameless (o : Operands) : Blameless o.power := by
  cases o <;> simp [power]

@[simp] theorem compare_blameless (o : Operands) : Blameless o.compare := by
  cases o with
  | decimal x y ctx other =>
    simp only [compare]
    split <;> simp
  | _ => simp [compare]

@[simp] theorem equal_blameless (o : Operands) : Blameless o.equal := by
  cases o <;> simp [equal]

end Operands

namespace Value

@[simp] theorem neg_blameless (v : Value) : Blameless v.neg := by
  cases v <;> simp [neg]

@[simp] theorem add_blameless (v w : Value) : Blameless (v.add w) := by
  simp [add]

/-- A value is shown, or fails to be, without blame. -/
@[simp] theorem shown_blameless (v : Value) : Blameless v.shown := by
  cases v with
  | integer n =>
    rw [shown, format_integer]
    exact blameless_ok _
  | _ => simp [shown, format, formatDecimal]

end Value

/-- A plain object becomes a value, or fails to, without blame. -/
@[simp] theorem Plain.toValue_blameless (precision : Nat) (p : Plain) : Blameless (p.toValue precision) := by
  cases p with
  | text s =>
    simp only [toValue]
    split <;> simp
  | _ => simp [toValue]

@[simp] theorem Constant.toValue_blameless (c : Constant) (ctx? : Option Context) :
    Blameless (c.toValue ctx?) := by
  unfold toValue
  split
  · exact blameless_ok _
  · split <;> simp

/-! ## Modes -/

namespace Modes

@[simp] theorem round_blameless (m : Modes) (v : Value) : Blameless (m.round v) := by
  cases v <;> simp [round]

@[simp] theorem literalDouble_blameless (text : String) : Blameless (literalDouble text) := by
  unfold literalDouble
  split <;> simp

/-- A numeral is read, or fails to be, without blame. -/
@[simp] theorem literal_blameless (m : Modes) (text : String) : Blameless (m.literal text) := by
  unfold literal
  split
  · simp
  · rw [blameless_bind]
    refine ⟨blameless_ofFault _, ?_⟩
    intro x _
    split <;> simp
  · exact literalDouble_blameless text

@[simp] theorem settleComplex_blameless (m : Modes) (z : Complex) : Blameless (m.settleComplex z) := by
  simp [settleComplex]

@[simp] theorem normalizeReal_blameless (m : Modes) (v : Value) : Blameless (m.normalizeReal v) := by
  unfold normalizeReal
  split
  · simp
  · split <;> simp
  · split <;> simp

/-- A result is brought into the active regime, or fails to be, without blame. -/
@[simp] theorem normalize_blameless (m : Modes) (v : Value) : Blameless (m.normalize v) := by
  cases v with
  | complex z =>
    simp only [normalize, blameless_bind]
    refine ⟨settleComplex_blameless m z, ?_⟩
    intro r _
    cases r <;> simp
  | _ => simp [normalize]

end Modes

end SciCalc
