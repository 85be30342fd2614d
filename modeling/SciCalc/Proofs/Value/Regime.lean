/-
  Integers between regimes.

  A value keeps the form of the regime in which it was stored, and is brought into the active regime when it
  is read.  An integer goes into the decimal regime as it is, if its digits fit
  (`normalize_integer_of_decimal`).  A decimal goes into the exact regime by way of a double, so an integer
  arrives there as itself exactly if a double can hold it (`normalize_eq_integer_iff`).
-/
import SciCalc.Mode
import SciCalc.Proofs.Attempt
import SciCalc.Proofs.Decimal.Number

namespace SciCalc.Modes

variable {m : Modes} {n : Int}

/-- **A double is taken for an integer exactly if it is that integer.** -/
theorem exactReal_eq_integer_iff {x : Binary} : exactReal x = .integer n ↔ x.number? = some (n : Rat) := by
  unfold exactReal
  constructor
  · intro h
    split at h
    · rename_i k whole floor
      cases h
      exact Binary.number?_of_floor? whole floor
    · cases h
  · intro h
    rw [(Binary.isIntegral_of_number? h).1, Binary.floor?_of_number? h]

/-- In the exact regime an integer is read as it is. -/
theorem normalize_integer_of_exact (hm : m.regime = .exact) : m.normalize (.integer n) = .ok (.integer n) := by
  simp only [normalize, normalizeReal, hm]

/-- A double that passes the check is the same double. -/
theorem eq_of_check {x y : Binary} (h : Double.check x = .ok y) : y = x := by
  obtain ⟨a, hdefined, h⟩ := Attempt.bind_eq_ok.mp h
  obtain ⟨b, hunderflow, hoverflow⟩ := Attempt.bind_eq_ok.mp h
  unfold Double.checkDefined at hdefined
  unfold Double.checkUnderflow at hunderflow
  unfold Double.checkOverflow at hoverflow
  split at hdefined <;> cases hdefined
  split at hunderflow <;> cases hunderflow
  split at hoverflow <;> cases hoverflow
  rfl

/-- **A double that is read as an integer in the exact regime is that integer.** -/
theorem number?_of_normalize_real (hm : m.regime = .exact) {x : Binary}
    (h : m.normalize (.real x) = .ok (.integer n)) : x.number? = some (n : Rat) := by
  obtain ⟨y, hcheck, hreal⟩ := Attempt.bind_eq_ok.mp h
  obtain rfl := eq_of_check hcheck
  simp only [normalizeReal, hm, Value.toReal, Attempt.ok_bind, Attempt.pure_eq_ok, Except.ok.injEq] at hreal
  exact exactReal_eq_integer_iff.mp hreal

/-- In the exact regime a finite decimal is read as its double, or the integer that this is. -/
theorem normalize_decimal_of_exact (hm : m.regime = .exact) {x : Decimal} (hx : x.isFinite = true)
    (ctx : Context) : m.normalize (.decimal x ctx) = .ok (exactReal (x.toBinary .double)) := by
  cases x with
  | finite s c e =>
    simp only [normalize, normalizeReal, hm]
    rfl
  | infinite s => cases hx
  | nan s q p => cases hx

/-- **A decimal is read as the integer that it is exactly if a double can hold this integer.** -/
theorem normalize_eq_integer_iff (hm : m.regime = .exact) {x : Decimal} (hx : x.number? = some (n : Rat))
    (ctx : Context) : m.normalize (.decimal x ctx) = .ok (.integer n) ↔ Double.Holds n := by
  rw [normalize_decimal_of_exact hm (Decimal.isFinite_of_number? hx), Except.ok.injEq,
    exactReal_eq_integer_iff, Format.number?_toBinary_iff hx, Double.holds_iff_fits]

/-- **In the decimal regime an integer with no more digits than the precision is read as that number.** -/
theorem normalize_integer_of_decimal (hm : m.regime = .decimal)
    (hdigits : Number.digitCount n.natAbs ≤ m.precision) (hleast : Limit.leastPrecision ≤ m.precision)
    (hmost : m.precision ≤ Limit.greatestPrecision) :
    ∃ x, m.normalize (.integer n) = .ok (.decimal x m.context) ∧ x.number? = some (n : Rat) := by
  have hmillion : Limit.greatestPrecision ≤ 1000000 := by decide
  have hdigits' : Number.digitCount n.natAbs ≤ m.context.precision := hdigits
  obtain ⟨x, hplus, hx⟩ := Context.number?_plus_ofInt hdigits' (hmost.trans hmillion)
  have hentered : m.context.precision ≠ 0 := Nat.ne_of_gt hleast
  refine ⟨x, ?_, hx⟩
  simp only [normalize, normalizeReal, hm, Value.toDecimal, Value.exactDecimal, Attempt.ok_bind, hplus,
    Context.entered, if_neg hentered]
  rfl

end SciCalc.Modes
