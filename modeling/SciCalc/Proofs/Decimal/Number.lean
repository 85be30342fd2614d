/-
  The numbers that decimals are.

  1. **Numbers** (`number?`) — a finite decimal is a rational number; the others are none.

  2. **Contexts** (`number?_plus_ofInt`) — an integer with no more digits than the precision is kept.

  3. **Doubles** (`number?_toBinary_iff`) — the double of a decimal is the same number exactly if there is
     such a double.
-/
import SciCalc.Decimal.Text
import SciCalc.Proofs.Binary.Reading
import SciCalc.Proofs.Decimal.Context

namespace SciCalc

open Binary (withSign)

/-! ## Numbers -/

/-- The number that a finite decimal is. -/
def Decimal.number? : Decimal → Option Rat
  | .finite s c e => some (withSign s (c * 10 ^ e))
  | _ => none

namespace Decimal

@[simp] theorem number?_finite (s : Bool) (c : Nat) (e : Int) :
    (finite s c e).number? = some (withSign s (c * 10 ^ e)) := rfl

/-- A zero with any exponent is the number zero. -/
theorem number?_zero (s : Bool) (e : Int) : (finite s 0 e).number? = some 0 := by
  rw [number?_finite, Nat.cast_zero, zero_mul, Binary.withSign_zero]

/-- An integer as a decimal is the integer. -/
theorem number?_ofInt (n : Int) : (ofInt n).number? = some (n : Rat) := by
  rw [ofInt, number?_finite, zpow_zero, mul_one, Binary.withSign_natAbs]

/-- Zeros at the end of the coefficient can be counted in the exponent. -/
theorem number?_mul_pow (s : Bool) (c k : Nat) (e : Int) :
    (finite s (c * 10 ^ k) e).number? = (finite s c (e + k)).number? := by
  have hpow : ((c * 10 ^ k : Nat) : Rat) * 10 ^ e = c * 10 ^ (e + k) := by
    rw [Nat.cast_mul, Nat.cast_pow, zpow_add₀ (by norm_num), zpow_natCast, mul_assoc,
      mul_comm ((10 : Rat) ^ e)]
    rfl
  rw [number?_finite, number?_finite, hpow]

theorem isFinite_of_number? {x : Decimal} {r : Rat} (h : x.number? = some r) : x.isFinite = true := by
  cases x with
  | finite s c e => rfl
  | infinite s => cases h
  | nan s q p => cases h

end Decimal

/-! ## Contexts -/

namespace Context

/-- **An integer with no more digits than the precision is kept.** -/
theorem number?_plus_ofInt {ctx : Context} {n : Int} (hdigits : Number.digitCount n.natAbs ≤ ctx.precision)
    (hprecision : ctx.precision ≤ 1000000) :
    ∃ x, ctx.plus (.ofInt n) = .ok x ∧ x.number? = some (n : Rat) := by
  have hfits : ctx.Contains (.ofInt n) := by
    refine ⟨hdigits, ?_, ?_⟩
    · rw [tiny, minExponent]
      omega
    · rw [maxExponent]
      omega
  obtain ⟨s, hplus, hsign⟩ := plus_of_contains hfits
  refine ⟨_, hplus, ?_⟩
  rw [← Decimal.number?_ofInt, Decimal.ofInt]
  by_cases hn : n.natAbs = 0
  · rw [hn, Decimal.number?_zero, Decimal.number?_zero]
  · rw [hsign hn]

end Context

/-! ## Doubles -/

namespace Format

theorem reachesOne_double : double.ReachesOne := by
  intro least limit h
  cases h
  decide

/-- Zero is a number of every format. -/
theorem fits_zero {f : Format} (reaches : f.ReachesOne) : f.Fits 0 := by
  refine ⟨0, 0, Nat.two_pow_pos _, fun least limit h => (reaches least limit h).1, ?_, fun _ limit _ => ?_⟩
  · rw [Nat.cast_zero, zero_mul]
  · exact Binary.two_zpow_pos limit

/-- **The double of a decimal is the same number** exactly if that number is a double. -/
theorem number?_toBinary_iff {x : Decimal} {r : Rat} (hx : x.number? = some r) :
    (x.toBinary double).number? = some r ↔ double.Fits |r| := by
  cases x with
  | infinite s => cases hx
  | nan s q p => cases hx
  | finite s c e =>
    cases hx
    rw [Binary.abs_withSign, Decimal.toBinary]
    by_cases hc : c = 0
    · subst hc
      rw [Nat.cast_zero, zero_mul, abs_zero, Binary.withSign_zero]
      exact iff_of_true (Binary.number?_of_isZero rfl) (fits_zero reachesOne_double)
    · have hrounded := rounded_ofDecimal (f := double) rfl (by decide) reachesOne_double hc s e
      have hpos : (0 : Rat) < c * 10 ^ e :=
        mul_pos (Nat.cast_pos.mpr (Nat.pos_of_ne_zero hc)) (zpow_pos (by norm_num) e)
      rw [abs_of_pos hpos]
      constructor
      · intro hsame
        obtain ⟨a, ha, hvalue⟩ := hrounded.fits (by decide) hsame
        rwa [Binary.withSign_inj.mp hvalue]
      · exact hrounded.number?_of_fits (by decide)

end Format

/-! ## Integers among doubles -/

/-- A double can hold the integer: it has at most 53 bits in front of the zeros at its end, and at most 1024
    in all. -/
def Double.Holds (n : Int) : Prop :=
  ∃ k j : Nat, Binary.width k ≤ 53 ∧ n.natAbs = k * 2 ^ j ∧ Binary.width n.natAbs ≤ 1024

namespace Double

/-- An integer of at most 53 bits can be held. -/
theorem holds_of_width_le {n : Int} (h : Binary.width n.natAbs ≤ 53) : Holds n :=
  ⟨n.natAbs, 0, h, (Nat.mul_one _).symm, h.trans (by decide)⟩

/-- The integers that a double can hold are those of the format. -/
theorem holds_iff_fits {n : Int} : Holds n ↔ Format.double.Fits |(n : Rat)| := by
  have habs : |(n : Rat)| = n.natAbs := by rw [← Int.cast_abs, Int.abs_eq_natAbs, Int.cast_natCast]
  have hrange : Format.double.InRange (n.natAbs : Rat) ↔ Binary.width n.natAbs ≤ 1024 := by
    obtain ⟨limit, hlimit, hrange⟩ : ∃ limit : Nat, limit = 1024 ∧
        Format.double.range = some (-1074, (limit : Int)) := ⟨1024, rfl, rfl⟩
    rw [← hlimit, Binary.width_le_iff, ← Nat.cast_lt (α := Rat), ← Binary.two_zpow_natCast]
    constructor
    · exact fun h => h _ _ hrange
    · intro h least limit hf
      rw [hrange, Option.some.injEq, Prod.mk.injEq] at hf
      rwa [← hf.2]
  rw [habs]
  constructor
  · rintro ⟨k, j, hk, hvalue, hbelow⟩
    refine ⟨k, j, Binary.width_le_iff.mp hk, fun least limit hf => ?_, ?_, hrange.mpr hbelow⟩
    · cases hf
      omega
    · rw [hvalue, Nat.cast_mul, Binary.two_zpow_natCast]
  · rintro ⟨k, i, hk, -, hvalue, hin⟩
    have hbelow := hrange.mp hin
    by_cases hi : 0 ≤ i
    · obtain ⟨j, rfl⟩ := Int.eq_ofNat_of_zero_le hi
      rw [Binary.two_zpow_natCast, ← Nat.cast_mul, Nat.cast_inj] at hvalue
      exact ⟨k, j, Binary.width_le_iff.mpr hk, hvalue, hbelow⟩
    · -- places behind the point only make the mantissa longer
      have hle : (n.natAbs : Rat) ≤ k := by
        rw [hvalue]
        exact mul_le_of_le_one_right k.cast_nonneg (zpow_le_one_of_nonpos₀ one_le_two (by omega))
      exact holds_of_width_le (Binary.width_le_iff.mpr ((Nat.cast_le.mp hle).trans_lt hk))

end Double

end SciCalc
