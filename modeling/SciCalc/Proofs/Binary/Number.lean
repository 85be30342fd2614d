/-
  The numbers that binary numbers are.

  1. **Numbers** (`number?`) — a finite binary number is a rational number; the others are none.

  2. **Whole numbers** (`number?_of_floor?`, `isIntegral_of_number?`) — a binary number is whole exactly if
     it is an integer, and then its floor is that integer.

  3. **Width** (`two_pow_le`, `lt_two_pow_width`) — between which powers of two a mantissa lies.
-/
import Mathlib.Algebra.Order.Field.Power
import Mathlib.Tactic.FieldSimp
import Mathlib.Tactic.Linarith
import Mathlib.Tactic.Positivity
import Mathlib.Tactic.Ring
import SciCalc.Binary.Integral

namespace SciCalc.Binary

/-! ## Numbers -/

/-- A magnitude with a sign. -/
def withSign (negative : Bool) (r : Rat) : Rat := if negative then -r else r

/-- The number that a finite binary number is. -/
def number? : Binary → Option Rat
  | finite s m e => some (withSign s (m * 2 ^ e))
  | _ => none

@[simp] theorem number?_finite (s : Bool) (m : Nat) (e : Int) :
    (finite s m e).number? = some (withSign s (m * 2 ^ e)) := rfl

@[simp] theorem withSign_zero (s : Bool) : withSign s 0 = 0 := by
  cases s
  · rfl
  · exact neg_zero

theorem abs_withSign (s : Bool) (r : Rat) : |withSign s r| = |r| := by
  cases s
  · rfl
  · exact abs_neg r

/-- Numbers of one sign are as far apart as their magnitudes. -/
theorem abs_withSign_sub (s : Bool) (r q : Rat) : |withSign s r - withSign s q| = |r - q| := by
  cases s
  · rfl
  · rw [withSign, withSign, if_pos rfl, if_pos rfl, neg_sub_neg, abs_sub_comm]

theorem withSign_inj {s : Bool} {r q : Rat} : withSign s r = withSign s q ↔ r = q := by
  cases s
  · exact Iff.rfl
  · exact neg_inj

/-- An integer is its magnitude with its sign. -/
theorem withSign_natAbs (n : Int) : withSign (decide (n < 0)) (n.natAbs : Rat) = n := by
  have hcast : ((n.natAbs : Nat) : Rat) = |(n : Rat)| := by
    rw [Nat.cast_natAbs, Int.cast_abs]
  rw [hcast]
  by_cases hn : n < 0
  · rw [decide_eq_true hn, withSign, if_pos rfl, abs_of_neg (Int.cast_lt_zero.mpr hn), neg_neg]
  · have hle : (0 : Rat) ≤ n := Int.cast_nonneg (by omega)
    rw [decide_eq_false hn, withSign, if_neg Bool.false_ne_true, abs_of_nonneg hle]

theorem withSign_natCast (s : Bool) (k : Nat) :
    withSign s (k : Rat) = ((if s then -(k : Int) else k : Int) : Rat) := by
  cases s
  · exact (Int.cast_natCast k).symm
  · rw [if_pos rfl, Int.cast_neg, Int.cast_natCast]
    rfl

/-- The opposite is the opposite number. -/
theorem number?_neg (x : Binary) : x.neg.number? = x.number?.map (-·) := by
  cases x with
  | finite s m e =>
    cases s
    · rfl
    · exact congrArg some (neg_neg _).symm
  | infinite s => rfl
  | nan => rfl

/-- A zero is the number zero. -/
theorem number?_of_isZero {x : Binary} (h : x.isZero = true) : x.number? = some 0 := by
  cases x with
  | finite s m e =>
    have hm : m = 0 := of_decide_eq_true h
    rw [number?_finite, hm, Nat.cast_zero, zero_mul, withSign_zero]
  | infinite s => cases h
  | nan => cases h

/-- The two spellings of a power of two. -/
theorem two_zpow_natCast (n : Nat) : (2 : Rat) ^ (n : Int) = ((2 ^ n : Nat) : Rat) := by
  rw [zpow_natCast]
  norm_cast

theorem two_zpow_pos (e : Int) : (0 : Rat) < 2 ^ e := zpow_pos two_pos e

/-! ## Whole numbers -/

/-- A mantissa shifted to the right and back again is what it was exactly if no bits are lost. -/
theorem eq_shift_iff {m k : Nat} : m = (m >>> k) <<< k ↔ 2 ^ k ∣ m := by
  rw [Nat.shiftRight_eq_div_pow, Nat.shiftLeft_eq]
  constructor
  · intro h
    exact ⟨m / 2 ^ k, by rw [Nat.mul_comm]; exact h⟩
  · intro h
    exact (Nat.div_mul_cancel h).symm

/-- Bits behind the point are the digits of a fraction. -/
theorem mul_two_zpow_of_neg {e : Int} (he : e < 0) (m : Nat) :
    (m : Rat) * 2 ^ e = m / (2 ^ (-e).toNat : Nat) := by
  obtain ⟨k, rfl⟩ : ∃ k : Nat, e = -k := ⟨(-e).toNat, by omega⟩
  rw [zpow_neg, two_zpow_natCast, div_eq_mul_inv, neg_neg, Int.toNat_natCast]

theorem mul_two_zpow_of_nonneg {e : Int} (he : 0 ≤ e) (m : Nat) :
    (m : Rat) * 2 ^ e = ((m <<< e.toNat : Nat) : Rat) := by
  obtain ⟨k, rfl⟩ : ∃ k : Nat, e = k := ⟨e.toNat, by omega⟩
  rw [two_zpow_natCast, Int.toNat_natCast, Nat.shiftLeft_eq, Nat.cast_mul]

/-- A double that is whole is the integer that its floor is. -/
theorem number?_of_floor? {x : Binary} {n : Int} (whole : x.isIntegral = true) (floor : x.floor? = some n) :
    x.number? = some (n : Rat) := by
  cases x with
  | infinite s => cases whole
  | nan => cases whole
  | finite s m e =>
    rw [number?_finite, Option.some.injEq]
    by_cases he : 0 ≤ e
    · rw [floor?, if_pos he] at floor
      rw [mul_two_zpow_of_nonneg he]
      exact Option.some.inj floor ▸ withSign_natCast s _
    · rw [floor?, if_neg he] at floor
      have hexact : m = (m >>> (-e).toNat) <<< (-e).toNat := by
        simpa [isIntegral, he] using whole
      have hne : ((2 ^ (-e).toNat : Nat) : Rat) ≠ 0 := Nat.cast_ne_zero.mpr (Nat.two_pow_pos _).ne'
      have hquotient : (m : Rat) * 2 ^ e = ((m >>> (-e).toNat : Nat) : Rat) := by
        rw [mul_two_zpow_of_neg (by omega), div_eq_iff hne, ← Nat.cast_mul, ← Nat.shiftLeft_eq, ← hexact]
      rw [hquotient]
      simp only [← hexact, if_true] at floor
      exact Option.some.inj floor ▸ withSign_natCast s _

/-- A double that is an integer is whole, and has a floor. -/
theorem isIntegral_of_number? {x : Binary} {n : Int} (h : x.number? = some (n : Rat)) :
    x.isIntegral = true ∧ ∃ k, x.floor? = some k := by
  cases x with
  | infinite s => cases h
  | nan => cases h
  | finite s m e =>
    refine ⟨?_, ?_⟩
    · by_cases he : 0 ≤ e
      · simp [isIntegral, he]
      · have hm : |(m : Rat) * 2 ^ e| = |(n : Rat)| := by
          rw [← abs_withSign s, Option.some.inj h]
        have hne : ((2 ^ (-e).toNat : Nat) : Rat) ≠ 0 := Nat.cast_ne_zero.mpr (Nat.two_pow_pos _).ne'
        rw [abs_of_nonneg (mul_nonneg m.cast_nonneg (two_zpow_pos e).le), mul_two_zpow_of_neg (by omega),
          div_eq_iff hne, ← Int.cast_abs, Int.abs_eq_natAbs, Int.cast_natCast, ← Nat.cast_mul,
          Nat.cast_inj] at hm
        have hdvd : 2 ^ (-e).toNat ∣ m := ⟨n.natAbs, by rw [hm, Nat.mul_comm]⟩
        simp only [isIntegral, he, decide_false, Bool.false_or, decide_eq_true_eq]
        exact eq_shift_iff.mpr hdvd
    · rw [floor?]
      split <;> exact ⟨_, rfl⟩

/-- The floor of a double that is an integer is this integer. -/
theorem floor?_of_number? {x : Binary} {n : Int} (h : x.number? = some (n : Rat)) : x.floor? = some n := by
  obtain ⟨whole, k, floor⟩ := isIntegral_of_number? h
  have hk := number?_of_floor? whole floor
  rw [h, Option.some.injEq, Int.cast_inj] at hk
  rwa [hk]

/-! ## Width -/

theorem lt_two_pow_width (m : Nat) : m < 2 ^ width m := by
  unfold width
  split
  · rename_i h
    rw [h]
    exact Nat.one_pos
  · exact Nat.lt_log2_self

/-- The width is no greater than it has to be. -/
theorem two_pow_le {m k : Nat} (h : k < width m) : 2 ^ k ≤ m := by
  unfold width at h
  split at h
  · exact absurd h (Nat.not_lt_zero k)
  · rename_i hm
    exact (Nat.pow_le_pow_right Nat.two_pos (by omega)).trans (Nat.log2_self_le hm)

theorem width_pos {m : Nat} (h : m ≠ 0) : 0 < width m := by
  rw [width, if_neg h]
  exact Nat.succ_pos _

/-- A number below a power of two is no wider than its exponent. -/
theorem width_le_iff {m k : Nat} : width m ≤ k ↔ m < 2 ^ k := by
  constructor
  · intro h
    exact (lt_two_pow_width m).trans_le (Nat.pow_le_pow_right Nat.two_pos h)
  · intro h
    by_contra hlt
    exact absurd h (Nat.not_lt.mpr (two_pow_le (by omega)))

end SciCalc.Binary
