/-
  Decimal powers of integers.

  1. **Squaring** (`exists_powBits`) — a power by squaring is exact if the context has room for all powers on the way:
     behind each bit of the exponent the power of the bits so far is reached.

  2. **Range** (`powBeyond?_eq_none`) — a power of an integer that has so many digits as a calculator can use is not
     beyond the range of decimals.

  3. **Powers** (`power_ofInt`) — so the power of an integer that fits the precision is the integer power, but for the
     power of zero to zero, which is undefined.
-/
import SciCalc.Decimal.Power
import SciCalc.Proofs.Decimal.Context
import SciCalc.Proofs.Decimal.Order

namespace SciCalc.Context

open Decimal Number

variable {ctx : Context} {s : Bool} {c n : Nat}

/-! ## Integers in a context -/

/-- A context of as many digits as a calculator can use has room for integers with no more digits. -/
theorem contains_integer (hlimit : (ctx.precision : Int) ≤ maxExponent) (hdigits : digitCount c ≤ ctx.precision)
    (s : Bool) : ctx.Contains (.finite s c 0) := by
  refine ⟨hdigits, ?_, by omega⟩
  rw [tiny, minExponent]
  omega

/-- An integer that fits is brought into the context as it is. -/
theorem plus_ofInt (hlimit : (ctx.precision : Int) ≤ maxExponent) {a : Int}
    (hdigits : digitCount a.natAbs ≤ ctx.precision) : ctx.plus (.ofInt a) = .ok (.ofInt a) := by
  obtain ⟨s', hplus, hsign⟩ := plus_of_contains (contains_integer hlimit hdigits (decide (a < 0)))
  by_cases ha : a = 0
  · subst ha
    exact finish_of_contains (contains_integer hlimit hdigits false)
  · rw [hsign (Int.natAbs_ne_zero.mpr ha)] at hplus
    exact hplus

/-! ## Squaring -/

/-- A bit of the exponent doubles the bits so far and adds itself. -/
theorem shiftRight_eq_double (n bit : Nat) :
    n >>> bit = 2 * (n >>> (bit + 1)) + if n.testBit bit then 1 else 0 := by
  have hhalf : n >>> (bit + 1) = (n >>> bit) / 2 := Nat.shiftRight_succ n bit
  have hbit : n.testBit bit = decide ((n >>> bit) % 2 = 1) := by
    rw [Nat.testBit_eq_decide_div_mod_eq, Nat.shiftRight_eq_div_pow]
  rw [hhalf, hbit]
  split
  · rename_i hodd
    have := of_decide_eq_true hodd
    omega
  · rename_i heven
    have := of_decide_eq_false (Bool.eq_false_iff.mpr heven)
    omega

/-- **A power by squaring is exact** if there is room for all powers up to it: to the bits of the exponent that have
    been read the accumulator is the power. -/
theorem exists_powBits (hroom : ∀ k ≤ n, ∀ t, ctx.Contains (.finite t (c ^ k) 0)) (bit : Nat) :
    ∀ t, ∃ t', ctx.powBits (.finite s c 0) n bit (.finite t (c ^ (n >>> bit)) 0) = .ok (.finite t' (c ^ n) 0) := by
  induction bit with
  | zero => exact fun t => ⟨t, rfl⟩
  | succ bit ih =>
    intro t
    have hdouble := shiftRight_eq_double n bit
    have hle : n >>> bit ≤ n := Nat.shiftRight_le n bit
    have hsquare : ctx.mul (.finite t (c ^ (n >>> (bit + 1))) 0) (.finite t (c ^ (n >>> (bit + 1))) 0) =
        .ok (.finite (t != t) (c ^ (2 * (n >>> (bit + 1)))) 0) := by
      show ctx.finish (t != t) (c ^ (n >>> (bit + 1)) * c ^ (n >>> (bit + 1))) (0 + 0) = _
      rw [← Nat.pow_add, ← Nat.two_mul]
      exact finish_of_contains (hroom _ (by omega) _)
    rw [powBits, hsquare]
    by_cases hbit : n.testBit bit = true
    · rw [if_pos hbit] at hdouble
      have hproduct : ctx.mul (.finite (t != t) (c ^ (2 * (n >>> (bit + 1)))) 0) (.finite s c 0) =
          .ok (.finite ((t != t) != s) (c ^ (n >>> bit)) 0) := by
        show ctx.finish ((t != t) != s) (c ^ (2 * (n >>> (bit + 1))) * c) (0 + 0) = _
        rw [← Nat.pow_succ, Nat.succ_eq_add_one, ← hdouble]
        exact finish_of_contains (hroom _ hle _)
      obtain ⟨t', ht'⟩ := ih ((t != t) != s)
      refine ⟨t', ?_⟩
      simp only [Attempt.ok_bind, hbit, if_true, hproduct]
      exact ht'
    · rw [if_neg hbit, Nat.add_zero] at hdouble
      obtain ⟨t', ht'⟩ := ih (t != t)
      refine ⟨t', ?_⟩
      rw [hdouble] at ht'
      simp only [Attempt.ok_bind, hbit, Bool.false_eq_true, if_false, Attempt.pure_eq_ok]
      exact ht'

/-! ## Range -/

/-- The power of a number with at least two units is no shorter than its exponent allows. -/
theorem lt_of_digitCount_pow {precision : Nat} (hc : 2 ≤ c) (hprecision : 0 < precision)
    (hdigits : digitCount (c ^ n) ≤ precision) : n < 4 * precision := by
  by_contra hlarge
  rw [digitCount_le_iff hprecision] at hdigits
  have hpow : 10 ^ precision ≤ c ^ n :=
    calc 10 ^ precision ≤ (2 ^ 4) ^ precision := Nat.pow_le_pow_left (by omega) _
      _ = 2 ^ (4 * precision) := (Nat.pow_mul 2 4 precision).symm
      _ ≤ 2 ^ n := Nat.pow_le_pow_right Nat.two_pos (Nat.not_lt.mp hlarge)
      _ ≤ c ^ n := Nat.pow_le_pow_left hc n
  omega

/-- Powers of a number are no shorter than lower ones. -/
theorem digitCount_pow_le {precision k : Nat} (hc : c ≠ 0) (hprecision : 0 < precision)
    (hdigits : digitCount (c ^ n) ≤ precision) (hk : k ≤ n) : digitCount (c ^ k) ≤ precision := by
  rw [digitCount_le_iff hprecision] at hdigits ⊢
  exact lt_of_le_of_lt (Nat.pow_le_pow_right (Nat.pos_of_ne_zero hc) hk) hdigits

/-- **A power of an integer of few digits is in range.** -/
theorem powBeyond?_eq_none (hc : 2 ≤ c) (hdigits : digitCount c ≤ 1000) (hn : digitCount n ≤ 4) (negative : Bool) :
    ctx.powBeyond? negative c 0 (.finite false n 0) = none := by
  have hcount := digitCount_pos (show c ≠ 0 by omega)
  have hbound : logLogBound c 0 ≤ 2 := by
    unfold logLogBound
    dsimp only
    split
    · -- more than one digit, but no more than a thousand
      have hdigits : exponentDigits (0 + digitCount c - 1) ≤ 3 := by
        unfold exponentDigits
        have := (digitCount_le_iff (k := 3) (by omega)).mpr (show (0 + (digitCount c : Int) - 1).natAbs < 10 ^ 3 by omega)
        omega
      omega
    split
    · omega
    · have hone : digitCount c = 1 := by omega
      have hless : c < 10 ^ 1 := (digitCount_le_iff Nat.one_pos).mp hone.le
      have hgap : ((aligned c 0 (min 0 0) : Int) - aligned 1 0 (min 0 0)).natAbs < 10 ^ 1 := by
        show (((c * 10 ^ 0 : Nat) : Int) - ((1 * 10 ^ 0 : Nat) : Int)).natAbs < 10 ^ 1
        omega
      have hfew := (digitCount_le_iff Nat.one_pos).mpr hgap
      rw [if_pos (by omega)]
      omega
  have hexponent : (Decimal.finite false n 0).adjusted ≤ 3 := by
    rw [adjusted]
    omega
  have hgreatest : exponentDigits maxExponent = 6 := by decide
  unfold powBeyond?
  dsimp only
  have hlarge : ((decide (0 + (digitCount c : Int) - 1 < 0)) != (Decimal.finite false n 0).isNegative) = false := by
    rw [decide_eq_false (by omega)]
    rfl
  rw [hlarge, hgreatest, Bool.not_false, if_pos rfl]
  exact if_neg (by omega)

/-! ## Powers -/

theorem ofInt_natCast (n : Nat) : Decimal.ofInt n = .finite false n 0 := by
  rw [Decimal.ofInt, decide_eq_false (by omega), Int.natAbs_natCast]

/-- An integer is odd as a decimal if it is. -/
theorem isOdd_natCast (n : Nat) : (Decimal.finite false n 0).isOdd = decide (n % 2 = 1) := by
  show decide ((n * 10 ^ 0 : Int) % 2 = 1) = _
  exact decide_eq_decide.mpr (by omega)

/-- The power of an integer is negative if the base is and the exponent is odd. -/
theorem ofInt_pow (a : Int) (n : Nat) :
    Decimal.ofInt (a ^ n) = .finite (decide (a < 0) && decide (n % 2 = 1)) (a.natAbs ^ n) 0 := by
  have hsign : decide (a ^ n < 0) = (decide (a < 0) && decide (n % 2 = 1)) := by
    rw [← Bool.decide_and, decide_eq_decide]
    rcases Nat.even_or_odd n with heven | hodd
    · have hmod := Nat.even_iff.mp heven
      have hnonneg := heven.pow_nonneg a
      omega
    · have hmod := Nat.odd_iff.mp hodd
      rw [hodd.pow_neg_iff]
      omega
  rw [Decimal.ofInt, hsign, Int.natAbs_pow]

/-- A power by squaring is the integer power. -/
theorem powInt_eq (hlimit : ctx.precision ≤ 1000) (hc : 2 ≤ c) (hn : n ≠ 0) (hcount : digitCount n ≤ 4)
    (hdigits : digitCount (c ^ n) ≤ ctx.precision) (s negative : Bool) :
    ctx.powInt (.finite s c 0) n (digitCount n) negative = .ok (.finite negative (c ^ n) 0) := by
  have hprecision : 0 < ctx.precision :=
    lt_of_lt_of_le (digitCount_pos (pow_ne_zero n (by omega))) hdigits
  have hnatural : ¬ (n : Int) < 0 := by omega
  have hroom : ∀ k ≤ n, ∀ t, (Context.mk (ctx.precision + digitCount n + 2 + 0) .halfEven).Contains
      (.finite t (c ^ k) 0) := by
    intro k hk t
    refine contains_integer ?_ ?_ t
    · rw [maxExponent]
      dsimp only
      omega
    · have := digitCount_pow_le (by omega) hprecision hdigits hk
      dsimp only
      omega
  -- the first bit of the exponent is the base itself
  have hfirst : n >>> n.log2 = 1 := by
    rw [Nat.shiftRight_eq_div_pow]
    have hle := Nat.log2_self_le hn
    have hlt : n < 2 ^ (n.log2 + 1) := Nat.lt_log2_self
    rw [Nat.pow_succ] at hlt
    exact Nat.div_eq_of_lt_le (by omega) (by omega)
  obtain ⟨t', hpower⟩ := exists_powBits (s := s) hroom n.log2 s
  rw [hfirst, Nat.pow_one] at hpower
  unfold powInt
  simp only [if_neg hnatural, Attempt.pure_eq_ok, Attempt.ok_bind, Int.natAbs_natCast, hpower]
  refine finish_of_contains (contains_integer ?_ hdigits negative)
  rw [maxExponent]
  omega

/-- A power of one or minus one. -/
theorem powFinite_unit (ctx : Context) (s : Bool) (n : Nat) :
    ctx.powFinite s 1 0 (.finite false n 0) = .ok (.finite (s && decide (n % 2 = 1)) 1 0) := by
  have hsame : compareMagnitude 1 0 1 0 = .eq := rfl
  have hwhole : (Decimal.finite false n 0).isIntegral = true := rfl
  unfold powFinite powOne
  simp only [if_pos hsame, hwhole, Bool.not_true, Bool.and_false, Bool.false_eq_true, if_false, isOdd_natCast,
    decide_true, Bool.or_true, Bool.and_true, if_true]
  rfl

/-- A power of a base of at least two units. -/
theorem powFinite_eq (hlimit : ctx.precision ≤ 1000) (hc : 2 ≤ c) (hn : n ≠ 0)
    (hdigits : digitCount (c ^ n) ≤ ctx.precision) (s : Bool) :
    ctx.powFinite s c 0 (.finite false n 0) = .ok (.finite (s && decide (n % 2 = 1)) (c ^ n) 0) := by
  have hprecision : 0 < ctx.precision :=
    lt_of_lt_of_le (digitCount_pos (pow_ne_zero n (by omega))) hdigits
  have hbase : digitCount c ≤ ctx.precision := by
    have := digitCount_pow_le (by omega) hprecision hdigits (Nat.one_le_iff_ne_zero.mpr hn)
    rwa [Nat.pow_one] at this
  have hcount : digitCount n ≤ 4 := by
    have := lt_of_digitCount_pow hc hprecision hdigits
    rw [digitCount_le_iff (by omega)]
    omega
  have hother : compareMagnitude c 0 1 0 ≠ .eq := by
    rw [compareMagnitude_eq_cmp, zpow_zero, mul_one, mul_one, Ne, cmp_eq_eq_iff, Nat.cast_inj]
    omega
  have hwhole : (Decimal.finite false n 0).isIntegral = true := rfl
  have hinteger : (Decimal.finite false n 0).toInt? = some (n : Int) :=
    congrArg some (Int.mul_one (n : Int))
  have hlength : exponentLength (.finite false n 0) = digitCount n := by
    rw [exponentLength, Int.add_zero, Int.toNat_natCast]
  unfold powFinite
  simp only [if_neg hother, hwhole, Bool.not_true, Bool.and_false, Bool.false_eq_true, if_false, isOdd_natCast,
    powBeyond?_eq_none hc (hbase.trans hlimit) hcount, hinteger, hlength]
  exact powInt_eq hlimit hc hn hcount hdigits s _

/-- **The power of an integer that fits the precision is the integer power**, but for zero to zero. -/
theorem power_ofInt (ctx : Context) (hlimit : ctx.precision ≤ 1000) {a : Int} (hdefined : ¬ (a = 0 ∧ n = 0))
    (hdigits : digitCount (a ^ n).natAbs ≤ ctx.precision) :
    ctx.power (.ofInt a) (.ofInt n) = .ok (.ofInt (a ^ n)) := by
  rw [Int.natAbs_pow] at hdigits
  rw [ofInt_pow, ofInt_natCast]
  have hwhole : (Decimal.finite false n 0).isIntegral = true := rfl
  unfold power
  simp only [Decimal.ofInt, nanResult?, isOdd_natCast, hwhole, Bool.not_true, Bool.and_false, Bool.false_eq_true,
    if_false]
  have hzero : ∀ {t : Bool} {k : Nat}, (Decimal.finite t k 0).isZero = true ↔ k = 0 := decide_eq_true_iff
  by_cases ha : a = 0
  · -- zero to a positive power
    have hn : n ≠ 0 := fun hn => hdefined ⟨ha, hn⟩
    subst ha
    rw [Int.natAbs_zero, if_pos (hzero.mpr rfl), if_neg (mt hzero.mp hn), Nat.zero_pow (Nat.pos_of_ne_zero hn)]
    rfl
  have hbase := Int.natAbs_ne_zero.mpr ha
  rw [if_neg (mt hzero.mp hbase)]
  by_cases hn : n = 0
  · subst hn
    have heven : decide (0 % 2 = 1) = false := rfl
    rw [if_pos (hzero.mpr rfl), Nat.pow_zero, heven, Bool.and_false]
    rfl
  rw [if_neg (mt hzero.mp hn)]
  by_cases hunit : a.natAbs = 1
  · rw [hunit, Nat.one_pow, powFinite_unit]
  · exact powFinite_eq hlimit (by omega) hn hdigits _

example (ctx : Context) : ctx.power (.ofInt 0) (.ofInt 0) = .error (.undefined .operation) := rfl

end SciCalc.Context
