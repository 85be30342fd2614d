/-
  How far rounding moves a decimal.

  1. **Quotients** (`floor_div_of`, `ceil_div_of`) — floor and ceiling of a quotient, by what is left of a division
     with remainder.

  2. **Cutting off digits** (`shift_eq`) — the quotient by the power of ten, or one more.  Toward an infinity or
     toward zero it is the floor or the ceiling of the quotient, to the nearest it is at most a half away
     (`shift_halfEven_close`).

  3. **Finishing** (`exists_finish`) — a result below the greatest power of ten is finished, and what is left is
     the number that the shift leaves at the exponent of the last digit kept.  There is no result where it is beyond
     that power (`finish_eq_error`), or what is left of it (`finish_eq_error_of_left`).

  4. **Sums** (`exists_addFinite`) — a sum is the exact sum, finished once.
-/
import Mathlib.Data.Rat.Floor
import SciCalc.Proofs.Decimal.Number
import SciCalc.Proofs.Decimal.Order

namespace SciCalc

open Binary (withSign)
open Decimal (ten_zpow_pos)

/-! ## Quotients -/

section

variable {u v r : Rat} {q : Nat}

/-- What goes into a number some times, and leaves less than itself, is as often the floor of the quotient … -/
theorem floor_div_of (hv : 0 < v) (h : u = v * q + r) (hr : 0 ≤ r) (hless : r < v) : ⌊u / v⌋ = (q : Int) := by
  have hquotient : u / v = q + r / v := by rw [h, add_div, mul_div_cancel_left₀ _ hv.ne']
  rw [hquotient, Int.floor_natCast_add, Int.floor_eq_zero_iff.mpr ⟨div_nonneg hr hv.le, (div_lt_one hv).mpr hless⟩,
    add_zero]

/-- … and its ceiling is one more, unless nothing is left. -/
theorem ceil_div_of (hv : 0 < v) (h : u = v * q + r) (hr : 0 ≤ r) (hless : r < v) :
    ⌈u / v⌉ = (q : Int) + if r = 0 then 0 else 1 := by
  have hquotient : u / v = r / v + q := by rw [h, add_div, mul_div_cancel_left₀ _ hv.ne', add_comm]
  rw [hquotient, Int.ceil_add_natCast, add_comm, add_right_inj]
  split
  · rename_i hzero
    rw [hzero, zero_div, Int.ceil_zero]
  · rename_i hrest
    rw [Int.ceil_eq_iff, Int.cast_one, sub_self]
    exact ⟨div_pos (lt_of_le_of_ne hr (Ne.symm hrest)) hv, ((div_lt_one hv).mpr hless).le⟩

end

/-! ## Cutting off digits -/

namespace Rounding

variable {s : Bool} {c k : Nat}

/-- Less than a tenth of a unit counts as any other rest below a half. -/
theorem increments_small (mode : Rounding) (s : Bool) (hc : c ≠ 0) (h : 10 * c < 10 ^ k) :
    mode.increments s 0 (min c 1) 10 = mode.increments s 0 c (10 ^ k) := by
  have hone : min c 1 = 1 := by omega
  unfold increments
  rw [hone, if_neg Nat.one_ne_zero, if_neg hc]
  cases mode with
  | down => rfl
  | up => rfl
  | ceiling => rfl
  | floor => rfl
  | halfUp => exact decide_eq_decide.mpr (by omega)
  | halfEven =>
    have hless : ¬ 10 ^ k < 2 * c := by omega
    have hother : ¬ 2 * c = 10 ^ k := by omega
    simp [hless, hother]

/-- **What is left of a coefficient** is the quotient, or one more. -/
theorem shift_eq (mode : Rounding) (s : Bool) (c k : Nat) :
    mode.shift s c k =
      c / 10 ^ k + if mode.increments s (c / 10 ^ k) (c % 10 ^ k) (10 ^ k) then 1 else 0 := by
  unfold shift
  split
  · rename_i hdrop
    by_cases hc : c = 0
    · subst hc
      rw [Nat.zero_div, Nat.zero_mod]
      rfl
    · -- more digits are dropped than there are, so nothing but a rest is left
      have htenth : 10 * c < 10 ^ k := by
        have hlt := Number.lt_pow_digitCount hc
        have hle : 10 ^ (Number.digitCount c + 1) ≤ 10 ^ k := Nat.pow_le_pow_right (by omega) hdrop
        rw [Nat.pow_succ] at hle
        omega
      have hlt : c < 10 ^ k := by omega
      rw [Nat.div_eq_of_lt hlt, Nat.mod_eq_of_lt hlt, Nat.zero_add, increments_small mode s hc htenth]
  · dsimp only
    split <;> rfl

/-- A zero leaves a zero. -/
theorem shift_zero (mode : Rounding) (s : Bool) (k : Nat) : mode.shift s 0 k = 0 := by
  rw [shift_eq, Nat.zero_div, Nat.zero_mod]
  rfl

/-- Nothing changes if no digits are dropped. -/
theorem shift_none (mode : Rounding) (s : Bool) (c : Nat) : mode.shift s c 0 = c := by
  rw [shift_eq, Nat.pow_zero, Nat.div_one, Nat.mod_one]
  rfl

/-- As many units as are in the number are left of it. -/
theorem le_shift (mode : Rounding) {n : Nat} (h : n * 10 ^ k ≤ c) : n ≤ mode.shift s c k := by
  rw [shift_eq]
  exact Nat.le_add_right_of_le ((Nat.le_div_iff_mul_le (Nat.pow_pos (by omega))).mpr h)

/-- The coefficient is made up of the quotient and a rest that is less than a unit. -/
theorem eq_mul_quotient_add_rest (c k : Nat) :
    (c : Rat) = 10 ^ k * (c / 10 ^ k : Nat) + (c % 10 ^ k : Nat) ∧ ((c % 10 ^ k : Nat) : Rat) < 10 ^ k := by
  have hsplit : ((10 ^ k * (c / 10 ^ k) + c % 10 ^ k : Nat) : Rat) = c := congrArg _ (Nat.div_add_mod c _)
  have hless : ((c % 10 ^ k : Nat) : Rat) < ((10 ^ k : Nat) : Rat) :=
    Nat.cast_lt.mpr (Nat.mod_lt c (Nat.pow_pos (by omega)))
  rw [Nat.cast_add, Nat.cast_mul, Nat.cast_pow, Nat.cast_ofNat] at hsplit
  rw [Nat.cast_pow, Nat.cast_ofNat] at hless
  exact ⟨hsplit.symm, hless⟩

theorem floor_div_ten_pow (c k : Nat) : ⌊(c : Rat) / 10 ^ k⌋ = (c / 10 ^ k : Nat) := by
  obtain ⟨hsplit, hless⟩ := eq_mul_quotient_add_rest c k
  exact floor_div_of (by positivity) hsplit (Nat.cast_nonneg _) hless

theorem ceil_div_ten_pow (c k : Nat) :
    ⌈(c : Rat) / 10 ^ k⌉ = ((c / 10 ^ k + if c % 10 ^ k = 0 then 0 else 1 : Nat) : Int) := by
  obtain ⟨hsplit, hless⟩ := eq_mul_quotient_add_rest c k
  rw [ceil_div_of (by positivity) hsplit (Nat.cast_nonneg _) hless]
  simp only [Nat.cast_eq_zero]
  split <;> rfl

/-- Toward zero it is the floor of the magnitude. -/
theorem shift_down (s : Bool) (c k : Nat) : ((down.shift s c k : Nat) : Int) = ⌊(c : Rat) / 10 ^ k⌋ := by
  rw [floor_div_ten_pow, shift_eq]
  simp [increments]

/-- Toward negative infinity it is the floor of the number. -/
theorem shift_floor (s : Bool) (c k : Nat) :
    ((floor.shift s c k : Nat) : Int) = if s then ⌈(c : Rat) / 10 ^ k⌉ else ⌊(c : Rat) / 10 ^ k⌋ := by
  rw [floor_div_ten_pow, ceil_div_ten_pow, shift_eq]
  cases s <;> by_cases hrest : c % 10 ^ k = 0 <;> simp [increments, hrest]

/-- Toward positive infinity it is the ceiling of the number. -/
theorem shift_ceiling (s : Bool) (c k : Nat) :
    ((ceiling.shift s c k : Nat) : Int) = if s then ⌊(c : Rat) / 10 ^ k⌋ else ⌈(c : Rat) / 10 ^ k⌉ := by
  rw [floor_div_ten_pow, ceil_div_ten_pow, shift_eq]
  cases s <;> by_cases hrest : c % 10 ^ k = 0 <;> simp [increments, hrest]

/-- The number is the quotient and a part of a unit, which is compared with a half as the rest is. -/
theorem exists_part (c k : Nat) :
    ∃ x : Rat, (c : Rat) / 10 ^ k = (c / 10 ^ k : Nat) + x ∧ 0 ≤ x ∧ x < 1 ∧
      (1 / 2 ≤ x ↔ 10 ^ k ≤ 2 * (c % 10 ^ k)) ∧ (x ≤ 1 / 2 ↔ 2 * (c % 10 ^ k) ≤ 10 ^ k) := by
  obtain ⟨hsplit, hless⟩ := eq_mul_quotient_add_rest c k
  have hpos : (0 : Rat) < 10 ^ k := by positivity
  refine ⟨((c % 10 ^ k : Nat) : Rat) / 10 ^ k, ?_, by positivity, (div_lt_one hpos).mpr hless, ?_, ?_⟩
  · rw [div_eq_iff hpos.ne', add_mul, div_mul_cancel₀ _ hpos.ne', mul_comm]
    exact hsplit
  · rw [div_le_div_iff₀ two_pos hpos, one_mul, mul_comm]
    norm_cast
  · rw [div_le_div_iff₀ hpos two_pos, one_mul, mul_comm]
    norm_cast

/-- With a half away from zero it is the floor of the magnitude plus a half. -/
theorem shift_halfUp (s : Bool) (c k : Nat) :
    ((halfUp.shift s c k : Nat) : Int) = ⌊(c : Rat) / 10 ^ k + 1 / 2⌋ := by
  obtain ⟨x, hquotient, hleft, hless, hhalf, -⟩ := exists_part c k
  have hunit : 0 < 10 ^ k := Nat.pow_pos (by omega)
  have hincrements : halfUp.increments s (c / 10 ^ k) (c % 10 ^ k) (10 ^ k) = true ↔ 10 ^ k ≤ 2 * (c % 10 ^ k) := by
    simp only [increments]
    split
    · exact iff_of_false Bool.false_ne_true (by omega)
    · exact decide_eq_true_iff
  rw [shift_eq, hquotient, add_assoc, Int.floor_natCast_add, Nat.cast_add]
  split
  · rename_i hup
    have hover := hhalf.mpr (hincrements.mp hup)
    have hone : ⌊x + 1 / 2⌋ = 1 := Int.floor_eq_iff.mpr ⟨by push_cast; linarith, by push_cast; linarith⟩
    rw [hone]
    rfl
  · rename_i hdown
    have hunder := not_le.mp (mt hhalf.mp (mt hincrements.mpr hdown))
    have hzero : ⌊x + 1 / 2⌋ = 0 := Int.floor_eq_iff.mpr ⟨by push_cast; linarith, by push_cast; linarith⟩
    rw [hzero]
    rfl

/-- **To the nearest it is at most a half away.** -/
theorem shift_halfEven_close (s : Bool) (c k : Nat) :
    |((halfEven.shift s c k : Nat) : Rat) - c / 10 ^ k| ≤ 1 / 2 := by
  obtain ⟨x, hquotient, hleft, hless, hover, hunder⟩ := exists_part c k
  rw [shift_eq, hquotient, Nat.cast_add, add_sub_add_left_eq_sub]
  split
  · rename_i hup
    -- rounded up, so the rest is no less than a half
    have hhalf : 10 ^ k ≤ 2 * (c % 10 ^ k) := by
      simp only [increments] at hup
      split at hup
      · cases hup
      · simp only [Bool.or_eq_true, decide_eq_true_eq, Bool.and_eq_true] at hup
        omega
    have hge := hover.mpr hhalf
    rw [Nat.cast_one, abs_of_pos (by linarith)]
    linarith
  · rename_i hdown
    have hhalf : 2 * (c % 10 ^ k) ≤ 10 ^ k := by
      simp only [increments] at hdown
      split at hdown
      · omega
      · simp only [Bool.or_eq_true, decide_eq_true_eq, Bool.and_eq_true, not_or] at hdown
        omega
    rw [Nat.cast_zero, zero_sub, abs_neg, abs_of_nonneg hleft]
    exact hunder.mpr hhalf

end Rounding

/-! ## Finishing -/

/-- How many digits a number has in front of an exponent tells which powers of ten it is below. -/
theorem Decimal.lt_ten_zpow_iff {c : Nat} (hc : c ≠ 0) {e k : Int} :
    (c : Rat) * 10 ^ e < 10 ^ k ↔ e + Number.digitCount c ≤ k := by
  have hten : (1 : Rat) < 10 := by norm_num
  constructor
  · intro h
    have hpow : (10 : Rat) ^ (e + Number.digitCount c - 1) < 10 ^ k :=
      lt_of_le_of_lt (Format.ten_zpow_le hc) h
    have := (zpow_lt_zpow_iff_right₀ hten).mp hpow
    omega
  · intro h
    exact lt_of_lt_of_le (Format.lt_ten_zpow hc) (zpow_le_zpow_right₀ hten.le h)

namespace Context

variable {ctx : Context} {s : Bool} {c : Nat} {e : Int}

/-- The magnitude that is left when a result is finished. -/
def finished (ctx : Context) (s : Bool) (c : Nat) (e : Int) : Rat :=
  (ctx.rounding.shift s c (ctx.surplus c e) : Nat) * 10 ^ (e + ctx.surplus c e)

/-- A number that is not too small loses the digits that its coefficient has too many. -/
theorem surplus_of_le (ctx : Context) (h : minExponent ≤ e + Number.digitCount c - 1) :
    ctx.surplus c e = Number.digitCount c - ctx.precision := by
  unfold surplus
  dsimp only
  rw [if_neg (Int.not_lt.mpr h)]

/-- A coefficient that is short enough loses no digits. -/
theorem surplus_eq_zero (hdigits : Number.digitCount c ≤ ctx.precision) (hleast : ctx.tiny ≤ e) :
    ctx.surplus c e = 0 := by
  unfold surplus
  dsimp only
  split <;> omega

/-- Nothing is finished beyond the greatest exponent. -/
theorem finish_eq_error (hc : c ≠ 0) (h : (10 : Rat) ^ (maxExponent + 1) ≤ c * 10 ^ e) :
    ctx.finish s c e = .error .decimalOverflow := by
  have hbeyond := mt (Decimal.lt_ten_zpow_iff hc (k := maxExponent + 1)).mpr (not_lt.mpr h)
  unfold finish
  rw [if_neg hc, if_pos (by omega)]

/-- A coefficient of a digit more than fit is a power of ten, and a tenth of it is one that fits. -/
theorem tenth_of_carried {q precision : Nat} (hprecision : 0 < precision) (hrounded : q ≤ 10 ^ precision)
    (hcarried : precision < Number.digitCount q) : q / 10 * 10 = q ∧ q / 10 ≠ 0 := by
  have hnot := mt (Number.digitCount_le_iff hprecision).mpr (Nat.not_le.mpr hcarried)
  obtain ⟨p, rfl⟩ := Nat.exists_eq_succ_of_ne_zero hprecision.ne'
  obtain rfl : q = 10 ^ p * 10 := by
    rw [Nat.pow_succ] at hrounded hnot
    omega
  have hpos : 0 < 10 ^ p := Nat.pow_pos (by omega)
  constructor <;> omega

/-- A result that is not beyond the greatest exponent is finished as digits that are what is left, unless those
    are beyond it. -/
theorem exists_left (ctx : Context) (hprecision : 0 < ctx.precision) (hc : c ≠ 0)
    (hexact : (c : Rat) * 10 ^ e < 10 ^ (maxExponent + 1)) :
    ∃ (q : Nat) (k : Int), (q : Rat) * 10 ^ k = ctx.finished s c e ∧ (q = 0 → k ≤ maxExponent) ∧
      ctx.finish s c e =
        if maxExponent < k + Number.digitCount q - 1 then .error .decimalOverflow else .ok (.finite s q k) := by
  have hcount := Number.digitCount_pos hc
  have hrange := (Decimal.lt_ten_zpow_iff hc).mp hexact
  obtain ⟨hdigits, -⟩ := ctx.surplus_spec c e
  have hlast : e + ctx.surplus c e ≤ maxExponent := by
    unfold surplus tiny
    dsimp only
    rw [maxExponent] at hrange ⊢
    rw [minExponent]
    split <;> omega
  have hrounded := shift_le (s := s) ctx.rounding hprecision hdigits
  unfold finish
  rw [if_neg hc, if_neg (by omega)]
  unfold finished
  generalize ctx.surplus c e = drop at hdigits hlast hrounded ⊢
  dsimp only
  split
  · rename_i hdrop
    refine ⟨c, e, ?_, fun hzero => absurd hzero hc, (if_neg (by omega)).symm⟩
    rw [hdrop, Rounding.shift_none, Nat.cast_zero, add_zero]
  generalize ctx.rounding.shift s c drop = q at hrounded ⊢
  by_cases hcarried : ctx.precision < Number.digitCount q
  · -- the last zero of the power of ten is cut off
    obtain ⟨htenth, hzero⟩ := tenth_of_carried hprecision hrounded hcarried
    refine ⟨q / 10, e + drop + 1, ?_, fun h => absurd h hzero, ?_⟩
    · have hcast : ((q / 10 * 10 : Nat) : Rat) = q := congrArg _ htenth
      rw [← hcast, zpow_add_one₀ (by norm_num)]
      push_cast
      ring
    · simp only [if_pos hcarried]
  · refine ⟨q, e + drop, rfl, fun _ => hlast, ?_⟩
    simp only [if_neg hcarried]

/-- **What is left of a result**, where neither it nor what is left is beyond the greatest exponent. -/
theorem exists_finish (ctx : Context) (hprecision : 0 < ctx.precision)
    (hexact : (c : Rat) * 10 ^ e < 10 ^ (maxExponent + 1))
    (hleft : ctx.finished s c e < 10 ^ (maxExponent + 1)) :
    ∃ y, ctx.finish s c e = .ok y ∧ y.number? = some (withSign s (ctx.finished s c e)) := by
  by_cases hc : c = 0
  · subst hc
    refine ⟨_, if_pos rfl, ?_⟩
    rw [Decimal.number?_zero, finished, Rounding.shift_zero, Nat.cast_zero, zero_mul, Binary.withSign_zero]
  obtain ⟨q, k, hq, hlast, hfinish⟩ := ctx.exists_left hprecision hc hexact (s := s)
  have hover : ¬ maxExponent < k + Number.digitCount q - 1 := by
    by_cases hzero : q = 0
    · have := hlast hzero
      subst hzero
      show ¬ maxExponent < k + ((1 : Nat) : Int) - 1
      omega
    · have := (Decimal.lt_ten_zpow_iff hzero).mp (hq.trans_lt hleft)
      omega
  rw [if_neg hover] at hfinish
  exact ⟨_, hfinish, by rw [Decimal.number?_finite, hq]⟩

/-- … and there is no result where what is left is beyond it. -/
theorem finish_eq_error_of_left (ctx : Context) (hprecision : 0 < ctx.precision)
    (hexact : (c : Rat) * 10 ^ e < 10 ^ (maxExponent + 1))
    (hleft : 10 ^ (maxExponent + 1) ≤ ctx.finished s c e) : ctx.finish s c e = .error .decimalOverflow := by
  have hpos := ten_zpow_pos (maxExponent + 1)
  have hc : c ≠ 0 := by
    rintro rfl
    rw [finished, Rounding.shift_zero, Nat.cast_zero, zero_mul] at hleft
    linarith
  obtain ⟨q, k, hq, -, hfinish⟩ := ctx.exists_left hprecision hc hexact (s := s)
  have hzero : q ≠ 0 := by
    rintro rfl
    rw [← hq, Nat.cast_zero, zero_mul] at hleft
    linarith
  have hover := mt (Decimal.lt_ten_zpow_iff hzero (k := maxExponent + 1)).mpr (not_lt.mpr (hq ▸ hleft))
  rw [hfinish, if_pos (by omega)]

/-- **To the nearest, finishing moves a result by at most half of the last digit kept** … -/
theorem finished_close (h : ctx.rounding = .halfEven) (s : Bool) (c : Nat) (e : Int) :
    |ctx.finished s c e - c * 10 ^ e| ≤ 10 ^ (e + ctx.surplus c e) / 2 := by
  have hpos := ten_zpow_pos (e + ctx.surplus c e)
  have hexact : (c : Rat) * 10 ^ e = c / 10 ^ ctx.surplus c e * 10 ^ (e + ctx.surplus c e) := by
    rw [zpow_add₀ (by norm_num), zpow_natCast]
    field_simp
  rw [finished, hexact, ← sub_mul, abs_mul, abs_of_pos hpos, h]
  have hclose := Rounding.shift_halfEven_close s c (ctx.surplus c e)
  linarith [mul_le_mul_of_nonneg_right hclose hpos.le]

/-- … **and not at all if no digits are too many.** -/
theorem finished_of_surplus (h : ctx.surplus c e = 0) : ctx.finished s c e = c * 10 ^ e := by
  rw [finished, h, Rounding.shift_none, Nat.cast_zero, add_zero]

/-- Zeros that are cut off change nothing either. -/
theorem finished_of_dvd (h : 10 ^ ctx.surplus c e ∣ c) : ctx.finished s c e = c * 10 ^ e := by
  obtain ⟨q, hq⟩ := h
  have hleft : ctx.rounding.shift s c (ctx.surplus c e) = q := by
    rw [Rounding.shift_eq, Nat.mod_eq_zero_of_dvd ⟨q, hq⟩, Nat.div_eq_of_eq_mul_right (Nat.pow_pos (by omega)) hq]
    rfl
  have hcast : (c : Rat) = 10 ^ ctx.surplus c e * q := by
    have := congrArg (Nat.cast (R := Rat)) hq
    rwa [Nat.cast_mul, Nat.cast_pow, Nat.cast_ofNat] at this
  rw [finished, hleft, hcast, zpow_add₀ (by norm_num), zpow_natCast]
  ring

/-- **A result that nothing is rounded off is the exact one**, below the greatest power of ten … -/
theorem exists_finish_of_kept (hprecision : 0 < ctx.precision) (hkept : ctx.finished s c e = c * 10 ^ e)
    (hrange : (c : Rat) * 10 ^ e < 10 ^ (maxExponent + 1)) :
    ∃ y, ctx.finish s c e = .ok y ∧ y.number? = some (withSign s (c * 10 ^ e)) := by
  obtain ⟨y, hy, hnumber⟩ := ctx.exists_finish hprecision hrange (hkept.trans_lt hrange)
  exact ⟨y, hy, hkept ▸ hnumber⟩

/-- … and wherever there is a result. -/
theorem number?_of_finish (hprecision : 0 < ctx.precision) (hkept : ctx.finished s c e = c * 10 ^ e) {y : Decimal}
    (h : ctx.finish s c e = .ok y) : y.number? = some (withSign s (c * 10 ^ e)) := by
  by_cases hrange : (c : Rat) * 10 ^ e < 10 ^ (maxExponent + 1)
  · obtain ⟨y', hy', hnumber⟩ := exists_finish_of_kept hprecision hkept hrange
    rw [h, Except.ok.injEq] at hy'
    rwa [hy']
  · have hc : c ≠ 0 := by
      rintro rfl
      rw [Nat.cast_zero, zero_mul] at hrange
      exact hrange (ten_zpow_pos _)
    rw [finish_eq_error hc (not_lt.mp hrange)] at h
    cases h

/-- A power of ten that the last digit kept divides stays below what is left. -/
theorem le_finished (ctx : Context) {n : Int} (hn : e + ctx.surplus c e ≤ n) (h : (10 : Rat) ^ n ≤ c * 10 ^ e) :
    10 ^ n ≤ ctx.finished s c e := by
  obtain ⟨k, rfl⟩ : ∃ k : Nat, n = e + ctx.surplus c e + k := ⟨(n - (e + ctx.surplus c e)).toNat, by omega⟩
  have hten : (10 : Rat) ≠ 0 := by norm_num
  have hcount : 10 ^ k * 10 ^ ctx.surplus c e ≤ c := by
    rw [zpow_add₀ hten, zpow_add₀ hten, zpow_natCast, zpow_natCast, mul_assoc, mul_comm ((10 : Rat) ^ e)] at h
    have := le_of_mul_le_mul_right h (ten_zpow_pos e)
    rw [mul_comm]
    exact_mod_cast this
  have hleft := Rounding.le_shift (s := s) ctx.rounding hcount
  rw [finished, zpow_add₀ hten (e + ctx.surplus c e), zpow_natCast, mul_comm]
  refine mul_le_mul_of_nonneg_right ?_ (ten_zpow_pos _).le
  exact_mod_cast hleft

/-! ## Sums -/

/-- A number at a lower exponent; a zero has none to be aligned. -/
theorem alignedIn_mul_ten_zpow (c : Nat) {e low : Int} (h : low ≤ e) :
    (alignedIn c e low : Rat) * 10 ^ low = c * 10 ^ e := by
  unfold alignedIn
  split
  · rename_i hc
    rw [hc, Int.cast_zero, Nat.cast_zero, zero_mul, zero_mul]
  · rw [Int.cast_natCast]
    exact Decimal.aligned_mul_ten_zpow c h

/-- **A sum of finite decimals is the exact sum, finished once.** -/
theorem exists_addFinite (ctx : Context) (s : Bool) (c : Nat) (e : Int) (t : Bool) (d : Nat) (f : Int) :
    ∃ (negative : Bool) (n : Nat), ctx.addFinite s c e t d f = ctx.finish negative n (min e f) ∧
      withSign negative (n * 10 ^ min e f) = withSign s (c * 10 ^ e) + withSign t (d * 10 ^ f) := by
  unfold addFinite
  dsimp only
  generalize hsum : ((if s then -alignedIn c e (min e f) else alignedIn c e (min e f)) +
    if t then -alignedIn d f (min e f) else alignedIn d f (min e f)) = sum
  refine ⟨_, _, rfl, ?_⟩
  have hexact : (sum : Rat) * 10 ^ min e f = withSign s (c * 10 ^ e) + withSign t (d * 10 ^ f) := by
    rw [← alignedIn_mul_ten_zpow c (min_le_left e f), ← alignedIn_mul_ten_zpow d (min_le_right e f), ← hsum]
    cases s <;> cases t <;> simp [withSign] <;> ring
  rw [← hexact]
  by_cases hzero : sum = 0
  · rw [hzero, Int.natAbs_zero, Nat.cast_zero, zero_mul, Binary.withSign_zero, Int.cast_zero, zero_mul]
  · rw [if_neg hzero]
    have hnumber := Binary.withSign_natAbs sum
    unfold withSign at hnumber ⊢
    rw [← hnumber]
    split
    · exact (neg_mul _ _).symm
    · rfl

end Context

end SciCalc
