/-
  Decimals that a context contains.

  1. **Room** (`Contains`) — a context has room for a decimal with no more digits than its precision, no digit
     below the least exponent and no leading digit above the greatest one.

  2. **Finishing** (`finish_contains`) — what is finished fits: behind the digits that are cut off as many are left as
     fit, unless rounding carries into a new one, and then the last one is a zero that is cut off as well.

  3. **Staying** (`finish_of_contains`, `plus_of_contains`) — a decimal that fits stays as it is; only a zero may
     lose its sign.  Without its trailing zeros it fits as well (`exists_normalize_of_contains`).
-/
import SciCalc.Decimal.Arithmetic
import SciCalc.Proofs.Attempt
import SciCalc.Proofs.Number.Digits

namespace SciCalc.Context

open Attempt Number

variable {ctx : Context} {s : Bool} {c : Nat} {e : Int}

/-! ## Room -/

/-- **The context has room for the decimal.** -/
def Contains (ctx : Context) : Decimal → Prop
  | .finite _ c e => digitCount c ≤ ctx.precision ∧ ctx.tiny ≤ e ∧ e + digitCount c - 1 ≤ maxExponent
  | _ => True

/-! ## Finishing -/

/-- No less than the surplus is cut off: what is left has no more digits than fit, and none below the least
    exponent. -/
theorem surplus_spec (ctx : Context) (c : Nat) (e : Int) :
    digitCount c ≤ ctx.precision + ctx.surplus c e ∧ ctx.tiny ≤ e + ctx.surplus c e := by
  unfold surplus
  dsimp only
  split
  · omega
  · unfold tiny
    omega

/-- What is left of a number is rounded at most to the next power of ten. -/
theorem shift_le (mode : Rounding) {drop precision : Nat} (hprecision : 0 < precision)
    (h : digitCount c ≤ precision + drop) : mode.shift s c drop ≤ 10 ^ precision := by
  have hpos : 0 < 10 ^ precision := Nat.pow_pos (by omega)
  unfold Rounding.shift
  split
  · split
    · exact hpos
    · exact Nat.zero_le _
  · have hquotient : c / 10 ^ drop < 10 ^ precision := by
      rw [Nat.div_lt_iff_lt_mul (Nat.pow_pos (by omega)), ← Nat.pow_add]
      exact (digitCount_le_iff (by omega)).mp h
    dsimp only
    split
    · exact hquotient
    · exact Nat.le_of_lt hquotient

/-- **What is finished fits.** -/
theorem finish_contains (hprecision : 0 < ctx.precision) (s : Bool) (c : Nat) (e : Int) :
    Gives ctx.Contains (ctx.finish s c e) := by
  have htiny : ctx.tiny ≤ maxExponent := by
    rw [tiny, minExponent, maxExponent]
    omega
  obtain ⟨hdigits, hleast⟩ := ctx.surplus_spec c e
  unfold finish
  split
  · -- a zero has one digit, at an exponent that is in range
    refine gives_ok.mpr ⟨hprecision, ?_, ?_⟩
    · omega
    · show min (max e ctx.tiny) maxExponent + (1 : Nat) - 1 ≤ maxExponent
      omega
  split
  · exact gives_error _
  rename_i hmost
  have hmost := Int.not_lt.mp hmost
  dsimp only
  split
  · rename_i hdrop
    rw [hdrop] at hdigits hleast
    exact gives_ok.mpr ⟨hdigits, by omega, hmost⟩
  have hrounded := shift_le (s := s) ctx.rounding hprecision hdigits
  generalize ctx.rounding.shift s c (ctx.surplus c e) = q at hrounded ⊢
  by_cases hcarried : ctx.precision < digitCount q
  · have htenth : digitCount (q / 10) ≤ ctx.precision := by
      rw [digitCount_le_iff hprecision, Nat.div_lt_iff_lt_mul (by omega)]
      have := Nat.pow_pos (n := ctx.precision) (show 0 < 10 by omega)
      omega
    simp only [if_pos hcarried]
    split
    · exact gives_error _
    · rename_i hover
      exact gives_ok.mpr ⟨htenth, by omega, Int.not_lt.mp hover⟩
  · simp only [if_neg hcarried]
    split
    · exact gives_error _
    · rename_i hover
      exact gives_ok.mpr ⟨Nat.not_lt.mp hcarried, by omega, Int.not_lt.mp hover⟩

/-- **A decimal that is brought into a context fits there.** -/
theorem plus_contains (hprecision : 0 < ctx.precision) (x : Decimal) : Gives ctx.Contains (ctx.plus x) := by
  cases x with
  | finite s c e => exact finish_contains hprecision _ c e
  | infinite s => exact gives_ok.mpr trivial
  | nan s q p =>
    show Gives ctx.Contains (ctx.finishNaN s q p)
    unfold finishNaN
    split
    · exact gives_error _
    · exact gives_ok.mpr trivial

/-! ## Staying -/

/-- **A decimal that fits is finished as it is.** -/
theorem finish_of_contains (h : ctx.Contains (.finite s c e)) : ctx.finish s c e = .ok (.finite s c e) := by
  obtain ⟨hdigits, hleast, hmost⟩ := h
  unfold finish
  split
  · rename_i hc
    subst hc
    have hone : digitCount 0 = 1 := rfl
    rw [hone] at hmost
    rw [Int.max_eq_left hleast, Int.min_eq_left (by omega)]
  · have hdrop : ctx.surplus c e = 0 := by
      unfold surplus
      dsimp only
      split <;> omega
    rw [if_neg (Int.not_lt.mpr hmost)]
    dsimp only
    rw [if_pos hdrop]

/-- **A decimal that fits keeps its coefficient and exponent**, and its sign unless it is a zero. -/
theorem plus_of_contains (h : ctx.Contains (.finite s c e)) :
    ∃ s', ctx.plus (.finite s c e) = .ok (.finite s' c e) ∧ (c ≠ 0 → s' = s) := by
  refine ⟨s && (c ≠ 0 || ctx.rounding = .floor), finish_of_contains h, fun hc => ?_⟩
  rw [decide_eq_true hc, Bool.true_or, Bool.and_true]

/-- What is dropped are zeros at the end. -/
theorem dropZeros_spec (most : Int) (fuel : Nat) : ∀ (c : Nat) (e : Int),
    ∃ k : Nat, (Decimal.dropZeros most fuel c e).2 = e + k ∧ c = (Decimal.dropZeros most fuel c e).1 * 10 ^ k := by
  induction fuel with
  | zero => exact fun c e => ⟨0, (Int.add_zero e).symm, (Nat.mul_one c).symm⟩
  | succ fuel ih =>
    intro c e
    rw [Decimal.dropZeros]
    split
    · rename_i hzero
      obtain ⟨k, hexponent, hcoefficient⟩ := ih (c / 10) (e + 1)
      have hzero := of_decide_eq_true (Bool.and_eq_true_iff.mp hzero).2
      refine ⟨k + 1, by omega, ?_⟩
      rw [Nat.pow_succ, ← Nat.mul_assoc, ← hcoefficient]
      omega
    · exact ⟨0, (Int.add_zero e).symm, (Nat.mul_one c).symm⟩

/-- **A decimal that fits does so without its trailing zeros.** -/
theorem exists_normalize_of_contains (hc : c ≠ 0) (h : ctx.Contains (.finite s c e)) :
    ∃ (d k : Nat), ctx.normalize (.finite s c e) = .ok (.finite s d (e + k)) ∧ c = d * 10 ^ k ∧
      ctx.Contains (.finite s d (e + k)) := by
  obtain ⟨k, hexponent, hcoefficient⟩ := dropZeros_spec maxExponent (digitCount c) c e
  generalize hdropped : Decimal.dropZeros maxExponent (digitCount c) c e = dropped at hexponent hcoefficient
  obtain ⟨d, f⟩ := dropped
  dsimp only at hexponent hcoefficient
  refine ⟨d, k, ?_, hcoefficient, ?_⟩
  · rw [normalize, fit, finish_of_contains h, map_ok, reduce, if_neg hc, hdropped, hexponent]
  · have hd : d ≠ 0 := by
      rintro rfl
      exact hc (hcoefficient.trans (Nat.zero_mul _))
    have hcount := digitCount_mul_pow hd k
    rw [← hcoefficient] at hcount
    obtain ⟨hdigits, hleast, hmost⟩ := h
    refine ⟨?_, ?_, ?_⟩ <;> omega

end SciCalc.Context
