/-
  The order of decimals.

  A decimal has a place among the rational numbers, as a binary number has (`place?`).  Of two magnitudes the one
  with the higher leading digit is the greater; if the digits are equally high, the coefficients are compared at the
  lower exponent (`compareMagnitude_eq_cmp`).  So two decimals are compared as their places are (`compare?_eq_cmp`).
-/
import SciCalc.Decimal.Arithmetic
import SciCalc.Proofs.Binary.Order
import SciCalc.Proofs.Binary.Reading

namespace SciCalc.Decimal

open Binary (withSign)

theorem ten_zpow_pos (e : Int) : (0 : Rat) < 10 ^ e := zpow_pos (by norm_num) e

/-- A coefficient at a lower exponent. -/
theorem aligned_mul_ten_zpow (c : Nat) {e low : Int} (h : low ≤ e) :
    (aligned c e low : Rat) * 10 ^ low = c * 10 ^ e := by
  obtain ⟨k, rfl⟩ : ∃ k : Nat, e = low + k := ⟨(e - low).toNat, by omega⟩
  rw [aligned, show (low + k - low).toNat = k by omega, zpow_add₀ (by norm_num), zpow_natCast, Nat.cast_mul,
    Nat.cast_pow, Nat.cast_ofNat]
  ring

/-- **Magnitudes are compared as numbers.** -/
theorem compareMagnitude_eq_cmp (c : Nat) (e : Int) (d : Nat) (f : Int) :
    compareMagnitude c e d f = cmp ((c : Rat) * 10 ^ e) (d * 10 ^ f) := by
  have hten : (1 : Rat) < 10 := by norm_num
  by_cases hzero : (decide (c = 0) || decide (d = 0)) = true
  · rw [compareMagnitude, if_pos hzero]
    rw [Bool.or_eq_true, decide_eq_true_eq, decide_eq_true_eq] at hzero
    exact Binary.compare_natCast_of_zero hzero (ten_zpow_pos e) (ten_zpow_pos f)
  rw [compareMagnitude, if_neg hzero]
  rw [Bool.or_eq_true, decide_eq_true_eq, decide_eq_true_eq, not_or] at hzero
  obtain ⟨hc, hd⟩ := hzero
  by_cases hlt : e + (Number.digitCount c : Int) < f + Number.digitCount d
  · rw [if_pos hlt]
    exact ((cmp_eq_lt_iff _ _).mpr
      (Binary.lt_of_powers hten (Format.lt_ten_zpow hc) (Format.ten_zpow_le hd) hlt)).symm
  by_cases hgt : f + (Number.digitCount d : Int) < e + Number.digitCount c
  · rw [if_neg hlt, if_pos hgt]
    exact ((cmp_eq_gt_iff _ _).mpr
      (Binary.lt_of_powers hten (Format.lt_ten_zpow hd) (Format.ten_zpow_le hc) hgt)).symm
  · rw [if_neg hlt, if_neg hgt, Binary.compare_natCast _ _ (ten_zpow_pos (min e f)),
      aligned_mul_ten_zpow c (Int.min_le_left e f), aligned_mul_ten_zpow d (Int.min_le_right e f)]

/-- Where the decimal stands among the others. -/
def place? : Decimal → Option Place
  | finite s c e => some (.ofRat (withSign s (c * 10 ^ e)))
  | infinite s => some (.ofInfinite s)
  | nan .. => none

/-- The order of two finite decimals is that of the numbers. -/
theorem compareFinite_eq_cmp (s : Bool) (c : Nat) (e : Int) (t : Bool) (d : Nat) (f : Int) :
    compareFinite s c e t d f = cmp (withSign s ((c : Rat) * 10 ^ e)) (withSign t (d * 10 ^ f)) := by
  have hc : (0 : Rat) ≤ c * 10 ^ e := mul_nonneg c.cast_nonneg (ten_zpow_pos e).le
  have hd : (0 : Rat) ≤ d * 10 ^ f := mul_nonneg d.cast_nonneg (ten_zpow_pos f).le
  unfold compareFinite
  rw [Binary.and_decide_eq s c (ten_zpow_pos e), Binary.and_decide_eq t d (ten_zpow_pos f)]
  refine Binary.eq_cmp_withSign hc hd (fun hs ht => ?_) (fun hs ht => ?_) (fun hs ht => ?_) (fun hs ht => ?_)
  · rw [decide_eq_false hs, decide_eq_false ht]
    exact compareMagnitude_eq_cmp c e d f
  · rw [decide_eq_true hs, decide_eq_true ht]
    exact compareMagnitude_eq_cmp d f c e
  · rw [decide_eq_true hs, decide_eq_false ht]
  · rw [decide_eq_false hs, decide_eq_true ht]

/-- **Decimals are compared as their places are.** -/
theorem compare?_eq_cmp (x y : Decimal) : x.compare? y = x.place?.bind fun p => y.place?.map (cmp p) := by
  cases x with
  | nan s q p => rfl
  | infinite s =>
    cases y with
    | nan t q p => rfl
    | infinite t => exact congrArg some (Place.cmp_ofInfinite s t).symm
    | finite t d f => exact congrArg some (Place.cmp_ofInfinite_ofRat s _).symm
  | finite s c e =>
    cases y with
    | nan t q p => rfl
    | infinite t => exact congrArg some (Place.cmp_ofRat_ofInfinite t _).symm
    | finite t d f => exact congrArg some ((compareFinite_eq_cmp s c e t d f).trans (Place.cmp_ofRat _ _).symm)

end SciCalc.Decimal
