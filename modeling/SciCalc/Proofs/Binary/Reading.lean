/-
  A decimal is read as the nearest number of the format.

  Ten lies between eight and sixteen, so the count of digits alone tells that a decimal is beyond the limit
  of a format, or so small that zero is nearest to it.  Any other decimal is rounded as an integer or as a
  quotient (`rounded_ofDecimal`).
-/
import SciCalc.Binary.Reading
import SciCalc.Proofs.Binary.Rounding
import SciCalc.Proofs.Number.Digits

namespace SciCalc.Format

open Binary

variable {f : Format} {c : Nat} {k : Int}

/-- One is between the least exponent of a format and its limit, if it has any. -/
def ReachesOne (f : Format) : Prop := ∀ least limit, f.range = some (least, limit) → least ≤ 0 ∧ 0 ≤ limit

/-- The leading digit tells how large a decimal is. -/
theorem ten_zpow_le (hc : c ≠ 0) : (10 : Rat) ^ (k + Number.digitCount c - 1) ≤ c * 10 ^ k := by
  have hcount := Number.digitCount_pos hc
  have hlower : ((10 ^ (Number.digitCount c - 1) : Nat) : Rat) ≤ c :=
    Nat.cast_le.mpr (Number.pow_le_of_digitCount hc)
  have hsplit : k + Number.digitCount c - 1 = ((Number.digitCount c - 1 : Nat) : Int) + k := by omega
  rw [hsplit, zpow_add₀ (by norm_num : (10 : Rat) ≠ 0), zpow_natCast]
  exact mul_le_mul_of_nonneg_right (by exact_mod_cast hlower) (zpow_pos (by norm_num) k).le

theorem lt_ten_zpow (hc : c ≠ 0) : (c : Rat) * 10 ^ k < 10 ^ (k + Number.digitCount c) := by
  have hupper : (c : Rat) < ((10 ^ Number.digitCount c : Nat) : Rat) :=
    Nat.cast_lt.mpr (Number.lt_pow_digitCount hc)
  rw [Int.add_comm, zpow_add₀ (by norm_num : (10 : Rat) ≠ 0), zpow_natCast]
  exact mul_lt_mul_of_pos_right (by exact_mod_cast hupper) (zpow_pos (by norm_num) k)

/-- Powers of eight and of ten. -/
theorem two_zpow_le_ten_zpow {i : Int} (hi : 0 ≤ i) : (2 : Rat) ^ (3 * i) ≤ 10 ^ i := by
  obtain ⟨n, rfl⟩ := Int.eq_ofNat_of_zero_le hi
  rw [zpow_mul, zpow_natCast, zpow_natCast]
  exact pow_le_pow_left₀ (by norm_num) (by norm_num) n

theorem ten_zpow_le_two_zpow {i : Int} (hi : i ≤ 0) : (10 : Rat) ^ i ≤ 2 ^ (3 * i) := by
  have h := two_zpow_le_ten_zpow (show 0 ≤ -i by omega)
  rw [Int.mul_neg, zpow_neg, zpow_neg] at h
  exact (inv_le_inv₀ (two_zpow_pos _) (zpow_pos (by norm_num) i)).mp h

/-- A decimal in the reach of the format is rounded once. -/
theorem rounded_ofDecimal_near (hd : f.direction = .nearest) (hp : 0 < f.precision) (hc : c ≠ 0) (s : Bool)
    (k : Int) :
    f.Rounded s (c * 10 ^ k)
      (if 0 ≤ k then f.round s (c * 10 ^ k.toNat) 0 else f.quotient s c (10 ^ (-k).toNat) 0) := by
  have hten : ∀ n : Nat, 10 ^ n ≠ 0 := fun n => (Nat.pow_pos (by omega)).ne'
  split
  · rename_i hk
    obtain ⟨n, rfl⟩ := Int.eq_ofNat_of_zero_le hk
    have h := rounded_round hd hp (Nat.mul_ne_zero hc (hten n)) s 0
    rw [zpow_zero, mul_one] at h
    rw [Int.toNat_natCast, zpow_natCast]
    exact_mod_cast h
  · rename_i hk
    obtain ⟨n, rfl⟩ : ∃ n : Nat, k = -n := ⟨(-k).toNat, by omega⟩
    have h := rounded_quotient hd hp hc (hten n) s 0
    rw [zpow_zero, mul_one, div_eq_mul_inv] at h
    rw [neg_neg, Int.toNat_natCast, zpow_neg, zpow_natCast]
    exact_mod_cast h

/-- **A decimal is read as the nearest number.** -/
theorem rounded_ofDecimal (hd : f.direction = .nearest) (hp : 0 < f.precision) (reaches : f.ReachesOne)
    (hc : c ≠ 0) (s : Bool) (k : Int) : f.Rounded s (c * 10 ^ k) (f.ofDecimal s c k) := by
  have hnear := rounded_ofDecimal_near hd hp hc s k
  rw [ofDecimal, if_neg hc]
  dsimp only
  cases hrange : f.range with
  | none => exact hnear
  | some range =>
    obtain ⟨least, limit⟩ := range
    obtain ⟨hleast, hlimit⟩ := reaches least limit hrange
    dsimp only
    by_cases hlarge : limit ≤ 3 * (k + Number.digitCount c - 1)
    · -- whatever is nearest is beyond the limit
      rw [if_pos hlarge]
      obtain ⟨q, j, hnearest, -⟩ := hnear
      refine ⟨q, j, hnearest, Or.inr ⟨fun hin => ?_, rfl⟩⟩
      have hvalue : (2 : Rat) ^ limit ≤ c * 10 ^ k :=
        calc (2 : Rat) ^ limit ≤ 2 ^ (3 * (k + Number.digitCount c - 1)) :=
              zpow_le_zpow_right₀ one_le_two hlarge
          _ ≤ 10 ^ (k + Number.digitCount c - 1) := two_zpow_le_ten_zpow (by omega)
          _ ≤ c * 10 ^ k := ten_zpow_le hc
      have hbeyond := hnearest.two_zpow_le hvalue fun least' limit' h => by
        rw [hrange] at h
        cases h
        omega
      exact absurd (hin least limit hrange) (not_lt.mpr hbeyond)
    · rw [if_neg hlarge]
      by_cases hsmall : (k + Number.digitCount c ≤ 0 && 3 * (k + Number.digitCount c) < least - 1) = true
      · -- zero is nearest
        rw [if_pos hsmall]
        obtain ⟨htop, htiny⟩ := (Bool.and_eq_true _ _).mp hsmall
        rw [decide_eq_true_eq] at htop htiny
        have hpos : (0 : Rat) < c * 10 ^ k :=
          mul_pos (Nat.cast_pos.mpr (Nat.pos_of_ne_zero hc)) (zpow_pos (by norm_num) k)
        have hvalue : 2 * ((c : Rat) * 10 ^ k) ≤ 2 ^ least :=
          calc 2 * ((c : Rat) * 10 ^ k) ≤ 2 * 10 ^ (k + Number.digitCount c) :=
                mul_le_mul_of_nonneg_left (lt_ten_zpow hc).le zero_le_two
            _ ≤ 2 * 2 ^ (3 * (k + Number.digitCount c)) :=
                mul_le_mul_of_nonneg_left (ten_zpow_le_two_zpow htop) zero_le_two
            _ = 2 ^ (1 + 3 * (k + Number.digitCount c)) := (zpow_one_add₀ two_ne_zero _).symm
            _ ≤ 2 ^ least := zpow_le_zpow_right₀ one_le_two (by omega)
        refine ⟨0, least, ⟨?_, Nat.zero_le _, Or.inl ⟨limit, hrange⟩, ?_⟩, delivers_zero f s least⟩
        · intro least' limit' h
          rw [hrange] at h
          cases h
          exact le_refl _
        · rwa [Nat.cast_zero, zero_mul, zero_sub, abs_neg, abs_of_pos hpos]
      · rw [if_neg hsmall]
        exact hnear

end SciCalc.Format
