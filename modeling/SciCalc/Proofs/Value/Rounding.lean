/-
  Decimals rounded to integers.

  1. **Integers** (`integer`) — the integer that a policy rounds a number to.  A decimal without its fraction is
     that of a directed policy (`exists_toIntegral`).

  2. **Halves** (`exists_add_half`) — the nearest integer is the floor of the number plus a half, and the sum is
     rounded before its floor is taken.  The floor is still that of the exact sum: the sum of a small number
     stays near a half (`exists_finish_near_half`), that of a larger one has enough digits unless it is carried
     past a power of ten, and then what is rounded off does not bring it to the next integer
     (`exists_finish_carried`).

  3. **Rounding** (`round_decimal`) — so a decimal is rounded to the integer of the policy, unless decimal
     arithmetic cannot hold as many digits or the sum with a half.
-/
import SciCalc.Proofs.Decimal.Rounding
import SciCalc.Proofs.Operator.Exact

namespace SciCalc

open Attempt Number
open Binary (withSign)
open Context (maxExponent)

/-! ## Integers -/

/-- **The integer that a number is rounded to.** -/
def RoundingPolicy.integer (p : RoundingPolicy) (r : Rat) : Int :=
  match p with
  | .nearest => ⌊r + 1 / 2⌋
  | .up => ⌈r⌉
  | .down => ⌊r⌋
  | .towardZero => truncated r

namespace RoundingPolicy

/-- An integer stays what it is. -/
theorem integer_intCast (p : RoundingPolicy) (n : Int) : p.integer n = n := by
  cases p with
  | nearest =>
    show ⌊(n : Rat) + 1 / 2⌋ = n
    rw [Int.floor_intCast_add, show ⌊(1 : Rat) / 2⌋ = 0 by norm_num, add_zero]
  | up => exact Int.ceil_intCast n
  | down => exact Int.floor_intCast n
  | towardZero =>
    show truncated n = n
    rw [truncated, Int.floor_intCast, Int.ceil_intCast, ite_self]

/-- **Digits behind the point are cut off as a directed policy says.** -/
theorem withSign_shift {p : RoundingPolicy} (hp : p ≠ .nearest) (s : Bool) (c k : Nat) :
    withSign s ((p.decimal.shift s c k : Nat) : Rat) = (p.integer (withSign s (c / 10 ^ k)) : Int) := by
  rw [Binary.withSign_natCast, Int.cast_inj]
  cases p with
  | nearest => exact absurd rfl hp
  | up =>
    show (if s then -((Rounding.ceiling.shift s c k : Nat) : Int) else (Rounding.ceiling.shift s c k : Nat)) =
      ⌈withSign s ((c : Rat) / 10 ^ k)⌉
    rw [Rounding.shift_ceiling]
    cases s with
    | false => rfl
    | true => exact Int.ceil_neg.symm
  | down =>
    show (if s then -((Rounding.floor.shift s c k : Nat) : Int) else (Rounding.floor.shift s c k : Nat)) =
      ⌊withSign s ((c : Rat) / 10 ^ k)⌋
    rw [Rounding.shift_floor]
    cases s with
    | false => rfl
    | true => exact Int.floor_neg.symm
  | towardZero =>
    show (if s then -((Rounding.down.shift s c k : Nat) : Int) else (Rounding.down.shift s c k : Nat)) =
      truncated (withSign s ((c : Rat) / 10 ^ k))
    rw [Rounding.shift_down, truncated_withSign s (by positivity)]

end RoundingPolicy

namespace Decimal

variable {s : Bool} {c : Nat} {e : Int}

/-- **A decimal without its fraction is the integer of a directed policy.** -/
theorem exists_toIntegral {p : RoundingPolicy} (hp : p ≠ .nearest) {x : Decimal} {r : Rat}
    (hx : x.number? = some r) :
    ∃ y, x.toIntegral p.decimal = .ok y ∧ y.number? = some (p.integer r : Rat) := by
  cases x with
  | infinite s => cases hx
  | nan s q t => cases hx
  | finite s c e =>
    cases hx
    rw [toIntegral]
    split
    · rename_i he
      -- without digits behind the point the number is an integer already
      obtain ⟨k, rfl⟩ := Int.eq_ofNat_of_zero_le he
      refine ⟨_, rfl, ?_⟩
      rw [number?_finite, zpow_natCast]
      have hwhole : (c : Rat) * 10 ^ k = ((c * 10 ^ k : Nat) : Rat) := by push_cast; rfl
      rw [hwhole, Binary.withSign_natCast, p.integer_intCast]
    · rename_i he
      obtain ⟨k, rfl⟩ : ∃ k : Nat, e = -k := ⟨(-e).toNat, by omega⟩
      refine ⟨_, rfl, ?_⟩
      rw [number?_finite, neg_neg, Int.toNat_natCast, zpow_zero, mul_one, RoundingPolicy.withSign_shift hp,
        zpow_neg, zpow_natCast, div_eq_mul_inv]

/-! ## Halves -/

/-- The context in which a half is added, of so many digits. -/
def halfContext (digits : Nat) : Context := ⟨digits, .halfEven⟩

variable {digits : Nat}

theorem one_le_ten_zpow_maxExponent : (1 : Rat) ≤ 10 ^ (maxExponent + 1) :=
  one_le_zpow₀ (by norm_num) (by decide)

theorem withSign_pos {s : Bool} {r : Rat} (hr : 0 ≤ r) (h : 0 < withSign s r) : s = false := by
  cases s with
  | false => rfl
  | true =>
    have : 0 < -r := h
    linarith

/-- A number between an integral power of ten and the next integer has the power as its floor. -/
theorem floor_of_ten_pow {t : Rat} {n : Nat} (h : (10 : Rat) ^ n ≤ t) (h' : t < 10 ^ n + 1) : ⌊t⌋ = 10 ^ n := by
  rw [Int.floor_eq_iff]
  push_cast
  exact ⟨h, h'⟩

/-- The next integer is no more than a greater power of ten. -/
theorem ten_pow_add_one_le {n : Nat} {k : Int} (h : (10 : Rat) ^ n < 10 ^ k) : (10 : Rat) ^ n + 1 ≤ 10 ^ k := by
  have hten : (1 : Rat) < 10 := by norm_num
  have hpow : (1 : Rat) ≤ 10 ^ n := one_le_pow₀ hten.le
  rw [← zpow_natCast] at h hpow ⊢
  have hless := (zpow_lt_zpow_iff_right₀ hten).mp h
  calc (10 : Rat) ^ (n : Int) + 1 ≤ 10 ^ ((n : Int) + 1) := by
        rw [zpow_add_one₀ (by norm_num)]
        linarith
    _ ≤ 10 ^ k := zpow_le_zpow_right₀ hten.le (by omega)

/-- Only a positive number less than a bound reaches the bound when a half is added. -/
theorem le_add_half_of_abs {u p : Rat} (hless : |u| < p) (h : p ≤ |u + 1 / 2|) : p ≤ u + 1 / 2 := by
  obtain ⟨hlower, hupper⟩ := abs_lt.mp hless
  rcases le_abs.mp h with hpos | hneg
  · exact hpos
  · linarith

/-- **What is near a half is finished near a half**, so that its floor is zero. -/
theorem exists_finish_near_half (hdigits : 2 ≤ digits)
    (h : |withSign s (c * 10 ^ e) - 1 / 2| < 1 / 10) :
    ∃ y t, (halfContext digits).finish s c e = .ok y ∧ y.number? = some t ∧ ⌊t⌋ = 0 := by
  have hpos : (0 : Rat) ≤ c * 10 ^ e := mul_nonneg c.cast_nonneg (ten_zpow_pos e).le
  obtain ⟨hlower, hupper⟩ := abs_lt.mp h
  have hs : s = false := withSign_pos hpos (by linarith)
  subst hs
  change -(1 / 10) < (c : Rat) * 10 ^ e - 1 / 2 at hlower
  change (c : Rat) * 10 ^ e - 1 / 2 < 1 / 10 at hupper
  have hc : c ≠ 0 := by
    rintro rfl
    rw [Nat.cast_zero, zero_mul] at hlower
    linarith
  -- the leading digit is the first one behind the point
  have hbelow := (lt_ten_zpow_iff hc (e := e) (k := 0)).mp (by rw [zpow_zero]; linarith)
  have habove := mt (lt_ten_zpow_iff hc (e := e) (k := -1)).mpr (by rw [zpow_neg_one]; linarith)
  have hsurplus := (halfContext digits).surplus_of_le (c := c) (e := e)
    (by rw [Context.minExponent]; omega)
  have hclose : |(halfContext digits).finished false c e - c * 10 ^ e| ≤ 1 / 200 := by
    by_cases hfits : digitCount c ≤ digits
    · rw [Context.finished_of_surplus (by rw [hsurplus]; exact Nat.sub_eq_zero_of_le hfits), sub_self, abs_zero]
      norm_num
    · have hunit : (10 : Rat) ^ (e + (halfContext digits).surplus c e) ≤ 10 ^ (-2 : Int) := by
        refine zpow_le_zpow_right₀ (by norm_num) ?_
        have hprecision : (halfContext digits).precision = digits := rfl
        omega
      have := (halfContext digits).finished_close rfl false c e
      norm_num at hunit
      linarith
  obtain ⟨hleast, hmost⟩ := abs_le.mp hclose
  have hone := one_le_ten_zpow_maxExponent
  have hprecision : 0 < (halfContext digits).precision := Nat.lt_of_lt_of_le Nat.two_pos hdigits
  obtain ⟨y, hy, hnumber⟩ := (halfContext digits).exists_finish (s := false) (c := c) (e := e) hprecision
    (by linarith) (by linarith)
  refine ⟨y, _, hy, hnumber, Int.floor_eq_zero_iff.mpr ⟨?_, ?_⟩⟩
  · show (0 : Rat) ≤ (halfContext digits).finished false c e
    linarith
  · show (halfContext digits).finished false c e < 1
    linarith

/-- **What is carried less than a half past a power of ten is not finished at the next integer**, if there is
    a digit for the last place before the point. -/
theorem exists_finish_carried {n : Nat} (hdigits : n + 1 ≤ digits) (he : e < 0)
    (hlower : (10 : Rat) ^ n ≤ withSign s (c * 10 ^ e))
    (hupper : withSign s (c * 10 ^ e) < 10 ^ n + 1 / 2)
    (hrange : |withSign s (c * 10 ^ e)| < 10 ^ (maxExponent + 1)) :
    ∃ y t, (halfContext digits).finish s c e = .ok y ∧ y.number? = some t ∧
      ⌊t⌋ = ⌊withSign s ((c : Rat) * 10 ^ e)⌋ := by
  have hpow : (1 : Rat) ≤ 10 ^ n := one_le_pow₀ (by norm_num)
  have hpos : (0 : Rat) ≤ c * 10 ^ e := mul_nonneg c.cast_nonneg (ten_zpow_pos e).le
  have hs : s = false := withSign_pos hpos (by linarith)
  subst hs
  change (10 : Rat) ^ n ≤ c * 10 ^ e at hlower
  change (c : Rat) * 10 ^ e < 10 ^ n + 1 / 2 at hupper
  rw [Binary.abs_withSign, abs_of_nonneg hpos] at hrange
  have hc : c ≠ 0 := by
    rintro rfl
    rw [Nat.cast_zero, zero_mul] at hlower
    linarith
  have hnext : (10 : Rat) ^ n + 1 ≤ 10 ^ ((n : Int) + 1) := ten_pow_add_one_le (by
    rw [zpow_add_one₀ (by norm_num), zpow_natCast]
    linarith)
  -- there is one digit more than the power has zeros in front of the point
  have hbelow := (lt_ten_zpow_iff hc (e := e) (k := n + 1)).mp (by linarith)
  have habove := mt (lt_ten_zpow_iff hc (e := e) (k := n)).mpr (by rw [zpow_natCast]; linarith)
  have hsurplus := (halfContext digits).surplus_of_le (c := c) (e := e)
    (by rw [Context.minExponent]; omega)
  have hprecision : (halfContext digits).precision = digits := rfl
  have hlast : e + (halfContext digits).surplus c e ≤ 0 := by omega
  have hunit : (10 : Rat) ^ (e + (halfContext digits).surplus c e) ≤ 1 :=
    zpow_le_one_of_nonpos₀ (by norm_num) hlast
  have hclose := (abs_le.mp ((halfContext digits).finished_close rfl false c e)).2
  have hge := (halfContext digits).le_finished (s := false) (c := c) (e := e) (n := n) (by omega)
    (by rw [zpow_natCast]; exact hlower)
  rw [zpow_natCast] at hge
  have hmost : (10 : Rat) ^ n + 1 ≤ 10 ^ (maxExponent + 1) := ten_pow_add_one_le (hlower.trans_lt hrange)
  obtain ⟨y, hy, hnumber⟩ := (halfContext digits).exists_finish (s := false) (c := c) (e := e) (by omega)
    hrange (by linarith)
  refine ⟨y, _, hy, hnumber, ?_⟩
  show ⌊(halfContext digits).finished false c e⌋ = ⌊(c : Rat) * 10 ^ e⌋
  rw [floor_of_ten_pow hlower (by linarith), floor_of_ten_pow hge (by linarith)]

/-- A half is always added as it is, if the number has a digit for each place up to the one before the point. -/
theorem trifle_half (hdigits : e + digitCount c + 1 ≤ digits) (he : -1 ≤ e) :
    (halfContext digits).trifle c e 5 (-1) = (5, -1) := by
  unfold Context.trifle
  dsimp only
  rw [if_neg]
  have hone : digitCount 5 = 1 := rfl
  have hprecision : (halfContext digits).precision = digits := rfl
  rw [Bool.and_eq_true, decide_eq_true_eq, decide_eq_true_eq, hone, hprecision]
  rintro ⟨-, hbelow⟩
  omega

/-- A number is added to a half as it is, unless it is below the reach of the digits. -/
theorem trifle_of_half (digits c : Nat) (e : Int) :
    (halfContext digits).trifle 5 (-1) c e = (c, e) ∨
      e + digitCount c ≤ -2 - (digits : Int) ∧
        (halfContext digits).trifle 5 (-1) c e = (min c 1, -2 - (digits : Int)) := by
  have hone : digitCount 5 = 1 := rfl
  have hprecision : (halfContext digits).precision = digits := rfl
  unfold Context.trifle
  dsimp only
  rw [hone, hprecision]
  split
  · rename_i hbelow
    rw [Bool.and_eq_true, decide_eq_true_eq, decide_eq_true_eq] at hbelow
    refine Or.inr ⟨by omega, ?_⟩
    rw [Prod.mk.injEq]
    exact ⟨rfl, by omega⟩
  · exact Or.inl rfl

/-- **A number and a half are added exactly**, but for a small number that is replaced by a smaller one. -/
theorem add_half_eq (s : Bool) (hleast : 2 ≤ digits) (hdigits : e + digitCount c + 1 ≤ digits) :
    ∃ (negative : Bool) (n : Nat) (low : Int),
      (halfContext digits).add (.finite s c e) (.finite false 5 (-1)) =
          (halfContext digits).finish negative n low ∧
        ((low = min e (-1) ∧ withSign negative (n * 10 ^ low) = withSign s (c * 10 ^ e) + 1 / 2) ∨
          (|withSign s ((c : Rat) * 10 ^ e)| < 1 / 10 ∧
            |withSign negative ((n : Rat) * 10 ^ low) - 1 / 2| < 1 / 10)) := by
  have hhalf : withSign false (((5 : Nat) : Rat) * 10 ^ (-1 : Int)) = 1 / 2 := by norm_num [withSign]
  by_cases he : -1 ≤ e
  · obtain ⟨negative, n, hadd, hsum⟩ := (halfContext digits).exists_addFinite s c e false 5 (-1)
    rw [hhalf] at hsum
    refine ⟨negative, n, _, ?_, Or.inl ⟨rfl, hsum⟩⟩
    simp only [Context.add, Context.nanResult?, if_pos he, trifle_half hdigits he, hadd]
  rcases trifle_of_half digits c e with hsame | ⟨hbelow, hsmall⟩
  · obtain ⟨negative, n, hadd, hsum⟩ := (halfContext digits).exists_addFinite s c e false 5 (-1)
    rw [hhalf] at hsum
    refine ⟨negative, n, _, ?_, Or.inl ⟨rfl, hsum⟩⟩
    simp only [Context.add, Context.nanResult?, if_neg he, hsame, hadd]
  · obtain ⟨negative, n, hadd, hsum⟩ :=
      (halfContext digits).exists_addFinite s (min c 1) (-2 - digits) false 5 (-1)
    rw [hhalf] at hsum
    refine ⟨negative, n, min (-2 - digits) (-1), ?_, Or.inr ⟨?_, ?_⟩⟩
    · simp only [Context.add, Context.nanResult?, if_neg he, hsmall, hadd]
    · -- the number is below a power of ten that is no more than a hundredth
      rw [Binary.abs_withSign, abs_of_nonneg (mul_nonneg c.cast_nonneg (ten_zpow_pos e).le)]
      by_cases hc : c = 0
      · rw [hc, Nat.cast_zero, zero_mul]
        norm_num
      · have hless := (lt_ten_zpow_iff hc (e := e) (k := -2)).mpr (by omega)
        norm_num at hless ⊢
        linarith
    · have hone : ((min c 1 : Nat) : Rat) ≤ 1 := by exact_mod_cast Nat.min_le_right c 1
      have hunit : (10 : Rat) ^ (-2 - (digits : Int)) ≤ 10 ^ (-2 : Int) :=
        zpow_le_zpow_right₀ (by norm_num) (by omega)
      have hpos := ten_zpow_pos (-2 - (digits : Int))
      rw [hsum, add_sub_cancel_right, Binary.abs_withSign, abs_of_nonneg (mul_nonneg (Nat.cast_nonneg _) hpos.le)]
      calc ((min c 1 : Nat) : Rat) * 10 ^ (-2 - (digits : Int)) ≤ 1 * 10 ^ (-2 - (digits : Int)) :=
            mul_le_mul_of_nonneg_right hone hpos.le
        _ ≤ 10 ^ (-2 : Int) := by rw [one_mul]; exact hunit
        _ < 1 / 10 := by norm_num

/-- **A number that has a digit for each of its places is finished as it is.** -/
theorem exists_finish_of_fits {places : Nat} (hpositive : 0 < digits) (hplaces : (places : Int) - e ≤ digits)
    (hlow : -999999 - ((digits : Int) - 1) ≤ e) (hfits : |withSign s ((c : Rat) * 10 ^ e)| < 10 ^ places)
    (hrange : |withSign s ((c : Rat) * 10 ^ e)| < 10 ^ (maxExponent + 1)) :
    ∃ y, (halfContext digits).finish s c e = .ok y ∧ y.number? = some (withSign s (c * 10 ^ e)) := by
  rw [Binary.abs_withSign, abs_of_nonneg (mul_nonneg c.cast_nonneg (ten_zpow_pos e).le)] at hfits hrange
  have hcount : digitCount c ≤ digits := by
    by_cases hc : c = 0
    · rw [hc]
      exact hpositive
    · have := (lt_ten_zpow_iff hc (e := e) (k := places)).mp (by rw [zpow_natCast]; exact hfits)
      omega
  have hkept : (halfContext digits).finished s c e = c * 10 ^ e :=
    Context.finished_of_surplus (Context.surplus_eq_zero hcount hlow)
  exact Context.exists_finish_of_kept hpositive hkept hrange

/-- **Rounding the sum with a half does not change its floor.** -/
theorem exists_add_half (s : Bool) (hleast : 2 ≤ digits) (hcount : digitCount c ≤ digits)
    (hdigits : e + digitCount c + 1 ≤ digits)
    (hrange : |withSign s ((c : Rat) * 10 ^ e) + 1 / 2| < 10 ^ (maxExponent + 1)) :
    ∃ y t, (halfContext digits).add (.finite s c e) (.finite false 5 (-1)) = .ok y ∧ y.number? = some t ∧
      ⌊t⌋ = ⌊withSign s ((c : Rat) * 10 ^ e) + 1 / 2⌋ := by
  obtain ⟨negative, n, low, hadd, hsum⟩ := add_half_eq s hleast hdigits
  have hmagnitude : |withSign s ((c : Rat) * 10 ^ e)| = c * 10 ^ e := by
    rw [Binary.abs_withSign, abs_of_nonneg (mul_nonneg c.cast_nonneg (ten_zpow_pos e).le)]
  rw [hadd]
  by_cases hsmall : |withSign s ((c : Rat) * 10 ^ e)| < 1 / 10
  · -- the exact sum and the one that is finished are both near a half
    have hnear : |withSign negative ((n : Rat) * 10 ^ low) - 1 / 2| < 1 / 10 := by
      rcases hsum with ⟨-, hexact⟩ | ⟨-, hnear⟩
      · rwa [hexact, add_sub_cancel_right]
      · exact hnear
    have hfloor : ⌊withSign s ((c : Rat) * 10 ^ e) + 1 / 2⌋ = 0 := by
      obtain ⟨hlower, hupper⟩ := abs_lt.mp hsmall
      rw [Int.floor_eq_zero_iff]
      constructor <;> linarith
    rw [hfloor]
    exact exists_finish_near_half hleast hnear
  obtain ⟨hlow, hexact⟩ := hsum.resolve_right fun hnear => hsmall hnear.1
  have hc : c ≠ 0 := by
    rintro rfl
    rw [Nat.cast_zero, zero_mul, Binary.withSign_zero, abs_zero] at hsmall
    norm_num at hsmall
  -- the leading digit is in front of the point, or the first one behind it
  have htop : 0 ≤ e + digitCount c := by
    rw [hmagnitude] at hsmall
    have := mt (lt_ten_zpow_iff hc (e := e) (k := -1)).mpr (by rw [zpow_neg_one]; linarith)
    omega
  obtain ⟨places, hplaces⟩ := Int.eq_ofNat_of_zero_le htop
  have hless := Format.lt_ten_zpow (k := e) hc
  rw [hplaces, zpow_natCast] at hless
  rw [← hexact] at hrange ⊢
  by_cases hfits : |withSign negative ((n : Rat) * 10 ^ low)| < 10 ^ places
  · have hpositive : 0 < digits := by omega
    obtain ⟨y, hy, hnumber⟩ := exists_finish_of_fits hpositive (by omega) (by omega) hfits hrange
    exact ⟨y, _, hy, hnumber, rfl⟩
  · -- the sum is carried past the power of ten
    rw [← hmagnitude] at hless
    rw [not_lt, hexact] at hfits
    have hcarried := le_add_half_of_abs hless hfits
    refine exists_finish_carried (n := places) (by omega) (by omega) ?_ ?_ hrange
    · rw [hexact]
      exact hcarried
    · rw [hexact]
      linarith [(abs_lt.mp hless).2]

/-- **There is no sum with a half beyond the greatest exponent.** -/
theorem add_half_eq_error (s : Bool) (hleast : 2 ≤ digits) (hdigits : e + digitCount c + 1 ≤ digits)
    (hrange : (10 : Rat) ^ (maxExponent + 1) ≤ |withSign s ((c : Rat) * 10 ^ e) + 1 / 2|) :
    (halfContext digits).add (.finite s c e) (.finite false 5 (-1)) = .error .decimalOverflow := by
  have hone := one_le_ten_zpow_maxExponent
  obtain ⟨negative, n, low, hadd, hsum⟩ := add_half_eq s hleast hdigits
  rw [hadd]
  rcases hsum with ⟨-, hexact⟩ | ⟨hsmall, -⟩
  · rw [← hexact, Binary.abs_withSign, abs_of_nonneg (mul_nonneg n.cast_nonneg (ten_zpow_pos low).le)] at hrange
    refine Context.finish_eq_error ?_ hrange
    rintro rfl
    rw [Nat.cast_zero, zero_mul] at hrange
    linarith
  · have hsum := (abs_add_le (withSign s ((c : Rat) * 10 ^ e)) (1 / 2))
    rw [abs_of_pos (by norm_num : (0 : Rat) < 1 / 2)] at hsum
    linarith

end Decimal

/-! ## Rounding -/

namespace Modes

/-- How many digits are asked for when a decimal is rounded. -/
def roundingDigits (x : Decimal) (precision : Nat) : Nat := max precision (max (x.adjusted + 2) 2).toNat

/-- **Decimal arithmetic can round the number**: it can hold as many digits as are asked for, and to the nearest the
    sum with a half is below its greatest exponent. -/
def CanRound (m : Modes) (x : Decimal) (precision : Nat) (r : Rat) : Prop :=
  roundingDigits x precision ≤ Context.maxPrecision ∧
    (m.rounding = .nearest → |r + 1 / 2| < 10 ^ (maxExponent + 1))

variable {m : Modes} {s : Bool} {c : Nat} {e : Int} {precision : Nat}

/-- There are digits for each place up to the one before the point. -/
theorem roundingDigits_spec (s : Bool) (c : Nat) (e : Int) (precision : Nat) :
    2 ≤ roundingDigits (.finite s c e) precision ∧ precision ≤ roundingDigits (.finite s c e) precision ∧
      e + digitCount c + 1 ≤ roundingDigits (.finite s c e) precision := by
  unfold roundingDigits Decimal.adjusted
  dsimp only
  omega

/-- To the nearest the floor of the sum with a half is taken. -/
theorem roundDecimal_nearest (hm : m.rounding = .nearest) {x : Decimal}
    (hasked : roundingDigits x precision ≤ Context.maxPrecision) :
    m.roundDecimal x precision =
      (Decimal.halfContext (roundingDigits x precision)).add x (.finite false 5 (-1)) >>=
        Decimal.toIntegral RoundingPolicy.down.decimal := by
  unfold roundDecimal
  refine (if_neg (Nat.not_lt.mpr hasked)).trans ?_
  rw [hm]
  rfl

/-- In another direction the fraction is cut off. -/
theorem roundDecimal_directed (hm : m.rounding ≠ .nearest) {x : Decimal}
    (hasked : roundingDigits x precision ≤ Context.maxPrecision) :
    m.roundDecimal x precision = x.toIntegral m.rounding.decimal := by
  unfold roundDecimal
  refine (if_neg (Nat.not_lt.mpr hasked)).trans ?_
  split
  · rename_i hnearest
    exact absurd hnearest hm
  · rfl

/-- More digits than decimal arithmetic can hold are asked for in vain. -/
theorem roundDecimal_eq_error {x : Decimal} (hasked : Context.maxPrecision < roundingDigits x precision) :
    m.roundDecimal x precision = .error (.domain "valid range for prec is [1, MAX_PREC]") := by
  unfold roundDecimal
  exact if_pos hasked

/-- A decimal that can be rounded is rounded to the integer of the policy. -/
theorem exists_roundDecimal (hdigits : digitCount c ≤ precision)
    (hcan : m.CanRound (.finite s c e) precision (withSign s (c * 10 ^ e))) :
    ∃ y, m.roundDecimal (.finite s c e) precision = .ok y ∧
      y.number? = some (m.rounding.integer (withSign s (c * 10 ^ e)) : Rat) := by
  obtain ⟨hasked, hrange⟩ := hcan
  obtain ⟨hleast, hcount, hplaces⟩ := roundingDigits_spec s c e precision
  by_cases hm : m.rounding = .nearest
  · obtain ⟨y, t, hsum, hnumber, hfloor⟩ :=
      Decimal.exists_add_half s hleast (hdigits.trans hcount) hplaces (hrange hm)
    obtain ⟨z, hz, hinteger⟩ := Decimal.exists_toIntegral (p := .down) (by decide) hnumber
    refine ⟨z, ?_, ?_⟩
    · rw [roundDecimal_nearest hm hasked, hsum, ok_bind, hz]
    · rw [hinteger, hm]
      exact congrArg (fun n : Int => some (n : Rat)) hfloor
  · rw [roundDecimal_directed hm hasked]
    exact Decimal.exists_toIntegral hm rfl

/-- A decimal that cannot be rounded gives no result. -/
theorem exists_roundDecimal_eq_error
    (hcannot : ¬ m.CanRound (.finite s c e) precision (withSign s (c * 10 ^ e))) :
    ∃ fault, m.roundDecimal (.finite s c e) precision = .error fault := by
  by_cases hasked : roundingDigits (.finite s c e) precision ≤ Context.maxPrecision
  · obtain ⟨hleast, -, hplaces⟩ := roundingDigits_spec s c e precision
    have hbeyond : m.rounding = .nearest ∧ (10 : Rat) ^ (maxExponent + 1) ≤ |withSign s (c * 10 ^ e) + 1 / 2| := by
      by_contra hnot
      exact hcannot ⟨hasked, fun hm => not_le.mp fun hle => hnot ⟨hm, hle⟩⟩
    refine ⟨.decimalOverflow, ?_⟩
    rw [roundDecimal_nearest hbeyond.1 hasked, Decimal.add_half_eq_error s hleast hplaces hbeyond.2, error_bind]
  · exact ⟨_, roundDecimal_eq_error (Nat.not_le.mp hasked)⟩

/-- **Rounding a decimal gives the exact integer of the policy**, whatever the signs and the places of its digits.
    There is a result exactly if decimal arithmetic can round the number. -/
theorem round_decimal (m : Modes) (ctx : Context) (s : Bool) {c : Nat} (e : Int)
    (hdigits : digitCount c ≤ ctx.precision) :
    (m.CanRound (.finite s c e) ctx.precision (withSign s (c * 10 ^ e)) →
      ∃ y, m.round (.decimal (.finite s c e) ctx) = .ok (.decimal y ctx) ∧
        y.number? = some (m.rounding.integer (withSign s (c * 10 ^ e)) : Rat)) ∧
    (¬ m.CanRound (.finite s c e) ctx.precision (withSign s (c * 10 ^ e)) →
      ∃ failure, m.round (.decimal (.finite s c e) ctx) = .error failure) := by
  constructor
  · intro hcan
    obtain ⟨y, hy, hnumber⟩ := exists_roundDecimal hdigits hcan
    refine ⟨y, ?_, hnumber⟩
    rw [round, hy]
    rfl
  · intro hcannot
    obtain ⟨fault, hfault⟩ := exists_roundDecimal_eq_error hcannot
    refine ⟨.fault fault, ?_⟩
    rw [round, hfault]
    rfl

/-- With two digits, 9.9 and a half are 10 instead of 10.4; 9.9 is rounded to ten all the same. -/
theorem round_carried :
    digitCount 99 ≤ 2 ∧ initial.CanRound (.finite false 99 (-1)) 2 (withSign false (99 * 10 ^ (-1 : Int))) ∧
      (Context.mk 2 .halfEven).add (.finite false 99 (-1)) (.finite false 5 (-1)) = .ok (.finite false 10 0) ∧
      ∃ y, initial.round (.decimal (.finite false 99 (-1)) ⟨2, .halfUp⟩) = .ok (.decimal y ⟨2, .halfUp⟩) ∧
        y.number? = some 10 := by
  have hcan : initial.CanRound (.finite false 99 (-1)) 2 (withSign false (99 * 10 ^ (-1 : Int))) := by
    refine ⟨by decide, fun _ => ?_⟩
    have hrange : (10 : Rat) ^ (2 : Int) ≤ 10 ^ (maxExponent + 1) :=
      zpow_le_zpow_right₀ (by norm_num) (by decide)
    refine lt_of_lt_of_le ?_ hrange
    norm_num [withSign, abs_lt]
  refine ⟨by decide, hcan, rfl, ?_⟩
  obtain ⟨y, hy, hnumber⟩ := (round_decimal initial ⟨2, .halfUp⟩ false (-1) (c := 99) (by decide)).1 hcan
  refine ⟨y, hy, hnumber.trans ?_⟩
  norm_num [RoundingPolicy.integer, initial, withSign]

/-- The power of ten with a million zeros has no sum with a half, and so no nearest integer; and one with a great
    many more zeros asks for more digits than decimal arithmetic can hold. -/
theorem round_beyond_range :
    digitCount 1 ≤ 50 ∧
      initial.round (.decimal (.finite false 1 1000000) ⟨50, .halfEven⟩) = .error (.fault .decimalOverflow) ∧
      { initial with rounding := .up }.round (.decimal (.finite false 1 999999999999999999) ⟨50, .halfEven⟩) =
        .error (.fault (.domain "valid range for prec is [1, MAX_PREC]")) := by
  refine ⟨by decide, ?_, ?_⟩
  · have hasked : roundingDigits (.finite false 1 1000000) 50 ≤ Context.maxPrecision := by decide
    obtain ⟨hleast, -, hplaces⟩ := roundingDigits_spec false 1 1000000 50
    have hbeyond : (10 : Rat) ^ (maxExponent + 1) ≤ |withSign false ((1 : Nat) * 10 ^ (1000000 : Int)) + 1 / 2| := by
      show (10 : Rat) ^ (1000000 : Int) ≤ |((1 : Nat) : Rat) * 10 ^ (1000000 : Int) + 1 / 2|
      have hpos := Decimal.ten_zpow_pos 1000000
      rw [Nat.cast_one, one_mul, abs_of_pos (add_pos hpos one_half_pos)]
      exact le_add_of_nonneg_right one_half_pos.le
    rw [round, roundDecimal_nearest rfl hasked, Decimal.add_half_eq_error false hleast hplaces hbeyond]
    rfl
  · rw [round, roundDecimal_eq_error (by decide)]
    rfl

end Modes

end SciCalc
