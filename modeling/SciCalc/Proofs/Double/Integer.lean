/-
  Integers that pass through doubles.

  1. **Nearest doubles** (`exists_number?_ofInt?`) — the double of an integer is that integer if it has at
     most 53 bits, and an even integer otherwise.

  2. **Quotients** (`exists_nearest_ratio`) — how far the double quotient of two integers is off.

  3. **Powers of units** (`pow_unit`) — one and minus one to a negative integer power are met exactly, as far
     as it can be told whether the double of the exponent is odd.
-/
import SciCalc.Double.Functions
import SciCalc.Proofs.Decimal.Number

namespace SciCalc

open Binary (withSign)

namespace Format

variable {f : Format} {s : Bool} {r : Rat} {q : Nat} {j : Int} {x : Binary}

/-- What is not infinite is a nearest number. -/
theorem Rounded.exists_nearest (h : f.Rounded s r x) (hx : x.isInfinite = false) :
    ∃ q j, f.Nearest r q j ∧ x.number? = some (withSign s (q * 2 ^ j)) := by
  obtain ⟨q, j, hnearest, ⟨-, hvalue⟩ | ⟨-, rfl⟩⟩ := h
  · exact ⟨q, j, hnearest, hvalue⟩
  · cases hx

/-- Beyond the integers that have room in a mantissa all numbers of a format are even integers. -/
theorem Nearest.even_of_le (h : f.Nearest r q j) (hp : 0 < f.precision) (hr : (2 : Rat) ^ f.precision ≤ r) :
    ∃ k : Nat, (q : Rat) * 2 ^ j = ((2 * k : Nat) : Rat) := by
  have hnear := h.near
  rw [← le_div_iff₀' two_pos, abs_le] at hnear
  have hfits : (q : Rat) ≤ 2 ^ f.precision := by exact_mod_cast h.fits
  have hone : (1 : Rat) ≤ 2 ^ f.precision := one_le_pow₀ one_le_two
  have hj : 0 ≤ j := by
    by_contra hneg
    have hhalf : (2 : Rat) ^ j ≤ 2 ^ (-1 : Int) := zpow_le_zpow_right₀ one_le_two (by omega)
    rw [zpow_neg_one] at hhalf
    have hmul : (q : Rat) * 2 ^ j ≤ 2 ^ f.precision * 2⁻¹ :=
      mul_le_mul hfits hhalf (Binary.two_zpow_pos j).le (by linarith)
    linarith [hnear.1]
  obtain ⟨d, rfl⟩ := Int.eq_ofNat_of_zero_le hj
  rw [Binary.two_zpow_natCast, ← Nat.cast_mul]
  cases d with
  | succ d => exact ⟨q * 2 ^ d, congrArg Nat.cast (by rw [Nat.pow_succ]; ring)⟩
  | zero =>
    -- one more than half a mantissa is not enough for the least of these integers
    have hlt : (2 : Rat) ^ f.precision < q + 1 := by
      have hlower := hnear.1
      rw [Nat.cast_zero, zpow_zero, mul_one] at hlower
      linarith
    have hq : q = 2 ^ f.precision := by
      refine le_antisymm h.fits (Nat.lt_succ_iff.mp ?_)
      exact_mod_cast hlt
    refine ⟨2 ^ (f.precision - 1), congrArg Nat.cast ?_⟩
    rw [Nat.pow_zero, Nat.mul_one, hq, ← Nat.pow_succ']
    exact congrArg (2 ^ ·) (by omega)

end Format

namespace Double

variable {n : Int} {x : Binary}

/-! ## Nearest doubles -/

/-- An integer that becomes a double becomes the nearest one. -/
theorem exists_nearest_ofInt? (hn : n ≠ 0) (h : ofInt? n = .ok x) :
    ∃ q j, Format.double.Nearest n.natAbs q j ∧ x.number? = some (withSign (decide (n < 0)) (q * 2 ^ j)) := by
  have hrounded := Format.rounded_round (f := .double) rfl (by decide) (Int.natAbs_ne_zero.mpr hn)
    (decide (n < 0)) 0
  rw [zpow_zero, mul_one] at hrounded
  unfold ofInt? ofInt Format.ofInt at h
  split at h
  · cases h
  · rename_i hfinite
    cases h
    refine hrounded.exists_nearest ?_
    cases hround : Format.double.round (decide (n < 0)) n.natAbs 0 with
    | infinite s => exact absurd hround (hfinite s)
    | _ => rfl

/-- An integer of at most 53 bits is a double. -/
theorem holds_of_lt (hn : n.natAbs < 2 ^ 53) : Holds n := holds_of_width_le (Binary.width_le_iff.mpr hn)

/-- **The double of an integer** is an integer of its sign: itself if it has at most 53 bits, and an even one
    otherwise. -/
theorem exists_number?_ofInt? (h : ofInt? n = .ok x) :
    ∃ k : Int, x.number? = some (k : Rat) ∧ (n < 0 → k < 0) ∧ (n.natAbs < 2 ^ 53 → k = n) ∧
      (2 ^ 53 ≤ n.natAbs → k % 2 = 0) := by
  by_cases hn : n = 0
  · subst hn
    cases h
    refine ⟨0, (Binary.number?_of_isZero rfl).trans (congrArg some Int.cast_zero.symm), ?_, ?_, ?_⟩ <;> decide
  obtain ⟨q, j, hnearest, hvalue⟩ := exists_nearest_ofInt? hn h
  by_cases hsmall : n.natAbs < 2 ^ 53
  · have hfits := holds_iff_fits.mp (holds_of_lt hsmall)
    rw [← Int.cast_abs, Int.abs_eq_natAbs, Int.cast_natCast] at hfits
    rw [hnearest.eq_of_fits (by decide) hfits, Binary.withSign_natAbs] at hvalue
    exact ⟨n, hvalue, id, fun _ => rfl, fun hlarge => absurd hlarge (Nat.not_le.mpr hsmall)⟩
  · have hlarge : (2 : Rat) ^ Format.double.precision ≤ (n.natAbs : Rat) := by
      exact_mod_cast Nat.not_lt.mp hsmall
    obtain ⟨k, hk⟩ := hnearest.even_of_le (by decide) hlarge
    have hpos : (2 : Rat) ^ (0 : Int) ≤ q * 2 ^ j := by
      refine hnearest.two_zpow_le ?_ fun least limit hrange => ?_
      · rw [zpow_zero]
        exact_mod_cast Nat.pos_of_ne_zero (Int.natAbs_ne_zero.mpr hn)
      · cases hrange
        decide
    rw [zpow_zero, hk] at hpos
    have hone : 1 ≤ 2 * k := by exact_mod_cast hpos
    rw [hk, Binary.withSign_natCast] at hvalue
    refine ⟨_, hvalue, fun hneg => ?_, fun hlt => absurd hlt hsmall, fun _ => ?_⟩
    · rw [if_pos (decide_eq_true hneg)]
      omega
    · split <;> omega

/-! ## Quotients -/

/-- A fraction is its magnitude with the sign that its parts give it. -/
theorem div_eq_withSign (a b : Int) :
    (a : Rat) / b = withSign (decide (a < 0) != decide (b < 0)) |(a : Rat) / b| := by
  have hcast : ∀ c : Int, (c : Rat) = withSign (decide (c < 0)) |(c : Rat)| := fun c => by
    rw [← Binary.withSign_natAbs c, Binary.abs_withSign, Nat.abs_cast]
  rw [abs_div]
  conv_lhs => rw [hcast a, hcast b]
  cases decide (a < 0) <;> cases decide (b < 0) <;> simp [withSign, neg_div, div_neg]

/-- **The double quotient of integers** is nearest to the exact one. -/
theorem exists_nearest_ratio {a b : Int} (ha : a ≠ 0) (hb : b ≠ 0) (h : ratio a b = .ok x) :
    ∃ q j, Format.double.Nearest |(a : Rat) / b| q j ∧
      x.number? = some (withSign (decide (a < 0) != decide (b < 0)) (q * 2 ^ j)) := by
  have hrounded := Format.rounded_quotient (f := .double) rfl (by decide) (Int.natAbs_ne_zero.mpr ha)
    (Int.natAbs_ne_zero.mpr hb) (decide (a < 0) != decide (b < 0)) 0
  have hcast : ∀ c : Int, ((c.natAbs : Nat) : Rat) = |(c : Rat)| := fun c => by
    rw [Nat.cast_natAbs, Int.cast_abs]
  rw [zpow_zero, mul_one, hcast, hcast, ← abs_div] at hrounded
  rw [ratio, if_neg hb, if_neg ha] at h
  split at h
  · cases h
  · rename_i hfinite
    cases h
    refine hrounded.exists_nearest ?_
    cases hround : Format.double.quotient (decide (a < 0) != decide (b < 0)) a.natAbs b.natAbs 0 with
    | infinite s => exact absurd hround (hfinite s)
    | _ => rfl

/-! ## Powers of units -/

/-- A double is odd exactly if it is an odd integer. -/
theorem isOdd_iff {k : Int} (h : x.number? = some (k : Rat)) : x.isOdd = true ↔ k % 2 = 1 := by
  have whole := (Binary.isIntegral_of_number? h).1
  have floor := Binary.floor?_of_number? h
  cases x with
  | infinite s => cases h
  | nan => cases h
  | finite s m e =>
    by_cases he : 0 ≤ e
    · rw [Binary.floor?, if_pos he, Option.some.injEq] at floor
      by_cases hzero : e = 0
      · subst hzero
        simp only [Int.toNat_zero, Nat.shiftLeft_zero] at floor
        simp only [Binary.isOdd, Int.neg_zero, Int.toNat_zero, Nat.shiftRight_zero, Nat.shiftLeft_zero,
          Bool.and_eq_true, decide_eq_true_eq, and_true]
        rw [← floor]
        split <;> omega
      · -- the last bit of a number with zeros behind its mantissa is none of the mantissa
        obtain ⟨d, rfl⟩ : ∃ d : Nat, e = d + 1 := ⟨(e - 1).toNat, by omega⟩
        have heven : m <<< (((d : Int) + 1).toNat) = 2 * (m * 2 ^ d) := by
          rw [Nat.shiftLeft_eq, show ((d : Int) + 1).toNat = d + 1 by omega, Nat.pow_succ]
          ring
        rw [heven] at floor
        simp only [Binary.isOdd, Bool.and_eq_true, decide_eq_true_eq]
        rw [← floor]
        constructor
        · rintro ⟨⟨hle, -⟩, -⟩
          omega
        · split <;> omega
    · have hexact : m = (m >>> (-e).toNat) <<< (-e).toNat := by
        simpa [Binary.isIntegral, he] using whole
      rw [Binary.floor?, if_neg he] at floor
      simp only [← hexact, if_true, Option.some.injEq] at floor
      simp only [Binary.isOdd, Bool.and_eq_true, decide_eq_true_eq]
      rw [← hexact, ← floor]
      constructor
      · rintro ⟨⟨-, hodd⟩, -⟩
        split <;> omega
      · intro hodd
        refine ⟨⟨by omega, ?_⟩, rfl⟩
        split at hodd <;> omega

/-- A power of one is one, however it is computed. -/
theorem powPositive_one {y : Binary} {k : Int} (hy : y.number? = some (k : Rat)) (hk : k < 0) :
    (powPositive 4503599627370496 (-52) y).number? = some 1 := by
  have whole := (Binary.isIntegral_of_number? hy).1
  have floor := Binary.floor?_of_number? hy
  unfold powPositive
  rw [whole, floor]
  dsimp only
  split
  · -- a short power is the reciprocal of an exact one
    rw [if_neg (by omega)]
    obtain ⟨d, rfl⟩ : ∃ d : Nat, k = -d := ⟨(-k).toNat, by omega⟩
    have hbase : (4503599627370496 : Nat) ^ (-(d : Int)).natAbs = 2 ^ (52 * d) := by
      rw [Int.natAbs_neg, Int.natAbs_natCast, Nat.pow_mul]
    have hrounded := Format.rounded_quotient (f := .double) rfl (by decide) Nat.one_ne_zero
      (Nat.two_pow_pos (52 * d)).ne' false (-52 * -(d : Int))
    have hvalue : ((1 : Nat) : Rat) / ((2 ^ (52 * d) : Nat) : Rat) * 2 ^ (-52 * -(d : Int)) = 1 := by
      have hexponent : -52 * -(d : Int) = ((52 * d : Nat) : Int) := by omega
      have hne : ((2 ^ (52 * d) : Nat) : Rat) ≠ 0 := Nat.cast_ne_zero.mpr (Nat.two_pow_pos _).ne'
      rw [hexponent, Binary.two_zpow_natCast, Nat.cast_one, one_div_mul_cancel hne]
    rw [hvalue] at hrounded
    have hfits := holds_iff_fits.mp (holds_of_width_le (n := 1) (by decide))
    rw [Int.cast_one, abs_one] at hfits
    rw [hbase]
    exact hrounded.number?_of_fits (by decide) hfits
  · -- the logarithm of one is zero
    cases y with
    | infinite s => cases hy
    | nan => cases hy
    | finite t m e =>
      have hln : Elementary.lnWide wideBits (.finite false 4503599627370496 (-52)) = .zero := by decide
      have hmul : (Format.ofBits wideBits).mul (.finite t m e) .zero = .zero := by
        rw [Binary.zero, Format.mul, Nat.mul_zero, Format.round, if_pos rfl, Format.zero]
        rw [show (Format.ofBits wideBits).signedZero = false from rfl, Bool.and_false]
      have hone : ofWide (Elementary.expWide wideBits .zero) = .finite false 4503599627370496 (-52) := by
        decide
      rw [powPositive.general, hln, hmul, hone, Binary.number?_finite, withSign, if_neg Bool.false_ne_true]
      norm_num

/-- **One and minus one to a negative integer power** are met exactly. -/
theorem pow_unit (s : Bool) {y : Binary} {k : Int} (hy : y.number? = some (k : Rat)) (hk : k < 0) :
    ∃ r, pow (.finite s 4503599627370496 (-52)) y = .ok (.real r) ∧
      r.number? = some (withSign (s && decide (k % 2 = 1)) 1) := by
  have hone := powPositive_one hy hk
  have hodd : y.isOdd = decide (k % 2 = 1) := Bool.eq_iff_iff.mpr (by
    rw [isOdd_iff hy, decide_eq_true_eq])
  have hwhole := (Binary.isIntegral_of_number? hy).1
  cases y with
  | infinite t => cases hy
  | nan => cases hy
  | finite t m e =>
    have hzero : (Binary.finite t m e).isZero = false := by
      rw [Bool.eq_false_iff]
      intro hz
      rw [Binary.number?_of_isZero hz, Option.some.injEq] at hy
      have hk0 : k = 0 := by exact_mod_cast hy.symm
      omega
    have hbase : (4503599627370496 : Nat) ≠ 0 := by decide
    unfold pow
    simp only [hzero, Bool.false_eq_true, if_false, Binary.isNaN, hbase, hwhole, Bool.not_true, Bool.and_false,
      Bool.true_and, hodd, Binary.isNegative]
    cases hpower : powPositive 4503599627370496 (-52) (.finite t m e) with
    | infinite u =>
      rw [hpower] at hone
      cases hone
    | nan =>
      rw [hpower] at hone
      cases hone
    | finite u a i =>
      rw [hpower] at hone
      refine ⟨_, rfl, ?_⟩
      cases hneg : s && decide (k % 2 = 1) with
      | false => exact hone
      | true =>
        rw [if_pos rfl, Binary.number?_neg, hone]
        rfl

end Double

end SciCalc
