/-
  Whole quotients and remainders.

  1. **Magnitudes** (`times`, `rest`) — how often one magnitude goes into another one, and what is left.  The whole
     quotient of two decimals is the one and their remainder the other, finished; there is neither if the quotient
     has more digits than the precision (`divideInt_eq`, `remainder_eq`).

  2. **Remainders** (`Remains`) — a remainder has no more digits than one of the operands, so nothing is rounded off
     it (`number?_of_remainder`).

  3. **Floors** (`number?_of_floorQuotient`) — whether there is a remainder, and of which sign, tells whether the
     quotient without its fraction is the floor or one more.  One less may have a digit too many, but then it is a
     power of ten and loses nothing but a zero (`finished_succ`).

  4. **Values** (`floor_and_remainder`) — so integers and decimals are divided alike.
-/
import SciCalc.Proofs.Decimal.Rounding
import SciCalc.Proofs.Operator.Exact

namespace SciCalc

open Attempt Number
open Binary (withSign)
open Decimal (ten_zpow_pos)

/-! ## Magnitudes -/

namespace Decimal

variable {s t : Bool} {c d : Nat} {e f : Int}

/-- How often a magnitude goes into another one. -/
def times (c : Nat) (e : Int) (d : Nat) (f : Int) : Nat := aligned c e (min e f) / aligned d f (min e f)

/-- What it leaves, at the lower exponent. -/
def rest (c : Nat) (e : Int) (d : Nat) (f : Int) : Nat := aligned c e (min e f) % aligned d f (min e f)

theorem aligned_pos (hd : d ≠ 0) (f low : Int) : 0 < aligned d f low :=
  Nat.mul_pos (Nat.pos_of_ne_zero hd) (Nat.pow_pos (by omega))

/-- The magnitude is made up of the other one and what is left. -/
theorem eq_mul_times_add_rest (c : Nat) (e : Int) (d : Nat) (f : Int) :
    (c : Rat) * 10 ^ e = d * 10 ^ f * times c e d f + rest c e d f * 10 ^ min e f := by
  have hsplit := congrArg (Nat.cast (R := Rat)) (Nat.div_add_mod (aligned c e (min e f)) (aligned d f (min e f)))
  rw [Nat.cast_add, Nat.cast_mul] at hsplit
  rw [← aligned_mul_ten_zpow c (min_le_left e f), ← aligned_mul_ten_zpow d (min_le_right e f), ← hsplit, times,
    rest]
  ring

/-- Less than the other magnitude is left. -/
theorem rest_lt (c : Nat) (e : Int) (hd : d ≠ 0) (f : Int) :
    (rest c e d f : Rat) * 10 ^ min e f < d * 10 ^ f := by
  rw [← aligned_mul_ten_zpow d (min_le_right e f)]
  exact mul_lt_mul_of_pos_right (Nat.cast_lt.mpr (Nat.mod_lt _ (aligned_pos hd f _))) (ten_zpow_pos _)

/-- What is left has no more digits than one of the magnitudes. -/
theorem rest_le (c : Nat) (e : Int) (hd : d ≠ 0) (f : Int) : rest c e d f ≤ c ∨ rest c e d f < d := by
  rcases le_total e f with hle | hle
  · left
    have hsame : aligned c e (min e f) = c := by
      rw [min_eq_left hle, aligned, Int.sub_self, Int.toNat_zero, Nat.pow_zero, Nat.mul_one]
    rw [rest, hsame]
    exact Nat.mod_le _ _
  · right
    have hsame : aligned d f (min e f) = d := by
      rw [min_eq_right hle, aligned, Int.sub_self, Int.toNat_zero, Nat.pow_zero, Nat.mul_one]
    rw [rest, hsame]
    exact Nat.mod_lt _ (Nat.pos_of_ne_zero hd)

theorem digitCount_rest_le {precision : Nat} (hc : digitCount c ≤ precision) (hd : d ≠ 0)
    (hdigits : digitCount d ≤ precision) (e f : Int) : digitCount (rest c e d f) ≤ precision := by
  have hprecision : 0 < precision := lt_of_lt_of_le (digitCount_pos hd) hdigits
  rw [digitCount_le_iff hprecision] at hc hdigits ⊢
  rcases rest_le c e hd f with hle | hlt
  · exact lt_of_le_of_lt hle hc
  · exact hlt.trans hdigits

/-- Nothing is left if the number that is left is zero. -/
theorem rest_mul_eq_zero (c : Nat) (e : Int) (d : Nat) (f : Int) :
    (rest c e d f : Rat) * 10 ^ min e f = 0 ↔ rest c e d f = 0 := by
  rw [mul_eq_zero, Nat.cast_eq_zero, or_iff_left (ten_zpow_pos _).ne']

/-- The less magnitude is all that is left of itself. -/
theorem times_of_lt (h : compareMagnitude c e d f = .lt) :
    times c e d f = 0 ∧ rest c e d f = aligned c e (min e f) := by
  rw [compareMagnitude_eq_cmp, cmp_eq_lt_iff, ← aligned_mul_ten_zpow c (min_le_left e f),
    ← aligned_mul_ten_zpow d (min_le_right e f)] at h
  have hlt := Nat.cast_lt.mp (lt_of_mul_lt_mul_right h (ten_zpow_pos _).le)
  exact ⟨Nat.div_eq_of_lt hlt, Nat.mod_eq_of_lt hlt⟩

/-- Leading digits that are too far apart leave a long quotient. -/
theorem lt_digitCount_times {precision : Nat} (hprecision : 0 < precision) (hc : c ≠ 0) (hd : d ≠ 0)
    (h : (precision : Int) < e + digitCount c - (f + digitCount d)) : precision < digitCount (times c e d f) := by
  rw [← not_le, digitCount_le_iff hprecision, not_lt, times, Nat.le_div_iff_mul_le (aligned_pos hd f _)]
  have hten : (1 : Rat) ≤ 10 := by norm_num
  have hnumbers : (10 : Rat) ^ precision * (d * 10 ^ f) ≤ c * 10 ^ e :=
    calc (10 : Rat) ^ precision * (d * 10 ^ f) ≤ 10 ^ precision * 10 ^ (f + digitCount d) :=
          mul_le_mul_of_nonneg_left (Format.lt_ten_zpow hd).le (by positivity)
      _ = 10 ^ (precision + (f + digitCount d)) := by rw [zpow_add₀ (by norm_num) (precision : Int), zpow_natCast]
      _ ≤ 10 ^ (e + digitCount c - 1) := zpow_le_zpow_right₀ hten (by omega)
      _ ≤ c * 10 ^ e := Format.ten_zpow_le hc
  rw [← aligned_mul_ten_zpow c (min_le_left e f), ← aligned_mul_ten_zpow d (min_le_right e f), ← mul_assoc] at hnumbers
  have := le_of_mul_le_mul_right hnumbers (ten_zpow_pos _)
  exact_mod_cast this

end Decimal

namespace Context

open Decimal

variable {ctx : Context} {s t : Bool} {c d : Nat} {e f : Int}

/-- **Whole quotient and rest**: there are none if the quotient has more digits than the precision. -/
theorem divMod_eq (hprecision : 0 < ctx.precision) (c : Nat) (e : Int) (hd : d ≠ 0) (f : Int) :
    ctx.divMod c e d f =
      if digitCount (times c e d f) ≤ ctx.precision then .ok (times c e d f, rest c e d f)
      else .error (.undefined .division) := by
  unfold divMod
  by_cases hc : c = 0
  · subst hc
    have hzero : aligned 0 e (min e f) = 0 := Nat.zero_mul _
    rw [if_pos rfl, times, rest, hzero, Nat.zero_div, Nat.zero_mod, digitCount_zero, if_pos (Nat.succ_le_of_lt hprecision)]
  rw [if_neg hc]
  split
  · rename_i hlong
    rw [if_neg (not_le.mpr (lt_digitCount_times hprecision hc hd hlong))]
  · dsimp only
    split
    · rename_i hlong
      exact (if_neg (not_le.mpr hlong)).symm
    · rename_i hshort
      exact (if_pos (not_lt.mp hshort)).symm

/-- **The whole quotient of two decimals.** -/
theorem divideInt_eq (hprecision : 0 < ctx.precision) (s : Bool) (c : Nat) (e : Int) (t : Bool) (hd : d ≠ 0)
    (f : Int) :
    ctx.divideInt (.finite s c e) (.finite t d f) =
      if digitCount (times c e d f) ≤ ctx.precision then ctx.finish (s != t) (times c e d f) 0
      else .error (.undefined .division) := by
  simp only [divideInt, nanResult?, if_neg hd]
  split
  · rename_i hless
    rw [(times_of_lt hless).1, digitCount_zero, if_pos (Nat.succ_le_of_lt hprecision)]
  · rw [divMod_eq hprecision c e hd f]
    by_cases hfits : digitCount (times c e d f) ≤ ctx.precision
    · rw [if_pos hfits, if_pos hfits, ok_bind]
    · rw [if_neg hfits, if_neg hfits, error_bind]

/-- **The remainder of two decimals.** -/
theorem remainder_eq (hprecision : 0 < ctx.precision) (s : Bool) (c : Nat) (e : Int) (t : Bool) (hd : d ≠ 0)
    (f : Int) :
    ctx.remainder (.finite s c e) (.finite t d f) =
      if digitCount (times c e d f) ≤ ctx.precision then ctx.finish s (rest c e d f) (min e f)
      else .error (.undefined .division) := by
  simp only [remainder, nanResult?, if_neg hd]
  split
  · rename_i hc
    subst hc
    have hzero : aligned 0 e (min e f) = 0 := Nat.zero_mul _
    rw [times, rest, hzero, Nat.zero_div, Nat.zero_mod, digitCount_zero, if_pos (Nat.succ_le_of_lt hprecision)]
  split
  · rename_i hless
    obtain ⟨htimes, hrest⟩ := times_of_lt hless
    rw [htimes, hrest, digitCount_zero, if_pos (Nat.succ_le_of_lt hprecision)]
  · rw [divMod_eq hprecision c e hd f]
    by_cases hfits : digitCount (times c e d f) ≤ ctx.precision
    · rw [if_pos hfits, if_pos hfits, ok_bind]
    · rw [if_neg hfits, if_neg hfits, error_bind]

end Context

/-! ## Remainders -/

/-- **What truncated division leaves**: the dividend less a multiple of the divisor, smaller than the divisor and
    with the sign of the dividend. -/
def Remains (a b r : Rat) : Prop := a - r = b * truncated (a / b) ∧ |r| < |b| ∧ (r = 0 ∨ 0 < a * r)

/-- A number and what is left without its fraction differ by less than one, and have no opposite signs. -/
theorem truncated_spec (q : Rat) :
    |q - truncated q| < 1 ∧ (q - truncated q = 0 ∨ 0 < q * (q - truncated q)) := by
  have hlower := Int.floor_le q
  have hless := Int.lt_floor_add_one q
  have hupper := Int.le_ceil q
  have hmore := Int.ceil_lt_add_one q
  unfold truncated
  split
  · rename_i hq
    refine ⟨abs_lt.mpr ⟨by linarith, by linarith⟩, ?_⟩
    rcases eq_or_lt_of_le (sub_nonneg.mpr hlower) with hzero | hpos
    · exact Or.inl hzero.symm
    · right
      rcases eq_or_lt_of_le hq with rfl | hq
      · rw [Int.floor_zero, Int.cast_zero, sub_zero] at hpos
        exact absurd hpos (lt_irrefl 0)
      · exact mul_pos hq hpos
  · rename_i hq
    refine ⟨abs_lt.mpr ⟨by linarith, by linarith⟩, ?_⟩
    rcases eq_or_lt_of_le (sub_nonpos.mpr hupper) with hzero | hneg
    · exact Or.inl hzero
    · exact Or.inr (mul_pos_of_neg_of_neg (not_le.mp hq) hneg)

/-- **Truncated division leaves this number.** -/
theorem remains_sub (a : Rat) {b : Rat} (hb : b ≠ 0) : Remains a b (a - b * truncated (a / b)) := by
  obtain ⟨hless, hsign⟩ := truncated_spec (a / b)
  have hrest : a - b * truncated (a / b) = b * (a / b - truncated (a / b)) := by
    rw [mul_sub, mul_div_cancel₀ a hb]
  refine ⟨sub_sub_cancel _ _, ?_, ?_⟩
  · rw [hrest, abs_mul]
    exact mul_lt_of_lt_one_right (abs_pos.mpr hb) hless
  · rw [hrest]
    rcases hsign with hzero | hpos
    · exact Or.inl (by rw [hzero, mul_zero])
    · right
      have hfactor : a * (b * (a / b - truncated (a / b))) = b * b * (a / b * (a / b - truncated (a / b))) := by
        field_simp
      rw [hfactor]
      exact mul_pos (mul_self_pos.mpr hb) hpos

theorem withSign_eq_zero_iff {s : Bool} {u : Rat} : withSign s u = 0 ↔ u = 0 := by
  rw [← abs_eq_zero, Binary.abs_withSign, abs_eq_zero]

theorem withSign_div (s t : Bool) (u v : Rat) : withSign s u / withSign t v = withSign (s != t) (u / v) := by
  cases s <;> cases t <;> simp [withSign, neg_div, div_neg]

namespace Decimal

variable {ctx : Context} {s t : Bool} {c d : Nat} {e f : Int}

/-- What is left has the sign of the dividend. -/
theorem withSign_rest (s : Bool) (c : Nat) (e : Int) (t : Bool) (hd : d ≠ 0) (f : Int) :
    withSign s (rest c e d f * 10 ^ min e f) =
      withSign s (c * 10 ^ e) - withSign t (d * 10 ^ f) *
        truncated (withSign s (c * 10 ^ e) / withSign t (d * 10 ^ f)) := by
  have hpos : (0 : Rat) < d * 10 ^ f := mul_pos (Nat.cast_pos.mpr (Nat.pos_of_ne_zero hd)) (ten_zpow_pos f)
  have hle : (0 : Rat) ≤ c * 10 ^ e := mul_nonneg c.cast_nonneg (ten_zpow_pos e).le
  have hfloor := floor_div_of hpos (eq_mul_times_add_rest c e d f)
    (mul_nonneg (Nat.cast_nonneg _) (ten_zpow_pos _).le) (rest_lt c e hd f)
  rw [withSign_div, truncated_withSign _ (div_nonneg hle hpos.le), hfloor, eq_mul_times_add_rest c e d f]
  cases s <;> cases t <;> simp [withSign]

/-- **A remainder is exact**, if no digits of the operands are below the least exponent. -/
theorem number?_of_remainder (hc : digitCount c ≤ ctx.precision) (hd : d ≠ 0)
    (hdigits : digitCount d ≤ ctx.precision) (he : ctx.tiny ≤ e) (hf : ctx.tiny ≤ f) {r : Decimal}
    (h : ctx.remainder (.finite s c e) (.finite t d f) = .ok r) :
    r.number? = some (withSign s (rest c e d f * 10 ^ min e f)) := by
  have hprecision : 0 < ctx.precision := lt_of_lt_of_le (digitCount_pos hd) hdigits
  rw [Context.remainder_eq hprecision s c e t hd f] at h
  split at h
  · have hkept := Context.surplus_eq_zero (digitCount_rest_le hc hd hdigits e f) (le_min he hf)
    exact Context.number?_of_finish hprecision (Context.finished_of_surplus hkept) h
  · cases h

/-! ## Floors -/

/-- A number that fits and is in front of the point is finished as it is. -/
theorem eq_of_finish {n : Nat} (hn : digitCount n ≤ ctx.precision) {q : Decimal}
    (h : ctx.finish s n 0 = .ok q) : q = .finite s n 0 := by
  have htiny : ctx.tiny ≤ 0 := by
    have hone : 0 < digitCount n := by
      by_cases hzero : n = 0
      · rw [hzero]
        decide
      · exact digitCount_pos hzero
    rw [Context.tiny, Context.minExponent]
    omega
  by_cases hover : (0 : Int) + digitCount n - 1 ≤ Context.maxExponent
  · rw [Context.finish_of_contains ⟨hn, htiny, hover⟩, Except.ok.injEq] at h
    exact h.symm
  · have hzero : n ≠ 0 := by
      rintro rfl
      exact hover (by decide)
    rw [Context.finish, if_neg hzero, if_pos (not_le.mp hover)] at h
    cases h

/-- **One more than fits is a power of ten**, of which nothing but a zero is cut off. -/
theorem finished_succ {n : Nat} (hn : digitCount n ≤ ctx.precision) (hprecision : 0 < ctx.precision) (s : Bool) :
    ctx.finished s (n + 1) 0 = ((n + 1 : Nat) : Rat) * 10 ^ (0 : Int) := by
  refine Context.finished_of_dvd ?_
  have hpos := digitCount_pos (Nat.succ_ne_zero n)
  rw [ctx.surplus_of_le (by rw [Context.minExponent]; omega)]
  by_cases hfits : digitCount (n + 1) ≤ ctx.precision
  · rw [Nat.sub_eq_zero_of_le hfits, Nat.pow_zero]
    exact Nat.one_dvd _
  · have hpow : n + 1 = 10 ^ ctx.precision := by
      rw [digitCount_le_iff hprecision] at hn hfits
      omega
    have hcount : digitCount (n + 1) ≤ ctx.precision + 1 := by
      rw [digitCount_le_iff (by omega), hpow]
      exact Nat.pow_lt_pow_right (by omega) (by omega)
    rw [hpow] at hcount ⊢
    exact Nat.pow_dvd_pow 10 (by omega)

/-- One less than a negative number in front of the point. -/
theorem sub_one_eq (ctx : Context) (n : Nat) : ctx.sub (.finite true n 0) one = ctx.finish true (n + 1) 0 := by
  have htrifle : ctx.trifle n 0 1 0 = (1, 0) := by
    unfold Context.trifle
    dsimp only
    rw [if_neg]
    have hone : digitCount 1 = 1 := rfl
    rw [Bool.and_eq_true, decide_eq_true_eq, decide_eq_true_eq, hone]
    rintro ⟨-, hbelow⟩
    omega
  have hadd : ctx.sub (.finite true n 0) one = ctx.addFinite true n 0 true 1 0 := by
    show ctx.add (.finite true n 0) (.finite true 1 0) = _
    simp only [Context.add, Context.nanResult?, le_refl, if_true, htrifle]
  obtain ⟨negative, k, hsum, hnumber⟩ := ctx.exists_addFinite true n 0 true 1 0
  rw [min_self] at hsum hnumber
  have hexact : withSign negative (k : Rat) = -((n + 1 : Nat) : Rat) := by
    simp only [withSign, if_true, zpow_zero, mul_one] at hnumber ⊢
    rw [hnumber]
    push_cast
    ring
  have hnegative : negative = true := (Bool.eq_false_or_eq_true negative).resolve_right fun hpositive => by
    rw [hpositive] at hexact
    have hle : (0 : Rat) ≤ -((n + 1 : Nat) : Rat) := hexact ▸ k.cast_nonneg
    have hless : (0 : Rat) < ((n + 1 : Nat) : Rat) := Nat.cast_pos.mpr n.succ_pos
    linarith
  rw [hnegative] at hexact hsum
  rw [hadd, hsum, Nat.cast_inj.mp (neg_inj.mp hexact)]

theorem compare?_zero (s : Bool) (c : Nat) (e : Int) :
    (finite s c e).compare? (ofInt 0) = some (cmp (withSign s (c * 10 ^ e)) 0) := by
  show some (compareFinite s c e false 0 0) = _
  rw [compareFinite_eq_cmp, Nat.cast_zero, zero_mul, Binary.withSign_zero]

/-- A number that is not zero is negative if its sign is. -/
theorem withSign_neg_iff {s : Bool} {u : Rat} (hu : 0 < u) : withSign s u < 0 ↔ s = true := by
  cases s with
  | false => exact iff_of_false (not_lt.mpr hu.le) Bool.false_ne_true
  | true => exact iff_of_true (neg_neg_of_pos hu) rfl

/-- The floor of a quotient: of operands of one sign the whole quotient, and else its opposite, less one if
    something is left. -/
theorem floor_withSign_div (s t : Bool) (hd : d ≠ 0) :
    ⌊withSign s ((c : Rat) * 10 ^ e) / withSign t ((d : Rat) * 10 ^ f)⌋ =
      if s != t then -((times c e d f : Int) + if rest c e d f = 0 then 0 else 1) else times c e d f := by
  have hpos : (0 : Rat) < d * 10 ^ f := mul_pos (Nat.cast_pos.mpr (Nat.pos_of_ne_zero hd)) (ten_zpow_pos f)
  have hleft : (0 : Rat) ≤ rest c e d f * 10 ^ min e f := mul_nonneg (Nat.cast_nonneg _) (ten_zpow_pos _).le
  rw [withSign_div]
  cases s != t with
  | false => exact floor_div_of hpos (eq_mul_times_add_rest c e d f) hleft (rest_lt c e hd f)
  | true =>
    show ⌊-((c : Rat) * 10 ^ e / (d * 10 ^ f))⌋ = _
    rw [Int.floor_neg, ceil_div_of hpos (eq_mul_times_add_rest c e d f) hleft (rest_lt c e hd f)]
    simp only [rest_mul_eq_zero, if_true]

/-- **The whole quotient is lowered** if something is left, and the operands have opposite signs. -/
theorem floorQuotient_eq (hd : d ≠ 0)
    (hwhole : ctx.divideInt (.finite s c e) (.finite t d f) = .ok (.finite (s != t) (times c e d f) 0)) {r : Decimal}
    (hr : ctx.remainder (.finite s c e) (.finite t d f) = .ok r)
    (hrest : r.number? = some (withSign s (rest c e d f * 10 ^ min e f))) :
    floorQuotient ctx (.finite s c e) (.finite t d f) =
      if rest c e d f = 0 ∨ s = t then .ok (.finite (s != t) (times c e d f) 0)
      else ctx.finish true (times c e d f + 1) 0 := by
  rw [floorQuotient, hwhole, ok_bind, hr, ok_bind]
  cases r with
  | infinite u => cases hrest
  | nan u v w => cases hrest
  | finite u k g =>
    rw [number?_finite, Option.some.injEq] at hrest
    have hzero : k = 0 ↔ rest c e d f = 0 := by
      rw [← rest_mul_eq_zero c e d f, ← withSign_eq_zero_iff (s := s), ← hrest, withSign_eq_zero_iff, mul_eq_zero,
        Nat.cast_eq_zero, or_iff_left (ten_zpow_pos g).ne']
    have hisZero : (finite u k g).isZero = true ↔ rest c e d f = 0 := decide_eq_true_iff.trans hzero
    by_cases hnone : rest c e d f = 0
    · rw [if_pos (Or.inl hnone), if_pos (hisZero.mpr hnone), pure_eq_ok]
    have hleft : (0 : Rat) < rest c e d f * 10 ^ min e f :=
      mul_pos (Nat.cast_pos.mpr (Nat.pos_of_ne_zero hnone)) (ten_zpow_pos _)
    have hpos : (0 : Rat) < d * 10 ^ f := mul_pos (Nat.cast_pos.mpr (Nat.pos_of_ne_zero hd)) (ten_zpow_pos f)
    -- the remainder has the sign of the dividend
    have hsigns : ((cmp (withSign s (rest c e d f * 10 ^ min e f)) 0 = .lt) =
        (cmp (withSign t ((d : Rat) * 10 ^ f)) 0 = .lt)) ↔ s = t := by
      rw [eq_iff_iff, cmp_eq_lt_iff, cmp_eq_lt_iff, withSign_neg_iff hleft, withSign_neg_iff hpos, ← Bool.eq_iff_iff]
    rw [if_neg (mt hisZero.mp hnone), compare?_zero, compare?_zero, hrest]
    dsimp only
    by_cases hsame : s = t
    · rw [if_pos (hsigns.mpr hsame), if_pos (Or.inr hsame), pure_eq_ok]
    · rw [if_neg (mt hsigns.mp hsame), if_neg (not_or.mpr ⟨hnone, hsame⟩), bne_iff_ne.mpr hsame, sub_one_eq]

/-- **A quotient of decimals is rounded down**, if no digits of the operands are below the least exponent. -/
theorem number?_of_floorQuotient (hc : digitCount c ≤ ctx.precision) (hd : d ≠ 0)
    (hdigits : digitCount d ≤ ctx.precision) (he : ctx.tiny ≤ e) (hf : ctx.tiny ≤ f) {z : Decimal}
    (h : floorQuotient ctx (.finite s c e) (.finite t d f) = .ok z) :
    z.number? = some (⌊withSign s ((c : Rat) * 10 ^ e) / withSign t ((d : Rat) * 10 ^ f)⌋ : Rat) := by
  have hprecision : 0 < ctx.precision := lt_of_lt_of_le (digitCount_pos hd) hdigits
  obtain ⟨q, hq, hrest⟩ := bind_eq_ok.mp h
  obtain ⟨r, hr, -⟩ := bind_eq_ok.mp hrest
  have hwhole := Context.divideInt_eq hprecision s c e t hd f
  by_cases hfits : digitCount (times c e d f) ≤ ctx.precision
  swap
  · rw [hwhole, if_neg hfits] at hq
    cases hq
  rw [if_pos hfits] at hwhole
  rw [hwhole] at hq
  rw [eq_of_finish hfits hq] at hq
  rw [floorQuotient_eq hd (hwhole.trans hq) hr (number?_of_remainder hc hd hdigits he hf hr)] at h
  rw [floor_withSign_div s t hd]
  split at h
  · -- nothing is to be taken away
    rename_i hkept
    rw [Except.ok.injEq] at h
    rw [← h, number?_finite, zpow_zero, mul_one, Binary.withSign_natCast]
    rcases hkept with hnone | hsame
    · rw [if_pos hnone, add_zero]
    · rw [hsame, bne_self_eq_false]
      rfl
  · rename_i hlowered
    rw [not_or] at hlowered
    rw [Context.number?_of_finish hprecision (finished_succ hfits hprecision true) h, zpow_zero, mul_one,
      if_neg hlowered.1, bne_iff_ne.mpr hlowered.2]
    push_cast
    rfl

/-! ## Results -/

/-- **Decimals of a context have a remainder** exactly if the whole quotient has no more digits than the
    precision. -/
theorem exists_remainder_iff (hx : ctx.Contains (.finite s c e)) (hd : d ≠ 0) (hy : ctx.Contains (.finite t d f)) :
    (∃ r, ctx.remainder (.finite s c e) (.finite t d f) = .ok r) ↔ digitCount (times c e d f) ≤ ctx.precision := by
  obtain ⟨hc, he, hrange⟩ := hx
  obtain ⟨hdigits, hf, -⟩ := hy
  have hprecision : 0 < ctx.precision := lt_of_lt_of_le (digitCount_pos hd) hdigits
  rw [Context.remainder_eq hprecision s c e t hd f]
  by_cases hfits : digitCount (times c e d f) ≤ ctx.precision
  · rw [if_pos hfits]
    refine iff_of_true ?_ hfits
    have hkept := Context.surplus_eq_zero (digitCount_rest_le hc hd hdigits e f) (le_min he hf)
    refine (Context.exists_finish_of_kept hprecision (Context.finished_of_surplus hkept) ?_).imp fun _ h => h.1
    -- no more is left than there was
    have hle : (rest c e d f : Rat) * 10 ^ min e f ≤ c * 10 ^ e := by
      rw [eq_mul_times_add_rest c e d f]
      exact le_add_of_nonneg_left (mul_nonneg (mul_nonneg d.cast_nonneg (ten_zpow_pos f).le) (Nat.cast_nonneg _))
    refine lt_of_le_of_lt hle ?_
    by_cases hzero : c = 0
    · rw [hzero, Nat.cast_zero, zero_mul]
      exact ten_zpow_pos _
    · exact (lt_ten_zpow_iff hzero).mpr (by omega)
  · rw [if_neg hfits]
    refine iff_of_false ?_ hfits
    rintro ⟨z, hz⟩
    cases hz

/-- **Decimals of a context have a whole quotient** exactly if it has no more digits than the precision, which is
    no more than the greatest exponent. -/
theorem exists_floorQuotient_iff (hlimit : (ctx.precision : Int) ≤ Context.maxExponent)
    (hx : ctx.Contains (.finite s c e)) (hd : d ≠ 0) (hy : ctx.Contains (.finite t d f)) :
    (∃ z, floorQuotient ctx (.finite s c e) (.finite t d f) = .ok z) ↔
      digitCount (times c e d f) ≤ ctx.precision := by
  have hprecision : 0 < ctx.precision := lt_of_lt_of_le (digitCount_pos hd) hy.1
  have hwhole := Context.divideInt_eq hprecision s c e t hd f
  by_cases hfits : digitCount (times c e d f) ≤ ctx.precision
  · refine iff_of_true ?_ hfits
    have hroom : ctx.Contains (.finite (s != t) (times c e d f) 0) := by
      refine ⟨hfits, ?_, by omega⟩
      rw [Context.tiny, Context.minExponent]
      omega
    obtain ⟨r, hr⟩ := (exists_remainder_iff hx hd hy).mpr hfits
    rw [if_pos hfits, Context.finish_of_contains hroom] at hwhole
    rw [floorQuotient_eq hd hwhole hr (number?_of_remainder hx.1 hd hy.1 hx.2.1 hy.2.1 hr)]
    split
    · exact ⟨_, rfl⟩
    · refine (Context.exists_finish_of_kept hprecision (finished_succ hfits hprecision true) ?_).imp fun _ h => h.1
      rw [zpow_zero, mul_one]
      have hless : times c e d f + 1 ≤ 10 ^ ctx.precision := (digitCount_le_iff hprecision).mp hfits
      have hpow : (10 : Rat) ^ (ctx.precision : Int) < 10 ^ (Context.maxExponent + 1) :=
        zpow_lt_zpow_right₀ (by norm_num) (by omega)
      rw [zpow_natCast] at hpow
      exact lt_of_le_of_lt (by exact_mod_cast hless) hpow
  · rw [floorQuotient, hwhole, if_neg hfits, error_bind]
    refine iff_of_false ?_ hfits
    rintro ⟨z, hz⟩
    cases hz

end Decimal

namespace Operands

/-- A result in a context is a decimal of the context. -/
theorem exists_of_decimalResult {ctx : Context} {r : Except Fault Decimal} {v : Value}
    (h : decimalResult ctx r = .ok v) : ∃ x, r = .ok x ∧ v = .decimal x ctx := by
  rw [decimalResult, ofFault, mapError_eq_ok, Context.entered] at h
  split at h
  · cases h
  · obtain ⟨x, hx, hv⟩ := exists_of_map_eq_ok h
    exact ⟨x, hx, hv.symm⟩

/-- **Whole quotients are rounded down, and remainders are what truncated division leaves.**  For integers both are
    always there; for decimals of one precision, no digit of which is below the least exponent of their context,
    whenever they are there. -/
theorem floor_and_remainder :
    (∀ a b : Int, b ≠ 0 →
      (integer a b).floorDivide = .ok (.integer ⌊(a / b : Rat)⌋) ∧
        ∃ r : Int, (integer a b).modulo = .ok (.integer r) ∧ Remains a b r) ∧
    ∀ (ctx other : Context) (s t : Bool) (c d : Nat) (e f : Int), other.precision = ctx.precision →
      digitCount c ≤ ctx.precision → d ≠ 0 → digitCount d ≤ ctx.precision → ctx.tiny ≤ e → ctx.tiny ≤ f →
      (∀ v, (decimal (.finite s c e) (.finite t d f) ctx other).floorDivide = .ok v →
        ∃ q, v = .decimal q ctx ∧
          q.number? = some (⌊withSign s ((c : Rat) * 10 ^ e) / withSign t ((d : Rat) * 10 ^ f)⌋ : Rat)) ∧
      ∀ v, (decimal (.finite s c e) (.finite t d f) ctx other).modulo = .ok v →
        ∃ x r, v = .decimal x ctx ∧ x.number? = some r ∧
          Remains (withSign s ((c : Rat) * 10 ^ e)) (withSign t ((d : Rat) * 10 ^ f)) r := by
  constructor
  · intro a b hb
    refine ⟨?_, a.tmod b, if_neg hb, ?_⟩
    · rw [floorDivide, if_neg hb, fdiv_eq_floor]
    · rw [tmod_eq_sub]
      exact remains_sub a (Int.cast_ne_zero.mpr hb)
  · intro ctx other s t c d e f _ hc hd hdigits he hf
    have hdivisor : ¬ (Decimal.finite t d f).isZero = true := fun hzero => hd (of_decide_eq_true hzero)
    have hnumber : withSign t ((d : Rat) * 10 ^ f) ≠ 0 := fun hzero =>
      hd (Nat.cast_eq_zero.mp ((mul_eq_zero.mp (withSign_eq_zero_iff.mp hzero)).resolve_right (ten_zpow_pos f).ne'))
    constructor
    · intro v hv
      rw [floorDivide, if_neg hdivisor] at hv
      obtain ⟨q, hq, rfl⟩ := exists_of_decimalResult hv
      exact ⟨q, rfl, Decimal.number?_of_floorQuotient hc hd hdigits he hf hq⟩
    · intro v hv
      rw [modulo, if_neg hdivisor] at hv
      obtain ⟨x, hx, rfl⟩ := exists_of_decimalResult hv
      refine ⟨x, _, rfl, Decimal.number?_of_remainder hc hd hdigits he hf hx, ?_⟩
      rw [Decimal.withSign_rest s c e t hd f]
      exact remains_sub _ hnumber

/-- Minus seven by three, with two digits: minus three, and minus one is left. -/
theorem floor_and_remainder_negative :
    let a := Decimal.ofInt (-7)
    let b := Decimal.ofInt 3
    let ctx : Context := ⟨2, .halfUp⟩
    digitCount 7 ≤ ctx.precision ∧ digitCount 3 ≤ ctx.precision ∧ ctx.tiny ≤ 0 ∧
      (decimal a b ctx ctx).floorDivide = .ok (.decimal (.ofInt (-3)) ctx) ∧
      (decimal a b ctx ctx).modulo = .ok (.decimal (.ofInt (-1)) ctx) ∧
      ⌊withSign true (((7 : Nat) : Rat) * 10 ^ (0 : Int)) / withSign false (((3 : Nat) : Rat) * 10 ^ (0 : Int))⌋ =
        -3 := by
  intro a b ctx
  have hquotient : (decimal a b ctx ctx).floorDivide = .ok (.decimal (.ofInt (-3)) ctx) := rfl
  have hdecimals := (floor_and_remainder.2 ctx ctx true false 7 3 0 0 rfl (by decide) (by decide) (by decide)
    (by decide) (by decide)).1 _ hquotient
  refine ⟨by decide, by decide, by decide, hquotient, rfl, ?_⟩
  obtain ⟨q, hq, hnumber⟩ := hdecimals
  cases hq
  rw [Decimal.number?_ofInt, Option.some.injEq, Int.cast_inj] at hnumber
  exact hnumber.symm

/-- Below the least exponent of a context digits are rounded off: no remainder is left of a very small number
    divided by one, and so the quotient of the negative one is not rounded down to minus one. -/
theorem tiny_remainder_lost :
    let ctx : Context := ⟨50, .halfEven⟩
    let a : Rat := 10 ^ (-1000100 : Int)
    digitCount 1 ≤ ctx.precision ∧ (Decimal.finite false 1 (-1000100)).number? = some a ∧
      (decimal (.finite false 1 (-1000100)) (.ofInt 1) ctx ctx).modulo =
        .ok (.decimal (.finite false 0 (-1000048)) ctx) ∧
      (Decimal.finite false 0 (-1000048)).number? = some 0 ∧ ¬ Remains a 1 0 ∧
      (decimal (.finite true 1 (-1000100)) (.ofInt 1) ctx ctx).floorDivide = .ok (.decimal (.finite true 0 0) ctx) ∧
      (Decimal.finite true 0 0).number? = some 0 ∧ ⌊-a / 1⌋ = -1 := by
  intro ctx a
  have hpos : 0 < a := ten_zpow_pos _
  have hless : a < 1 := zpow_lt_one_of_neg₀ (by norm_num) (by decide)
  refine ⟨by decide, ?_, by decide +kernel, Decimal.number?_zero _ _, ?_, by decide +kernel,
    Decimal.number?_zero _ _, ?_⟩
  · rw [Decimal.number?_finite, Nat.cast_one, one_mul]
    rfl
  · rintro ⟨hsplit, -⟩
    have hfloor : truncated (a / 1) = 0 := by
      rw [div_one, truncated, if_pos hpos.le, Int.floor_eq_zero_iff]
      exact ⟨hpos.le, hless⟩
    rw [hfloor, Int.cast_zero, mul_zero, sub_zero] at hsplit
    exact hpos.ne' hsplit
  · rw [div_one, Int.floor_eq_iff]
    push_cast
    constructor <;> linarith

end Operands

end SciCalc
