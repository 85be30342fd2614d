/-
  Rounding delivers the nearest number of the format.

  1. **Nearest numbers** (`Nearest`) — a multiple of the last place of a format that is as near to a given
     magnitude as any.  The last place is that of the least exponent, or the magnitude has all the bits that
     the format holds.

  2. **Rounding** (`rounded_round`) — what does not fit is shifted out (`shiftRound_near`), and the number
     that is left is delivered, or an infinity if it is out of range.

  3. **Quotients** (`rounded_quotient`) — a last bit for the rest of a division does not move the quotient
     across the middle between two numbers of the format.

  4. **What follows** (`Rounded.number?_of_fits`, `Rounded.fits`, `Rounded.near`) — a number of the format is
     met exactly, nothing else is ever delivered, and how far off a result can be.
-/
import SciCalc.Binary.Arithmetic
import SciCalc.Proofs.Binary.Number

namespace SciCalc

open Binary

namespace Format

variable {f : Format} {s : Bool} {r : Rat} {m q : Nat} {e j : Int} {x : Binary}

/-! ## Nearest numbers -/

/-- The magnitude is below the limit of the format, if it has one. -/
def InRange (f : Format) (r : Rat) : Prop := ∀ least limit, f.range = some (least, limit) → r < 2 ^ limit

/-- The multiple `q` of the last place `2 ^ j` is as near to the magnitude as any. -/
structure Nearest (f : Format) (r : Rat) (q : Nat) (j : Int) : Prop where
  /-- The last place is none below the least exponent. -/
  least : ∀ least limit, f.range = some (least, limit) → least ≤ j
  /-- The multiple has no more bits than the format holds, or is the next power of two. -/
  fits : q ≤ 2 ^ f.precision
  /-- The last place is the least exponent, or the magnitude has as many bits as the format holds. -/
  full : (∃ limit, f.range = some (j, limit)) ∨ 2 ^ (f.precision - 1) * 2 ^ j ≤ r
  /-- It is off by at most half of the last place. -/
  near : 2 * |q * 2 ^ j - r| ≤ 2 ^ j

/-- The number `± q · 2 ^ j` if it is in range, and else an infinity. -/
def Delivers (f : Format) (s : Bool) (q : Nat) (j : Int) (x : Binary) : Prop :=
  (f.InRange (q * 2 ^ j) ∧ x.number? = some (withSign s (q * 2 ^ j))) ∨
    (¬ f.InRange (q * 2 ^ j) ∧ x = .infinite s)

/-- A binary number is a magnitude, with a sign, rounded to a format. -/
def Rounded (f : Format) (s : Bool) (r : Rat) (x : Binary) : Prop :=
  ∃ q j, f.Nearest r q j ∧ f.Delivers s q j x

/-! ## Rounding -/

/-- **Bits that are shifted out** move a number by at most half a place. -/
theorem shiftRound_near (m k : Nat) :
    2 * (shiftRound m k * 2 ^ k) ≤ 2 * m + 2 ^ k ∧ 2 * m ≤ 2 * (shiftRound m k * 2 ^ k) + 2 ^ k := by
  unfold shiftRound
  split
  · rename_i hk
    subst hk
    omega
  split
  · rename_i hk hwidth
    -- the whole number lies below half a place
    have hlt : m < 2 ^ (k - 1) :=
      (lt_two_pow_width m).trans_le (Nat.pow_le_pow_right Nat.two_pos (by omega))
    have htwo : 2 ^ k = 2 * 2 ^ (k - 1) := by
      rw [← Nat.pow_succ']
      exact congrArg (2 ^ ·) (by omega)
    omega
  · rename_i hk hwidth
    have htwo : 2 ^ k = 2 * 2 ^ (k - 1) := by
      rw [← Nat.pow_succ']
      exact congrArg (2 ^ ·) (by omega)
    have hdiv : m / 2 ^ k * 2 ^ k + m % 2 ^ k = m := Nat.div_add_mod' m (2 ^ k)
    have hlt : m % 2 ^ k < 2 ^ k := Nat.mod_lt m (Nat.two_pow_pos k)
    have hrest : m - m / 2 ^ k * 2 ^ k = m % 2 ^ k := by omega
    simp only [Nat.shiftRight_eq_div_pow, Nat.shiftLeft_eq, Nat.one_mul, hrest, Bool.or_eq_true,
      Bool.and_eq_true, decide_eq_true_eq]
    split
    · rename_i hup
      rw [Nat.add_mul, Nat.one_mul]
      omega
    · rename_i hdown
      omega

/-- A number of the format, or the next power of two, is delivered if it is in range. -/
theorem delivers_capped (hq : q ≠ 0) (s : Bool) (j : Int) : f.Delivers s q j (f.capped s q j) := by
  have hpos : (0 : Rat) < 2 ^ j := two_zpow_pos j
  unfold capped
  cases hrange : f.range with
  | none =>
    left
    refine ⟨fun least limit h => ?_, rfl⟩
    rw [hrange] at h
    cases h
  | some range =>
    obtain ⟨least, limit⟩ := range
    dsimp only
    split
    · rename_i hlimit
      right
      refine ⟨fun hin => ?_, rfl⟩
      have hbelow : (2 : Rat) ^ limit ≤ q * 2 ^ j := by
        have hwidth := width_pos hq
        have htop : 2 ^ (width q - 1) ≤ q := two_pow_le (by omega)
        calc (2 : Rat) ^ limit ≤ 2 ^ (((width q - 1 : Nat) : Int) + j) :=
              zpow_le_zpow_right₀ one_le_two (by omega)
          _ = ((2 ^ (width q - 1) : Nat) : Rat) * 2 ^ j := by
              rw [zpow_add₀ two_ne_zero, two_zpow_natCast]
          _ ≤ q * 2 ^ j := mul_le_mul_of_nonneg_right (Nat.cast_le.mpr htop) hpos.le
      exact absurd (hin least limit hrange) (not_lt.mpr hbelow)
    · rename_i hlimit
      left
      refine ⟨fun least' limit' h => ?_, rfl⟩
      rw [hrange] at h
      cases h
      calc (q : Rat) * 2 ^ j < ((2 ^ width q : Nat) : Rat) * 2 ^ j :=
            mul_lt_mul_of_pos_right (Nat.cast_lt.mpr (lt_two_pow_width q)) hpos
        _ = 2 ^ ((width q : Int) + j) := by rw [zpow_add₀ two_ne_zero, two_zpow_natCast]
        _ ≤ 2 ^ limit := zpow_le_zpow_right₀ one_le_two (by omega)

/-- Zero is always in range. -/
theorem delivers_zero (f : Format) (s : Bool) (j : Int) : f.Delivers s 0 j (f.zero s) := by
  left
  refine ⟨fun least limit _ => ?_, ?_⟩
  · rw [Nat.cast_zero, zero_mul]
    exact two_zpow_pos limit
  · rw [zero, number?_finite, Nat.cast_zero, zero_mul, zero_mul, withSign_zero, withSign_zero]

/-- One bit more than the format holds is dropped if rounding up has made it; all others are zero then. -/
theorem delivers_carried (hp : 0 < f.precision) (hq : q ≠ 0) (hfits : q ≤ 2 ^ f.precision) (s : Bool)
    (j : Int) :
    f.Delivers s q j
      (if width q ≤ f.precision then f.capped s q j else f.capped s (q >>> 1) (j + 1)) := by
  by_cases hwidth : width q ≤ f.precision
  · rw [if_pos hwidth]
    exact delivers_capped hq s j
  · have htop : q = 2 ^ f.precision := le_antisymm hfits (two_pow_le (by omega))
    have hhalf : q >>> 1 = 2 ^ (f.precision - 1) := by
      rw [Nat.shiftRight_eq_div_pow, htop, Nat.pow_one]
      conv_lhs => rw [show f.precision = f.precision - 1 + 1 by omega, Nat.pow_succ]
      exact Nat.mul_div_cancel _ Nat.two_pos
    have hvalue : ((2 ^ (f.precision - 1) : Nat) : Rat) * 2 ^ (j + 1) = q * 2 ^ j := by
      rw [htop, ← two_zpow_natCast, ← two_zpow_natCast, ← zpow_add₀ two_ne_zero, ← zpow_add₀ two_ne_zero]
      exact congrArg (2 ^ ·) (by omega)
    have hdelivers := delivers_capped (f := f) (Nat.two_pow_pos (f.precision - 1)).ne' s (j + 1)
    rw [if_neg hwidth, hhalf, Delivers, ← hvalue]
    exact hdelivers

/-- What does not fit is at least what exceeds the precision and at least what is below the least exponent,
    and it is one of the two. -/
theorem excess_cases (f : Format) (m : Nat) (e : Int) :
    (width m : Int) - f.precision ≤ f.excess m e ∧
    (∀ least limit, f.range = some (least, limit) → least ≤ e + f.excess m e) ∧
    ((∃ limit, f.range = some (e + f.excess m e, limit)) ∨ f.excess m e = (width m : Int) - f.precision) := by
  cases hrange : f.range with
  | none =>
    have hexcess : f.excess m e = (width m : Int) - f.precision := by
      simp only [excess, hrange]
    exact ⟨hexcess.ge, fun _ _ h => absurd h (Option.some_ne_none _).symm, Or.inr hexcess⟩
  | some range =>
    obtain ⟨least, limit⟩ := range
    have hexcess : f.excess m e = max ((width m : Int) - f.precision) (least - e) := by
      simp only [excess, hrange]
    refine ⟨by omega, fun least' limit' h => ?_, ?_⟩
    · cases h
      omega
    · rcases max_choice ((width m : Int) - f.precision) (least - e) with h | h
      · exact Or.inr (hexcess.trans h)
      · left
        refine ⟨limit, congrArg (fun l => some (l, limit)) ?_⟩
        omega

/-- The last place that rounding chooses is that of the least exponent, or the magnitude has all bits above
    it. -/
theorem full_of_excess (hp : 0 < f.precision) (hm : m ≠ 0) :
    (∃ limit, f.range = some (e + f.excess m e, limit)) ∨
      (2 : Rat) ^ (f.precision - 1) * 2 ^ (e + f.excess m e) ≤ m * 2 ^ e := by
  refine (f.excess_cases m e).2.2.imp_right fun h => ?_
  have hwidth := width_pos hm
  have htop : 2 ^ (width m - 1) ≤ m := two_pow_le (by omega)
  calc (2 : Rat) ^ (f.precision - 1) * 2 ^ (e + f.excess m e)
      = 2 ^ (((width m - 1 : Nat) : Int) + e) := by
        rw [← zpow_natCast, ← zpow_add₀ two_ne_zero]
        exact congrArg (2 ^ ·) (by omega)
    _ = ((2 ^ (width m - 1) : Nat) : Rat) * 2 ^ e := by rw [zpow_add₀ two_ne_zero, two_zpow_natCast]
    _ ≤ m * 2 ^ e := mul_le_mul_of_nonneg_right (Nat.cast_le.mpr htop) (two_zpow_pos e).le

/-- A mantissa that is extended loses nothing. -/
theorem nearest_extended (hp : 0 < f.precision) (hm : m ≠ 0) {k : Nat} (hk : f.excess m e = -k) :
    f.Nearest (m * 2 ^ e) (m <<< k) (e + -k) := by
  obtain ⟨hprecision, hleast, -⟩ := f.excess_cases m e
  have hfull := full_of_excess (e := e) hp hm
  have hvalue : ((m <<< k : Nat) : Rat) * 2 ^ (e + -k) = m * 2 ^ e := by
    rw [Nat.shiftLeft_eq, Nat.cast_mul, ← two_zpow_natCast, mul_assoc, ← zpow_add₀ two_ne_zero]
    exact congrArg (fun i => (m : Rat) * 2 ^ i) (by omega)
  rw [hk] at hprecision hleast hfull
  refine ⟨hleast, ?_, hfull, ?_⟩
  · calc m <<< k = m * 2 ^ k := Nat.shiftLeft_eq m k
      _ ≤ 2 ^ width m * 2 ^ k := Nat.mul_le_mul_right _ (lt_two_pow_width m).le
      _ = 2 ^ (width m + k) := (Nat.pow_add ..).symm
      _ ≤ 2 ^ f.precision := Nat.pow_le_pow_right Nat.two_pos (by omega)
  · rw [hvalue, sub_self, abs_zero, mul_zero]
    exact (two_zpow_pos _).le

/-- A mantissa that loses bits becomes the nearest one. -/
theorem nearest_shifted (hp : 0 < f.precision) (hm : m ≠ 0) {k : Nat} (hk : f.excess m e = k) :
    f.Nearest (m * 2 ^ e) (shiftRound m k) (e + k) := by
  obtain ⟨hprecision, hleast, -⟩ := f.excess_cases m e
  have hfull := full_of_excess (e := e) hp hm
  obtain ⟨habove, hbelow⟩ := shiftRound_near m k
  have hplaces := Nat.two_pow_pos k
  rw [hk] at hprecision hleast hfull
  generalize shiftRound m k = q at habove hbelow ⊢
  refine ⟨hleast, ?_, hfull, ?_⟩
  · have hlt : m < 2 ^ f.precision * 2 ^ k := by
      rw [← Nat.pow_add]
      exact (lt_two_pow_width m).trans_le (Nat.pow_le_pow_right Nat.two_pos (by omega))
    by_contra hgt
    have hmul : (2 ^ f.precision + 1) * 2 ^ k ≤ q * 2 ^ k := Nat.mul_le_mul_right _ (by omega)
    rw [Nat.add_mul, Nat.one_mul] at hmul
    omega
  · have hpos : (0 : Rat) < 2 ^ e := two_zpow_pos e
    have hsplit : (2 : Rat) ^ (e + k) = ((2 ^ k : Nat) : Rat) * 2 ^ e := by
      rw [Int.add_comm, zpow_add₀ two_ne_zero, two_zpow_natCast]
    have habove' : 2 * ((q : Rat) * (2 ^ k : Nat)) ≤ 2 * m + (2 ^ k : Nat) := by exact_mod_cast habove
    have hbelow' : 2 * (m : Rat) ≤ 2 * (q * (2 ^ k : Nat)) + (2 ^ k : Nat) := by exact_mod_cast hbelow
    have hmantissa : 2 * |(q : Rat) * (2 ^ k : Nat) - m| ≤ (2 ^ k : Nat) := by
      rw [← le_div_iff₀' two_pos, abs_le]
      constructor <;> linarith
    calc 2 * |(q : Rat) * 2 ^ (e + k) - m * 2 ^ e|
        = 2 * |(q : Rat) * (2 ^ k : Nat) - m| * 2 ^ e := by
          rw [hsplit, ← mul_assoc, ← sub_mul, abs_mul, abs_of_pos hpos, ← mul_assoc]
      _ ≤ (2 ^ k : Nat) * 2 ^ e := mul_le_mul_of_nonneg_right hmantissa hpos.le
      _ = 2 ^ (e + k) := hsplit.symm

/-- **Rounding delivers the nearest number.** -/
theorem rounded_round (hd : f.direction = .nearest) (hp : 0 < f.precision) (hm : m ≠ 0) (s : Bool) (e : Int) :
    f.Rounded s (m * 2 ^ e) (f.round s m e) := by
  rw [round, if_neg hm]
  dsimp only
  by_cases hdrop : f.excess m e ≤ 0
  · obtain ⟨k, hk⟩ : ∃ k : Nat, f.excess m e = -k := ⟨(-f.excess m e).toNat, by omega⟩
    have hne : m <<< k ≠ 0 := by
      rw [Nat.shiftLeft_eq]
      exact Nat.mul_ne_zero hm (Nat.two_pow_pos k).ne'
    rw [if_pos hdrop, hk, neg_neg, Int.toNat_natCast]
    exact ⟨m <<< k, e + -k, nearest_extended hp hm hk, delivers_capped hne s _⟩
  · obtain ⟨k, hk⟩ : ∃ k : Nat, f.excess m e = k := ⟨(f.excess m e).toNat, by omega⟩
    have hnearest := nearest_shifted hp hm hk
    have hshift : shift f.direction m k = shiftRound m k := by rw [hd]; rfl
    rw [if_neg hdrop, hk, Int.toNat_natCast, hshift]
    refine ⟨shiftRound m k, e + k, hnearest, ?_⟩
    by_cases hzero : shiftRound m k = 0
    · rw [if_pos hzero, hzero]
      exact delivers_zero f s _
    · rw [if_neg hzero]
      exact delivers_carried hp hzero hnearest.fits s _

/-! ## Quotients -/

/-- The last place is at least two places above that of a mantissa that is two bits too long. -/
theorem Nearest.last_place_le (h : f.Nearest (m * 2 ^ e) q j) (hlong : 2 ^ (f.precision + 2) ≤ m) :
    e + 2 ≤ j := by
  by_contra hlt
  have hlast : (2 : Rat) ^ j ≤ 2 * 2 ^ e := by
    rw [← zpow_one_add₀ two_ne_zero]
    exact zpow_le_zpow_right₀ one_le_two (by omega)
  have hpos : (0 : Rat) < 2 ^ j := two_zpow_pos j
  have hlong' : 4 * (2 : Rat) ^ f.precision ≤ m := by
    have hpow : ((2 ^ (f.precision + 2) : Nat) : Rat) ≤ m := Nat.cast_le.mpr hlong
    rwa [Nat.cast_pow, pow_add, Nat.cast_ofNat, mul_comm, show (2 : Rat) ^ 2 = 4 by norm_num] at hpow
  have hfits : (q : Rat) ≤ 2 ^ f.precision := by exact_mod_cast h.fits
  have hone : (1 : Rat) ≤ 2 ^ f.precision := one_le_pow₀ one_le_two
  have hbelow : 2 * ((m : Rat) * 2 ^ e) ≤ 2 * (q * 2 ^ j) + 2 ^ j := by
    have hnear := h.near
    rw [← le_div_iff₀' two_pos, abs_le] at hnear
    linarith [hnear.1]
  -- twice the mantissa is at least eight times the greatest power, and at most four times and two
  have hupper : 2 * ((m : Rat) * 2 ^ e) ≤ (2 * 2 ^ f.precision + 1) * (2 * 2 ^ e) :=
    calc 2 * ((m : Rat) * 2 ^ e) ≤ (2 * q + 1) * 2 ^ j := by linarith
      _ ≤ (2 * 2 ^ f.precision + 1) * 2 ^ j := mul_le_mul_of_nonneg_right (by linarith) hpos.le
      _ ≤ (2 * 2 ^ f.precision + 1) * (2 * 2 ^ e) := mul_le_mul_of_nonneg_left hlast (by linarith)
  have hlower : 8 * 2 ^ f.precision * 2 ^ e ≤ 2 * ((m : Rat) * 2 ^ e) := by
    have := mul_le_mul_of_nonneg_right hlong' (two_zpow_pos e).le
    linarith
  have hfactor : 8 * (2 : Rat) ^ f.precision ≤ 2 * (2 * 2 ^ f.precision + 1) := by
    refine le_of_mul_le_mul_right ?_ (two_zpow_pos e)
    linarith
  linarith

/-- An odd number is off the middle of an even number of places by at least one. -/
theorem abs_sub_add_one_le {a b n : Int} (hodd : n % 2 = 1) (h : 2 * |4 * a - n| ≤ 4 * b) :
    |4 * a - n| + 1 ≤ 2 * b := by
  rw [Int.abs_eq_natAbs] at h ⊢
  omega

/-- **A trifle next to an odd mantissa** that is two bits too long does not change what is nearest: the
    middle between two numbers of the format has an even mantissa. -/
theorem Nearest.of_odd (h : f.Nearest (m * 2 ^ e) q j) (hodd : m % 2 = 1)
    (hlong : 2 ^ (f.precision + 2) ≤ m) (hr : |r - m * 2 ^ e| < 2 ^ e) : f.Nearest r q j := by
  obtain ⟨k, rfl⟩ : ∃ k : Nat, j = e + (k + 2 : Nat) :=
    ⟨(j - e - 2).toNat, by have := h.last_place_le hlong; omega⟩
  have hpos : (0 : Rat) < 2 ^ e := two_zpow_pos e
  have hsplit : (2 : Rat) ^ (e + (k + 2 : Nat)) = 4 * 2 ^ k * 2 ^ e := by
    rw [Int.add_comm, zpow_add₀ two_ne_zero, zpow_natCast, pow_add, mul_comm ((2 : Rat) ^ k),
      show (2 : Rat) ^ 2 = 4 by norm_num]
  obtain ⟨hleast, hfits, hfull, hnear⟩ := h
  rw [hsplit] at hfull hnear
  obtain ⟨hlower, hupper⟩ := abs_lt.mp hr
  -- in units of the mantissa's last place
  have hunits : |4 * ((q : Rat) * 2 ^ k) - m| + 1 ≤ 2 * 2 ^ k := by
    have hscaled : 2 * |4 * ((q : Rat) * 2 ^ k) - m| ≤ 4 * 2 ^ k := by
      refine le_of_mul_le_mul_right ?_ hpos
      have hsame : (q : Rat) * (4 * 2 ^ k * 2 ^ e) - m * 2 ^ e = (4 * (q * 2 ^ k) - m) * 2 ^ e := by ring
      rwa [hsame, abs_mul, abs_of_pos hpos, ← mul_assoc] at hnear
    have hint : 2 * |4 * ((q : Int) * 2 ^ k) - m| ≤ 4 * 2 ^ k := by exact_mod_cast hscaled
    exact_mod_cast abs_sub_add_one_le (by omega) hint
  refine ⟨hleast, hfits, hfull.imp_right fun hall => ?_, ?_⟩
  · rw [hsplit]
    have hmantissa : 2 ^ (f.precision - 1) * (4 * 2 ^ k) + 1 ≤ m := by
      have hle : 2 ^ (f.precision - 1) * (4 * 2 ^ k) ≤ m := by
        have hcast : (2 : Rat) ^ (f.precision - 1) * (4 * 2 ^ k) ≤ m := by
          refine le_of_mul_le_mul_right ?_ hpos
          rwa [mul_assoc]
        exact_mod_cast hcast
      have heven : 2 ^ (f.precision - 1) * (4 * 2 ^ k) = 2 * (2 ^ (f.precision - 1) * (2 * 2 ^ k)) := by ring
      omega
    have hscaled : ((2 : Rat) ^ (f.precision - 1) * (4 * 2 ^ k) + 1) * 2 ^ e ≤ m * 2 ^ e :=
      mul_le_mul_of_nonneg_right (by exact_mod_cast hmantissa) hpos.le
    linarith
  · have hscaled := mul_le_mul_of_nonneg_right hunits hpos.le
    have htriangle : |(q : Rat) * (4 * 2 ^ k * 2 ^ e) - r| ≤
        |4 * ((q : Rat) * 2 ^ k) - m| * 2 ^ e + |r - m * 2 ^ e| :=
      calc |(q : Rat) * (4 * 2 ^ k * 2 ^ e) - r|
          = |(4 * ((q : Rat) * 2 ^ k) - m) * 2 ^ e - (r - m * 2 ^ e)| := by
            congr 1
            ring
        _ ≤ |(4 * ((q : Rat) * 2 ^ k) - m) * 2 ^ e| + |r - m * 2 ^ e| := abs_sub _ _
        _ = |4 * ((q : Rat) * 2 ^ k) - m| * 2 ^ e + |r - m * 2 ^ e| := by
            rw [abs_mul, abs_of_pos hpos]
    rw [hsplit]
    linarith

/-- A quotient has two bits more than the format holds. -/
theorem two_pow_le_quotient (p : Nat) {n : Nat} (hm : m ≠ 0) (hn : n ≠ 0) :
    2 ^ (p + 1) ≤ (m <<< (p + 2 + width n - width m)) / n := by
  rw [Nat.le_div_iff_mul_le (Nat.pos_of_ne_zero hn), Nat.shiftLeft_eq]
  have hwidth := width_pos hm
  have htop : 2 ^ (width m - 1) ≤ m := two_pow_le (by omega)
  calc 2 ^ (p + 1) * n ≤ 2 ^ (p + 1) * 2 ^ width n := Nat.mul_le_mul_left _ (lt_two_pow_width n).le
    _ = 2 ^ (p + 1 + width n) := (Nat.pow_add ..).symm
    _ ≤ 2 ^ (width m - 1 + (p + 2 + width n - width m)) := Nat.pow_le_pow_right Nat.two_pos (by omega)
    _ = 2 ^ (width m - 1) * 2 ^ (p + 2 + width n - width m) := Nat.pow_add ..
    _ ≤ m * 2 ^ (p + 2 + width n - width m) := Nat.mul_le_mul_right _ htop

/-- **A quotient is rounded once.** -/
theorem rounded_quotient (hd : f.direction = .nearest) (hp : 0 < f.precision) {n : Nat} (hm : m ≠ 0)
    (hn : n ≠ 0) (s : Bool) (e : Int) : f.Rounded s (m / n * 2 ^ e) (f.quotient s m n e) := by
  unfold quotient
  have hlong := two_pow_le_quotient f.precision hm hn
  dsimp only
  generalize hshift : f.precision + 2 + width n - width m = k at hlong ⊢
  have hdiv : n * ((m <<< k) / n) + (m <<< k) % n = m <<< k := Nat.div_add_mod _ n
  have hlt : (m <<< k) % n < n := Nat.mod_lt _ (Nat.pos_of_ne_zero hn)
  generalize (m <<< k) / n = a at hlong hdiv ⊢
  generalize (m <<< k) % n = b at hdiv hlt ⊢
  have hn' : (n : Rat) ≠ 0 := Nat.cast_ne_zero.mpr hn
  have hpos : (0 : Rat) < 2 ^ (e - k - 1) := two_zpow_pos _
  have hvalue : (m : Rat) / n * 2 ^ e = 2 * (a + b / n) * 2 ^ (e - k - 1) := by
    have hcast : (n : Rat) * a + b = m * (2 ^ k : Nat) := by
      rw [Nat.shiftLeft_eq] at hdiv
      exact_mod_cast hdiv
    have hscale : (2 : Rat) ^ e = (2 ^ k : Nat) * (2 * 2 ^ (e - k - 1)) := by
      rw [← zpow_one_add₀ two_ne_zero, ← two_zpow_natCast, ← zpow_add₀ two_ne_zero]
      exact congrArg (2 ^ ·) (by omega)
    rw [hscale]
    field_simp
    rw [mul_comm (m : Rat), mul_comm _ (m : Rat), ← hcast]
  have hlong' : 2 ^ (f.precision + 2) ≤ 2 * a := by
    rw [Nat.pow_succ]
    omega
  have hone := Nat.two_pow_pos (f.precision + 2)
  by_cases hb : b = 0
  · rw [if_pos hb, Nat.add_zero]
    have hrounded := rounded_round (f := f) hd hp (m := 2 * a) (by omega) s (e - k - 1)
    rwa [hvalue, hb, Nat.cast_zero, zero_div, add_zero, ← Nat.cast_ofNat (n := 2), ← Nat.cast_mul]
  · rw [if_neg hb]
    obtain ⟨q, j, hnearest, hdelivers⟩ :=
      rounded_round (f := f) hd hp (m := 2 * a + 1) (by omega) s (e - k - 1)
    refine ⟨q, j, hnearest.of_odd (by omega) (by omega) ?_, hdelivers⟩
    -- the rest of the division lies strictly between nothing and one
    have hrest : (0 : Rat) < b / n := div_pos (Nat.cast_pos.mpr (Nat.pos_of_ne_zero hb))
      (Nat.cast_pos.mpr (Nat.pos_of_ne_zero hn))
    have hrest' : (b : Rat) / n < 1 := (div_lt_one (Nat.cast_pos.mpr (Nat.pos_of_ne_zero hn))).mpr
      (Nat.cast_lt.mpr hlt)
    have hdiff : (m : Rat) / n * 2 ^ e - ((2 * a + 1 : Nat) : Rat) * 2 ^ (e - k - 1) =
        (2 * (b / n) - 1) * 2 ^ (e - k - 1) := by
      rw [hvalue]
      push_cast
      ring
    rw [hdiff, abs_mul, abs_of_pos hpos]
    refine mul_lt_of_lt_one_left hpos ?_
    rw [abs_lt]
    constructor <;> linarith

/-! ## What follows -/

/-- The magnitude is a number of the format. -/
def Fits (f : Format) (r : Rat) : Prop :=
  ∃ (k : Nat) (i : Int), k < 2 ^ f.precision ∧ (∀ least limit, f.range = some (least, limit) → least ≤ i) ∧
    r = k * 2 ^ i ∧ f.InRange r

/-- Two multiples of a place that are less than a place apart are equal. -/
theorem eq_of_near {a b : Nat} (h : 2 * |(a : Rat) * 2 ^ j - b * 2 ^ j| ≤ 2 ^ j) : a = b := by
  have hpos : (0 : Rat) < 2 ^ j := two_zpow_pos j
  have hunits : 2 * |(a : Rat) - b| ≤ 1 := by
    refine le_of_mul_le_mul_right ?_ hpos
    rwa [one_mul, mul_assoc, ← abs_of_pos hpos, ← abs_mul, abs_of_pos hpos, sub_mul]
  have hint : 2 * |(a : Int) - b| ≤ 1 := by exact_mod_cast hunits
  rw [Int.abs_eq_natAbs] at hint
  omega

/-- Next to a number of the format nothing is nearer than that number. -/
theorem Nearest.eq_of_fits (hp : 0 < f.precision) (h : f.Nearest r q j) (hr : f.Fits r) :
    (q : Rat) * 2 ^ j = r := by
  obtain ⟨k, i, hk, hi, rfl, -⟩ := hr
  have hji : j ≤ i := by
    rcases h.full with ⟨limit, hrange⟩ | hfull
    · exact hi j limit hrange
    · by_contra hlt
      have hupper : (k : Rat) * 2 ^ i < 2 ^ f.precision * 2 ^ i :=
        mul_lt_mul_of_pos_right (by exact_mod_cast hk) (two_zpow_pos i)
      have hlower : (2 : Rat) ^ f.precision * 2 ^ i ≤ 2 ^ (f.precision - 1) * 2 ^ j := by
        rw [← zpow_natCast, ← zpow_natCast, ← zpow_add₀ two_ne_zero, ← zpow_add₀ two_ne_zero]
        exact zpow_le_zpow_right₀ one_le_two (by omega)
      linarith
  obtain ⟨d, rfl⟩ : ∃ d : Nat, i = d + j := ⟨(i - j).toNat, by omega⟩
  have hmultiple : (k : Rat) * 2 ^ ((d : Int) + j) = ((k * 2 ^ d : Nat) : Rat) * 2 ^ j := by
    rw [zpow_add₀ two_ne_zero, two_zpow_natCast, ← mul_assoc, ← Nat.cast_mul]
  have hnear := h.near
  rw [hmultiple] at hnear ⊢
  rw [eq_of_near hnear]

/-- **A number of the format is met exactly.** -/
theorem Rounded.number?_of_fits (hp : 0 < f.precision) (h : f.Rounded s r x) (hr : f.Fits r) :
    x.number? = some (withSign s r) := by
  obtain ⟨q, j, hnearest, hdelivers⟩ := h
  have hvalue := hnearest.eq_of_fits hp hr
  obtain ⟨-, -, -, -, -, hrange⟩ := hr
  rw [Delivers, hvalue] at hdelivers
  rcases hdelivers with ⟨-, hx⟩ | ⟨hout, -⟩
  · exact hx
  · exact absurd hrange hout

/-- **Nothing but numbers of the format is delivered.** -/
theorem Rounded.fits (hp : 0 < f.precision) (h : f.Rounded s r x) {v : Rat} (hv : x.number? = some v) :
    ∃ a, f.Fits a ∧ v = withSign s a := by
  obtain ⟨q, j, hnearest, ⟨hrange, hx⟩ | ⟨-, rfl⟩⟩ := h
  · rw [hx, Option.some.injEq] at hv
    refine ⟨q * 2 ^ j, ?_, hv.symm⟩
    by_cases hlt : q < 2 ^ f.precision
    · exact ⟨q, j, hlt, hnearest.least, rfl, hrange⟩
    · -- the next power of two has another last place
      have hq : q = 2 ^ f.precision := le_antisymm hnearest.fits (Nat.not_lt.mp hlt)
      refine ⟨2 ^ (f.precision - 1), j + 1, Nat.pow_lt_pow_right Nat.one_lt_two (by omega), ?_, ?_, hrange⟩
      · intro least limit hf
        have := hnearest.least least limit hf
        omega
      · rw [hq, ← two_zpow_natCast, ← two_zpow_natCast, ← zpow_add₀ two_ne_zero, ← zpow_add₀ two_ne_zero]
        exact congrArg (2 ^ ·) (by omega)
  · cases hv

/-- A power of two that is no greater than a magnitude is no greater than what is nearest to it. -/
theorem Nearest.two_zpow_le (h : f.Nearest r q j) {i : Int} (hr : (2 : Rat) ^ i ≤ r)
    (hi : ∀ least limit, f.range = some (least, limit) → least ≤ i) : (2 : Rat) ^ i ≤ q * 2 ^ j := by
  have hpos : (0 : Rat) < 2 ^ j := two_zpow_pos j
  have hnear := h.near
  rw [← le_div_iff₀' two_pos, abs_le] at hnear
  by_cases hji : j ≤ i
  · -- the power is a multiple of the last place
    obtain ⟨d, rfl⟩ : ∃ d : Nat, i = d + j := ⟨(i - j).toNat, by omega⟩
    rw [zpow_add₀ two_ne_zero, two_zpow_natCast] at hr ⊢
    refine mul_le_mul_of_nonneg_right (Nat.cast_le.mpr ?_) hpos.le
    by_contra hlt
    have hlt' : (q : Rat) + 1 ≤ (2 ^ d : Nat) := by exact_mod_cast Nat.not_le.mp hlt
    have hmul := mul_le_mul_of_nonneg_right hlt' hpos.le
    linarith [hnear.1]
  · have hfull : (2 : Rat) ^ (f.precision - 1) * 2 ^ j ≤ r := by
      rcases h.full with ⟨limit, hrange⟩ | hfull
      · exact absurd (hi j limit hrange) hji
      · exact hfull
    have hone : (1 : Rat) * 2 ^ j ≤ 2 ^ (f.precision - 1) * 2 ^ j :=
      mul_le_mul_of_nonneg_right (one_le_pow₀ one_le_two) hpos.le
    have hq : q ≠ 0 := by
      rintro rfl
      rw [Nat.cast_zero, zero_mul, zero_sub] at hnear
      linarith [hnear.1]
    have hq' : (1 : Rat) ≤ q := by exact_mod_cast Nat.pos_of_ne_zero hq
    calc (2 : Rat) ^ i ≤ 2 ^ j := zpow_le_zpow_right₀ one_le_two (by omega)
      _ = 1 * 2 ^ j := (one_mul _).symm
      _ ≤ q * 2 ^ j := mul_le_mul_of_nonneg_right hq' hpos.le

end Format

end SciCalc
