/-
  Operations on integers in the exact regime.

  1. **Exact values** (`exactValue?`) — the rational number that an arithmetic operation on two integers stands
     for: a fraction for a quotient, its floor for a whole quotient, what truncation leaves for a remainder.

  2. **Losses** (`Lossy`) — a quotient that is no integer and a power to a negative exponent are computed as
     doubles.  A double that looks like an integer is taken for one, so an integer result can be wrong.

  3. **Rules** (`divInteger_cases`, `powInteger_iff`) — which integers the two operations leave.  For
     quotients it follows how wrong a result can be (`ratio_loss`).

  4. **Steps** (`step_exact_iff`) — an integer that the step over an arithmetic operator leaves is the exact
     value unless the operation is lossy.
-/
import Mathlib.Data.Rat.Floor
import SciCalc.Evaluation.Basic
import SciCalc.Proofs.Double.Integer
import SciCalc.Proofs.Value.Regime

namespace SciCalc

open Binary (withSign)
open Attempt

/-! ## Exact values -/

/-- The symbols of the arithmetic operators. -/
def arithmeticSymbols : List String := ["+", "-", "*", "/", "//", "%", "^", "**"]

/-- A number without its fraction. -/
def truncated (r : Rat) : Int := if 0 ≤ r then ⌊r⌋ else ⌈r⌉

/-- The rational number that an arithmetic operation on integers stands for, if it has a value. -/
def exactValue? (symbol : String) (a b : Int) : Option Rat :=
  match symbol with
  | "+" => some (a + b)
  | "-" => some (a - b)
  | "*" => some (a * b)
  | "/" => if b = 0 then none else some (a / b)
  | "//" => if b = 0 then none else some ⌊(a / b : Rat)⌋
  | "%" => if b = 0 then none else some (a - b * truncated (a / b))
  | "^" | "**" => if a = 0 ∧ b < 0 then none else some ((a : Rat) ^ b)
  | _ => none

/-- The operations that do not give their exact value where they give an integer: a quotient that is no
    integer, a proper fraction as a power, and minus one to an odd negative exponent of more than 53 bits. -/
def Lossy (symbol : String) (a b : Int) : Prop :=
  (symbol = "/" ∧ ¬ b ∣ a) ∨
    ((symbol = "^" ∨ symbol = "**") ∧ b < 0 ∧
      (2 ≤ a.natAbs ∨ (a = -1 ∧ b % 2 = 1 ∧ 2 ^ 53 ≤ b.natAbs)))

variable {a b n : Int} {m : Modes} {x : Binary}

/-- A whole quotient is the floor of the fraction. -/
theorem fdiv_eq_floor (a b : Int) : a.fdiv b = ⌊(a / b : Rat)⌋ := by
  -- a negative divisor is made positive together with the dividend
  have hnonneg : ∀ (a : Int) (k : Nat), a.fdiv k = ⌊(a / (k : Int) : Rat)⌋ := fun a k => by
    rw [Int.fdiv_eq_ediv_of_nonneg a (Int.natCast_nonneg k), Int.cast_natCast, Rat.floor_intCast_div_natCast]
  rcases Int.eq_nat_or_neg b with ⟨k, rfl | rfl⟩
  · exact hnonneg a k
  · rw [← Int.neg_fdiv_neg, neg_neg, hnonneg, Int.cast_neg, Int.cast_neg, neg_div, div_neg]

/-- Of operands of one sign the whole quotient is the same whichever way it is rounded. -/
theorem fdiv_eq_tdiv_of_div_nonneg (h : (0 : Rat) ≤ a / b) : a.fdiv b = a.tdiv b := by
  rcases div_nonneg_iff.mp h with ⟨ha, hb⟩ | ⟨ha, hb⟩
  · exact Int.fdiv_eq_tdiv_of_nonneg (Int.cast_nonneg_iff.mp ha) (Int.cast_nonneg_iff.mp hb)
  · rw [← Int.neg_fdiv_neg, ← Int.neg_tdiv_neg]
    exact Int.fdiv_eq_tdiv_of_nonneg (neg_nonneg.mpr (Int.cast_nonpos.mp ha))
      (neg_nonneg.mpr (Int.cast_nonpos.mp hb))

/-- The quotient without its fraction. -/
theorem tdiv_eq_truncated (a b : Int) : a.tdiv b = truncated (a / b) := by
  unfold truncated
  split
  · rename_i hsame
    rw [← fdiv_eq_floor, fdiv_eq_tdiv_of_div_nonneg hsame]
  · rename_i hopposite
    have hsame : (0 : Rat) ≤ ((-a : Int) : Rat) / b := by
      rw [Int.cast_neg, neg_div]
      exact neg_nonneg.mpr (not_le.mp hopposite).le
    have hceil : ⌈(a / b : Rat)⌉ = -⌊(((-a : Int) : Rat) / b)⌋ := by
      rw [← Int.ceil_neg, Int.cast_neg, neg_div, neg_neg]
    rw [hceil, ← fdiv_eq_floor, fdiv_eq_tdiv_of_div_nonneg hsame, Int.neg_tdiv, neg_neg]

/-- A remainder with the sign of the dividend is what truncation leaves. -/
theorem tmod_eq_sub (a b : Int) : ((a.tmod b : Int) : Rat) = a - b * truncated (a / b) := by
  rw [Int.tmod_def, tdiv_eq_truncated, Int.cast_sub, Int.cast_mul]

/-- A number without its fraction has the sign that it had. -/
theorem truncated_withSign (s : Bool) {r : Rat} (hr : 0 ≤ r) :
    truncated (withSign s r) = if s then -⌊r⌋ else ⌊r⌋ := by
  cases s with
  | false => exact if_pos hr
  | true =>
    show truncated (-r) = -⌊r⌋
    unfold truncated
    split
    · rename_i hneg
      have hzero : r = 0 := by linarith
      rw [hzero, neg_zero, Int.floor_zero, neg_zero]
    · exact Int.ceil_neg

/-- A fraction is an integer only if the divisor divides. -/
theorem cast_eq_div_iff (hb : b ≠ 0) : (n : Rat) = a / b ↔ a = n * b := by
  rw [eq_div_iff (Int.cast_ne_zero.mpr hb), ← Int.cast_mul, Int.cast_inj, eq_comm]

/-! ## Rules -/

/-- **The integers that a quotient leaves**: the exact one, or what the double of a fraction looks like. -/
theorem divInteger_cases (hm : m.regime = .exact)
    (h : (Operands.divInteger a b >>= m.normalize) = .ok (.integer n)) :
    b ≠ 0 ∧ (b ∣ a ∧ a = n * b ∨ ¬ b ∣ a ∧ ∃ x, Double.ratio a b = .ok x ∧ x.number? = some (n : Rat)) := by
  unfold Operands.divInteger at h
  split at h
  · cases h
  · rename_i hb
    refine ⟨hb, ?_⟩
    split at h
    · rename_i hrest
      have hdvd := Int.dvd_of_fmod_eq_zero hrest
      rw [ok_bind, Modes.normalize_integer_of_exact hm, Except.ok.injEq, Value.integer.injEq] at h
      exact Or.inl ⟨hdvd, by rw [← h, Int.fdiv_mul_cancel_of_fmod_eq_zero hrest]⟩
    · rename_i hrest
      refine Or.inr ⟨fun hdvd => hrest (Int.fmod_eq_zero_of_dvd hdvd), ?_⟩
      cases hratio : Double.ratio a b with
      | error fault =>
        rw [hratio] at h
        cases h
      | ok x =>
        rw [hratio] at h
        exact ⟨x, rfl, Modes.number?_of_normalize_real hm h⟩

/-- An integer that is a multiple of the least place of a double, and no more than 53 bits of it, is zero. -/
theorem eq_zero_of_least_place {q : Nat} (hq : q ≤ 2 ^ 53) (h : |(n : Rat)| = q * 2 ^ (-1074 : Int)) : n = 0 := by
  have hpos := Binary.two_zpow_pos (-1074)
  have hplace : (2 : Rat) ^ (-1074 : Int) < 2 ^ (-53 : Int) := zpow_lt_zpow_right₀ one_lt_two (by decide)
  have hfits : (q : Rat) ≤ 2 ^ 53 := by exact_mod_cast hq
  have hbelow : |(n : Rat)| < 1 :=
    calc |(n : Rat)| = q * 2 ^ (-1074 : Int) := h
      _ ≤ 2 ^ 53 * 2 ^ (-1074 : Int) := mul_le_mul_of_nonneg_right hfits hpos.le
      _ < 2 ^ 53 * 2 ^ (-53 : Int) := mul_lt_mul_of_pos_left hplace (by norm_num)
      _ = 1 := by norm_num
  exact Int.abs_lt_one_iff.mp (by exact_mod_cast hbelow)

/-- An integer differs from a fraction by at least one part of the divisor. -/
theorem one_le_sub_mul (hb : b ≠ 0) (hdvd : ¬ b ∣ a) (n : Int) : (1 : Rat) ≤ |(n : Rat) - a / b| * |(b : Rat)| := by
  have hne : n * b - a ≠ 0 := fun h => hdvd ⟨n, by rw [mul_comm]; omega⟩
  have hint : (1 : Rat) ≤ |((n * b - a : Int) : Rat)| := by exact_mod_cast Int.one_le_abs hne
  rwa [← abs_mul, sub_mul, div_mul_cancel₀ _ (Int.cast_ne_zero.mpr hb), ← Int.cast_mul, ← Int.cast_sub]

/-- So an integer is close to a fraction only if the dividend is large. -/
theorem le_natAbs_of_close (hb : b ≠ 0) (hdvd : ¬ b ∣ a) (close : 2 ^ 53 * |(n : Rat) - a / b| ≤ |(a : Rat) / b|) :
    2 ^ 53 ≤ a.natAbs := by
  have hb' : (0 : Rat) < |(b : Rat)| := abs_pos.mpr (Int.cast_ne_zero.mpr hb)
  have hdividend : (2 : Rat) ^ 53 ≤ |(a : Rat)| :=
    calc (2 : Rat) ^ 53 = 2 ^ 53 * 1 := (mul_one _).symm
      _ ≤ 2 ^ 53 * (|(n : Rat) - a / b| * |(b : Rat)|) :=
        mul_le_mul_of_nonneg_left (one_le_sub_mul hb hdvd n) (by norm_num)
      _ = 2 ^ 53 * |(n : Rat) - a / b| * |(b : Rat)| := (mul_assoc _ _ _).symm
      _ ≤ |(a : Rat) / b| * |(b : Rat)| := mul_le_mul_of_nonneg_right close hb'.le
      _ = |(a : Rat)| := by rw [abs_div, div_mul_cancel₀ _ hb'.ne']
  rw [← Int.cast_abs, Int.abs_eq_natAbs] at hdividend
  exact_mod_cast hdividend

/-- **How wrong the integer of a fraction can be.**  Either the fraction has vanished, or the dividend has at
    least 54 bits and the integer is within half of the last of 53 bits. -/
theorem ratio_loss (hb : b ≠ 0) (hdvd : ¬ b ∣ a) (hratio : Double.ratio a b = .ok x)
    (hx : x.number? = some (n : Rat)) :
    (n = 0 ∧ |(a : Rat) / b| ≤ 2 ^ (-1075 : Int)) ∨
      (2 ^ 53 ≤ a.natAbs ∧ 2 ^ 53 * |(n : Rat) - a / b| ≤ |(a : Rat) / b|) := by
  have ha : a ≠ 0 := fun h => hdvd (h ▸ dvd_zero b)
  obtain ⟨q, j, hnearest, hvalue⟩ := Double.exists_nearest_ratio ha hb hratio
  rw [hx, Option.some.injEq] at hvalue
  have hnear : 2 * |(n : Rat) - a / b| ≤ 2 ^ j := by
    rw [hvalue, Double.div_eq_withSign, Binary.abs_withSign_sub]
    exact hnearest.near
  rcases hnearest.full with ⟨limit, hrange⟩ | hfull
  · left
    cases hrange
    have hmultiple : |(n : Rat)| = q * 2 ^ (-1074 : Int) := by
      rw [hvalue, Binary.abs_withSign]
      exact abs_of_nonneg (mul_nonneg q.cast_nonneg (Binary.two_zpow_pos (-1074)).le)
    have hzero : n = 0 := eq_zero_of_least_place hnearest.fits hmultiple
    refine ⟨hzero, ?_⟩
    rw [hzero, Int.cast_zero, zero_sub, abs_neg] at hnear
    rw [show (-1074 : Int) = 1 + -1075 from rfl, zpow_one_add₀ two_ne_zero] at hnear
    linarith
  · right
    have hclose : 2 ^ 53 * |(n : Rat) - a / b| ≤ |(a : Rat) / b| := by
      have hfull' : (2 : Rat) ^ 52 * 2 ^ j ≤ |(a : Rat) / b| := hfull
      have hscaled := mul_le_mul_of_nonneg_left hnear (show (0 : Rat) ≤ 2 ^ 52 by norm_num)
      linarith
    exact ⟨le_natAbs_of_close hb hdvd hclose, hclose⟩

/-- A power by repeated multiplication, also of a base that needs none. -/
theorem powExact_eq (a : Int) (k : Nat) : Operands.powInteger.powExact a k = a ^ k := by
  unfold Operands.powInteger.powExact
  split
  · rename_i hunit
    obtain rfl | rfl | rfl : a = 0 ∨ a = 1 ∨ a = -1 := by omega
    · cases k with
      | zero => rfl
      | succ k => simp
    · simp
    · rcases Nat.even_or_odd k with heven | hodd
      · have hmod : k % 2 = 0 := Nat.even_iff.mp heven
        simp [hmod, heven.neg_one_pow]
      · have hmod : k % 2 = 1 := Nat.odd_iff.mp hodd
        have hne : k ≠ 0 := by omega
        simp [hmod, hne, hodd.neg_one_pow]
  · rfl

/-- A proper fraction is no integer. -/
theorem cast_ne_zpow (ha : 2 ≤ a.natAbs) (hb : b < 0) : (n : Rat) ≠ (a : Rat) ^ b := by
  intro h
  have ha' : (1 : Rat) < |(a : Rat)| := by
    rw [← Int.cast_abs, Int.abs_eq_natAbs]
    exact_mod_cast ha
  have hbelow : |(n : Rat)| < 1 := by
    rw [h, abs_zpow]
    exact zpow_lt_one_of_neg₀ ha' hb
  have hzero : n = 0 := Int.abs_lt_one_iff.mp (by exact_mod_cast hbelow)
  rw [hzero, Int.cast_zero] at h
  exact zpow_ne_zero b (fun h0 => by rw [h0, abs_zero] at ha'; linarith) h.symm

/-- A negative power of one or minus one goes by whether the double of the exponent is odd. -/
theorem powReal_unit_cases (hm : m.regime = .exact) (s : Bool) {k : Int} {y : Binary}
    (hy : y.number? = some (k : Rat)) (hk : k < 0)
    (h : (Operands.powReal (.finite s 4503599627370496 (-52)) y >>= m.normalize) = .ok (.integer n)) :
    (n : Rat) = withSign (s && decide (k % 2 = 1)) 1 := by
  obtain ⟨r, hpow, hr⟩ := Double.pow_unit s hy hk
  rw [Operands.powReal, hpow] at h
  have hn := Modes.number?_of_normalize_real hm h
  rw [hr, Option.some.injEq] at hn
  exact hn.symm

/-- The powers of minus one go by whether the exponent is odd. -/
theorem neg_one_zpow_eq (b : Int) : ((-1 : Int) : Rat) ^ b = withSign (decide (b % 2 = 1)) 1 := by
  rw [Int.cast_neg, Int.cast_one]
  rcases Int.even_or_odd b with heven | hodd
  · rw [heven.neg_one_zpow, Int.even_iff.mp heven]
    rfl
  · rw [hodd.neg_one_zpow, Int.odd_iff.mp hodd]
    rfl

/-- One and minus one differ. -/
theorem withSign_one_inj {s t : Bool} : withSign s 1 = withSign t 1 ↔ s = t := by
  cases s <;> cases t <;> norm_num [withSign]

/-- An integer that a negative exponent leaves is left of the doubles of base and exponent. -/
theorem exists_doubles_of_powInteger (hb : b < 0)
    (h : (Operands.powInteger a b >>= m.normalize) = .ok (.integer n)) :
    a ≠ 0 ∧ ∃ x y, Double.ofInt? a = .ok x ∧ Double.ofInt? b = .ok y ∧
      (Operands.powReal x y >>= m.normalize) = .ok (.integer n) := by
  have ofInt?_of_ofFault : ∀ {k : Int} {x : Binary},
      ofFault (Double.ofInt? k) = (.ok x : Except Failure Binary) → Double.ofInt? k = .ok x := by
    intro k x hx
    cases hk : Double.ofInt? k with
    | error fault =>
      rw [hk] at hx
      cases hx
    | ok y =>
      rw [hk] at hx
      cases hx
      rfl
  rw [Operands.powInteger, if_pos hb] at h
  by_cases ha : a = 0
  · rw [if_pos ha] at h
    cases h
  · rw [if_neg ha] at h
    obtain ⟨v, hv, hnormal⟩ := bind_eq_ok.mp h
    obtain ⟨x, hx, hrest⟩ := bind_eq_ok.mp hv
    obtain ⟨y, hy, hpow⟩ := bind_eq_ok.mp hrest
    refine ⟨ha, x, y, ofInt?_of_ofFault hx, ofInt?_of_ofFault hy, ?_⟩
    rw [hpow]
    exact hnormal

/-- A negative power of one or minus one is exact unless the last bit of a long exponent counts. -/
theorem unit_power_iff (hm : m.regime = .exact) (ha : a = 1 ∨ a = -1) (hb : b < 0) {y : Binary}
    (hx : Double.ofInt? a = .ok x) (hy : Double.ofInt? b = .ok y)
    (h : (Operands.powReal x y >>= m.normalize) = .ok (.integer n)) :
    (n : Rat) = (a : Rat) ^ b ↔ ¬ (a = -1 ∧ b % 2 = 1 ∧ 2 ^ 53 ≤ b.natAbs) := by
  obtain ⟨k, hk, hneg, hsmall, hlong⟩ := Double.exists_number?_ofInt? hy
  rcases ha with rfl | rfl
  · cases hx
    have hn := powReal_unit_cases hm false hk (hneg hb) h
    refine iff_of_true ?_ fun hcontra => absurd hcontra.1 (by decide)
    rw [hn, Bool.false_and, Int.cast_one, one_zpow]
    rfl
  · cases hx
    have hn := powReal_unit_cases hm true hk (hneg hb) h
    rw [hn, neg_one_zpow_eq, Bool.true_and, withSign_one_inj, decide_eq_decide]
    -- the double of a short exponent is the exponent, that of a long one is even
    rcases Nat.lt_or_ge b.natAbs (2 ^ 53) with hshort | hlength
    · rw [hsmall hshort]
      omega
    · have heven := hlong hlength
      omega

/-- **The integers that a power leaves**: the exact one, unless it is a proper fraction or the last bit of a
    long exponent counts. -/
theorem powInteger_iff (hm : m.regime = .exact)
    (h : (Operands.powInteger a b >>= m.normalize) = .ok (.integer n)) :
    ¬ (a = 0 ∧ b < 0) ∧
      ((n : Rat) = (a : Rat) ^ b ↔
        ¬ (b < 0 ∧ (2 ≤ a.natAbs ∨ (a = -1 ∧ b % 2 = 1 ∧ 2 ^ 53 ≤ b.natAbs)))) := by
  by_cases hb : b < 0
  · obtain ⟨ha, x, y, hx, hy, hpow⟩ := exists_doubles_of_powInteger hb h
    refine ⟨fun hzero => ha hzero.1, ?_⟩
    by_cases hlarge : 2 ≤ a.natAbs
    · exact iff_of_false (cast_ne_zpow hlarge hb) (not_not.mpr ⟨hb, Or.inl hlarge⟩)
    · have hunit : a = 1 ∨ a = -1 := by omega
      rw [unit_power_iff hm hunit hb hx hy hpow]
      exact not_congr ⟨fun hlossy => ⟨hb, Or.inr hlossy⟩, fun hlossy => hlossy.2.resolve_left hlarge⟩
  · rw [Operands.powInteger, if_neg hb] at h
    refine ⟨fun hzero => hb hzero.2, iff_of_true ?_ fun hlossy => hb hlossy.1⟩
    split at h
    · cases h
    · rw [ok_bind, Modes.normalize_integer_of_exact hm, Except.ok.injEq, Value.integer.injEq] at h
      obtain ⟨k, rfl⟩ := Int.eq_ofNat_of_zero_le (not_lt.mp hb)
      rw [← h, powExact_eq, Int.toNat_natCast, zpow_natCast, Int.cast_pow]

/-! ## Steps -/

variable {call : Caller} {env : Environment} {t : Token} {rest : List Value} {k k' : Nat}

/-- What an operator leaves of two integers is brought into the active regime. -/
theorem apply_of_step {o : Operator} {rule : BinaryRule} (hkind : t.kind = .operator)
    (hfind : env.vocabulary.operators.find? t.value = some o) (hrule : o.rule = .binary rule)
    (hstep : Evaluation.step call env ⟨.integer b :: .integer a :: rest, k⟩ t = .ok ⟨.integer n :: rest, k'⟩) :
    (rule.apply env.modes (.integer a b) >>= env.modes.normalize) = .ok (.integer n) := by
  simp only [Evaluation.step, hkind, Evaluation.applyOperator, hfind, hrule, Value.promote, Value.isComplex,
    Value.commonContext?, Bool.or_self, Bool.false_eq_true, if_false, ok_bind] at hstep
  obtain ⟨v, hv, hpush⟩ := bind_eq_ok.mp hstep
  obtain ⟨w, hw, hmachine⟩ := bind_eq_ok.mp hpush
  simp only [pure_eq_ok, Except.ok.injEq, Machine.mk.injEq, List.cons.injEq, and_true] at hmachine
  rw [hv, ok_bind, hw, hmachine.1]

/-- A power of integers is that of the integers, whatever the policy for complex results. -/
theorem power_integers (m : Modes) (a b : Int) :
    Value.power m (.integer a) (.integer b) = Operands.powInteger a b := by
  simp only [Value.power, Value.isComplex, Value.isNegative, Value.isBelow, Value.compareInt, Value.isIntegral,
    Value.promote, Value.commonContext?, Bool.or_self, Bool.false_eq_true, if_false, Bool.not_true,
    Bool.and_false, ok_bind, pure_eq_ok]
  rfl

/-- An integer result is what is left. -/
theorem eq_of_leaves (hm : m.regime = .exact) {c : Int}
    (h : (Except.ok (Value.integer c) >>= m.normalize) = .ok (.integer n)) : n = c := by
  rw [ok_bind, Modes.normalize_integer_of_exact hm, Except.ok.injEq, Value.integer.injEq] at h
  exact h.symm

/-- A guard against a zero divisor is passed only by other divisors. -/
theorem ne_zero_of_guard {failure : Failure} {r : Except Failure Value} {v : Value}
    (h : ((if b = 0 then .error failure else r) >>= m.normalize) = .ok v) :
    b ≠ 0 ∧ (r >>= m.normalize) = .ok v := by
  split at h
  · cases h
  · rename_i hb
    exact ⟨hb, h⟩

/-- What a whole quotient leaves. -/
theorem floorDivide_eq (hm : m.regime = .exact)
    (h : (BinaryRule.guardedFloorDivide.apply m (.integer a b) >>= m.normalize) = .ok (.integer n)) :
    b ≠ 0 ∧ n = a.fdiv b := by
  simp only [BinaryRule.apply, Operands.values, Value.isZero, decide_eq_true_eq, Operands.floorDivide] at h
  obtain ⟨hb, h⟩ := ne_zero_of_guard h
  exact ⟨hb, eq_of_leaves hm (ne_zero_of_guard h).2⟩

/-- What a remainder leaves. -/
theorem modulo_eq (hm : m.regime = .exact)
    (h : (BinaryRule.guardedModulo.apply m (.integer a b) >>= m.normalize) = .ok (.integer n)) :
    b ≠ 0 ∧ n = a.tmod b := by
  simp only [BinaryRule.apply, Operands.values, Value.isZero, decide_eq_true_eq, Operands.modulo] at h
  obtain ⟨hb, h⟩ := ne_zero_of_guard h
  exact ⟨hb, eq_of_leaves hm (ne_zero_of_guard h).2⟩

/-- Only quotients and powers can be lossy. -/
theorem not_lossy {symbol : String} (h : symbol ≠ "/" ∧ symbol ≠ "^" ∧ symbol ≠ "**") : ¬ Lossy symbol a b :=
  fun hlossy => hlossy.elim (fun hover => h.1 hover.1) fun hpower => hpower.1.elim h.2.1 h.2.2

/-- The two ways to write a power. -/
theorem exactValue?_power {symbol : String} (hsymbol : symbol = "^" ∨ symbol = "**") (h : ¬ (a = 0 ∧ b < 0)) :
    exactValue? symbol a b = some ((a : Rat) ^ b) := by
  rcases hsymbol with rfl | rfl
  · exact if_neg h
  · exact if_neg h

/-- A power is lossy by its operands alone. -/
theorem lossy_power_iff {symbol : String} (hsymbol : symbol = "^" ∨ symbol = "**") :
    Lossy symbol a b ↔ b < 0 ∧ (2 ≤ a.natAbs ∨ (a = -1 ∧ b % 2 = 1 ∧ 2 ^ 53 ≤ b.natAbs)) := by
  have hover : symbol ≠ "/" := by rcases hsymbol with rfl | rfl <;> decide
  constructor
  · rintro (hquotient | hpower)
    · exact absurd hquotient.1 hover
    · exact hpower.2
  · exact fun h => Or.inr ⟨hsymbol, h⟩

/-- The integer is the exact value unless the operation is lossy, and if the operation is a quotient it is not
    far off. -/
def ExactUnlessLossy (symbol : String) (a b n : Int) : Prop :=
  ∃ v, exactValue? symbol a b = some v ∧ ((n : Rat) = v ↔ ¬ Lossy symbol a b) ∧
    (symbol = "/" → ¬ b ∣ a →
      (n = 0 ∧ |v| ≤ 2 ^ (-1075 : Int)) ∨ (2 ^ 53 ≤ a.natAbs ∧ 2 ^ 53 * |(n : Rat) - v| ≤ |v|))

/-- An operator that is never lossy has to leave the exact value. -/
theorem ExactUnlessLossy.of_eq {symbol : String} {v : Rat} (h : symbol ≠ "/" ∧ symbol ≠ "^" ∧ symbol ≠ "**")
    (hv : exactValue? symbol a b = some v) (hn : (n : Rat) = v) : ExactUnlessLossy symbol a b n :=
  ⟨v, hv, iff_of_true hn (not_lossy h), fun hquotient => absurd hquotient h.1⟩

/-- A quotient leaves the exact value, or the fraction is no integer. -/
theorem ExactUnlessLossy.quotient (hm : m.regime = .exact)
    (h : (Operands.divInteger a b >>= m.normalize) = .ok (.integer n)) : ExactUnlessLossy "/" a b n := by
  obtain ⟨hb, ⟨hdvd, hn⟩ | ⟨hdvd, x, hratio, hx⟩⟩ := divInteger_cases hm h
  · refine ⟨_, if_neg hb, iff_of_true ((cast_eq_div_iff hb).mpr hn) ?_, fun _ hrest => absurd hdvd hrest⟩
    rintro (⟨-, hlossy⟩ | ⟨hlossy | hlossy, -⟩)
    · exact hlossy hdvd
    · exact absurd hlossy (by decide)
    · exact absurd hlossy (by decide)
  · refine ⟨_, if_neg hb, iff_of_false ?_ (not_not.mpr (Or.inl ⟨rfl, hdvd⟩)),
      fun _ _ => ratio_loss hb hdvd hratio hx⟩
    exact fun hn => hdvd ⟨n, by rw [(cast_eq_div_iff hb).mp hn, mul_comm]⟩

/-- A power leaves the exact value unless its exponent is negative. -/
theorem ExactUnlessLossy.power {symbol : String} (hm : m.regime = .exact) (hsymbol : symbol = "^" ∨ symbol = "**")
    (h : (Operands.powInteger a b >>= m.normalize) = .ok (.integer n)) : ExactUnlessLossy symbol a b n := by
  obtain ⟨hdefined, hiff⟩ := powInteger_iff hm h
  refine ⟨_, exactValue?_power hsymbol hdefined, hiff.trans (not_congr (lossy_power_iff hsymbol).symm), ?_⟩
  rintro rfl
  exact absurd hsymbol (by decide)

/-- **Which integers are exact.**  In the exact regime an arithmetic operator that leaves an integer of two
    integers leaves the exact value unless the operation is lossy.  The integer that a lossy quotient leaves
    stands for a fraction that has vanished, or is off by no more than half of the last of 53 bits. -/
theorem step_exact_iff (hops : env.vocabulary.operators = .calculator) (hm : env.modes.regime = .exact)
    (hkind : t.kind = .operator) (hsymbol : t.value ∈ arithmeticSymbols)
    (hstep : Evaluation.step call env ⟨.integer b :: .integer a :: rest, k⟩ t = .ok ⟨.integer n :: rest, k'⟩) :
    ∃ v, exactValue? t.value a b = some v ∧ ((n : Rat) = v ↔ ¬ Lossy t.value a b) ∧
      (t.value = "/" → ¬ b ∣ a →
        (n = 0 ∧ |v| ≤ 2 ^ (-1075 : Int)) ∨ (2 ^ 53 ≤ a.natAbs ∧ 2 ^ 53 * |(n : Rat) - v| ≤ |v|)) := by
  have hrule : ∀ {o rule}, Operators.calculator.find? t.value = some o → o.rule = .binary rule →
      (rule.apply env.modes (.integer a b) >>= env.modes.normalize) = .ok (.integer n) :=
    fun hfind hbinary => apply_of_step hkind (hops ▸ hfind) hbinary hstep
  show ExactUnlessLossy t.value a b n
  generalize t.value = symbol at hsymbol hrule ⊢
  simp only [arithmeticSymbols, List.mem_cons, List.not_mem_nil, or_false] at hsymbol
  -- each operator by its own rule
  rcases hsymbol with rfl | rfl | rfl | rfl | rfl | rfl | rfl | rfl
  · have hn : n = a + b := eq_of_leaves hm (hrule rfl rfl)
    exact .of_eq (by decide) rfl (by rw [hn, Int.cast_add])
  · have hn : n = a - b := eq_of_leaves hm (hrule rfl rfl)
    exact .of_eq (by decide) rfl (by rw [hn, Int.cast_sub])
  · have hn : n = a * b := eq_of_leaves hm (hrule rfl rfl)
    exact .of_eq (by decide) rfl (by rw [hn, Int.cast_mul])
  · exact .quotient hm (hrule rfl rfl)
  · obtain ⟨hb, hn⟩ := floorDivide_eq hm (hrule rfl rfl)
    exact .of_eq (by decide) (if_neg hb) (by rw [hn, fdiv_eq_floor])
  · obtain ⟨hb, hn⟩ := modulo_eq hm (hrule rfl rfl)
    exact .of_eq (by decide) (if_neg hb) (by rw [hn, tmod_eq_sub])
  · exact .power hm (Or.inl rfl) (power_integers _ _ _ ▸ hrule rfl rfl)
  · exact .power hm (Or.inr rfl) (power_integers _ _ _ ▸ hrule rfl rfl)

/-- Half of an odd number of eighteen digits is taken for an integer. -/
theorem step_half_of_odd :
    let env : Environment := ⟨⟨.calculator, none⟩, { Modes.initial with regime := .exact }, [], [], 0⟩
    let t : Token := ⟨.operator, "/", 0, none⟩
    env.vocabulary.operators = .calculator ∧ env.modes.regime = .exact ∧ t.kind = .operator ∧
      t.value ∈ arithmeticSymbols ∧
      Evaluation.step env.call env ⟨[.integer 2, .integer 100000000000000001], 0⟩ t =
        .ok ⟨[.integer 50000000000000000], 1⟩ ∧
      ∃ v, exactValue? t.value 100000000000000001 2 = some v ∧ ((50000000000000000 : Int) : Rat) ≠ v := by
  intro env t
  have hsymbol : t.value ∈ arithmeticSymbols := by decide
  have hstep : Evaluation.step env.call env ⟨.integer 2 :: .integer 100000000000000001 :: [], 0⟩ t =
      .ok ⟨.integer 50000000000000000 :: [], 1⟩ := rfl
  obtain ⟨v, hv, hiff, -⟩ := step_exact_iff rfl rfl rfl hsymbol hstep
  have hlossy : Lossy t.value 100000000000000001 2 := Or.inl ⟨rfl, by decide⟩
  exact ⟨rfl, rfl, rfl, hsymbol, hstep, v, hv, fun hsame => hiff.mp hsame hlossy⟩

end SciCalc
