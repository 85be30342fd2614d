/-
  Powers of promoted operands.

  A power asks its base for a sign and its exponent for a fraction, and promotes them after that.  An operator has
  promoted its operands before it computes anything, so there they are asked, and promoted, once more.

  1. **Signs of zeros** (`unsigned_of_isNegative`) — a zero is not negative, with a sign or without, and a whole number:
     a negative base and an exponent with a fraction have no sign to lose.

  2. **Integers as doubles** (`Double.exists_number?_signed`) — the double of an integer, however it is rounded, is
     whole and has its sign.

  3. **Serving operands** (`Operands.Serves`) — promoted operands answer as the values do and are promoted to
     themselves: doubles and integers (`promote_doubles`), and decimals of the active context (`promote_decimals`).

  4. **Theorem** (`power_promoted`) — so two values that stand on the stack have one power, promoted before or not; if
     they cannot be promoted they have none.
-/
import SciCalc.Function.Power
import SciCalc.Proofs.Value.Order
import SciCalc.Proofs.Value.Rereading

namespace SciCalc

open Attempt
open Binary (withSign)

/-! ## Signs of zeros -/

namespace Value

theorem unsigned_unsigned (v : Value) : v.unsigned.unsigned = v.unsigned := by
  refine unsigned_of_ne fun e ctx heq => ?_
  unfold unsigned at heq
  split at heq
  · cases heq
  · rename_i hsigned
    exact hsigned _ _ _ heq

/-- The sign of a zero does not make it negative. -/
theorem isNegative_unsigned (v : Value) : v.unsigned.isNegative = v.isNegative := by
  unfold unsigned
  split
  · rename_i s e ctx
    cases s <;> rfl
  · rfl

/-- The sign of a zero does not matter for its being whole. -/
theorem isIntegral_unsigned (v : Value) : v.unsigned.isIntegral = v.isIntegral := by
  unfold unsigned
  split <;> rfl

/-- A negative number is no zero. -/
theorem unsigned_of_isNegative {v : Value} (h : v.isNegative = .ok true) : v.unsigned = v := by
  refine unsigned_of_ne fun e ctx heq => ?_
  rw [heq, ← isNegative_unsigned] at h
  cases h

/-- A number with a fraction is no zero. -/
theorem unsigned_of_not_isIntegral {v : Value} (h : v.isIntegral = false) : v.unsigned = v := by
  refine unsigned_of_ne fun e ctx heq => ?_
  rw [heq, isIntegral, Decimal.isIntegral, Bool.or_eq_false_iff] at h
  split at h
  · cases h.2
  · rw [Nat.zero_mod] at h
    cases h.2

end Value

/-! ## Integers as doubles -/

/-- The double of an integer is a whole number of its sign. -/
theorem Double.exists_number?_signed {n : Int} {x : Binary} (h : ofInt? n = .ok x) :
    ∃ k : Int, x.number? = some (k : Rat) ∧ (k < 0 ↔ n < 0) := by
  obtain ⟨k, hk, hneg, hsame, -⟩ := exists_number?_ofInt? h
  refine ⟨k, hk, fun hlt => ?_, hneg⟩
  by_contra hn
  by_cases hzero : n = 0
  · subst hzero
    have hkept : k = 0 := hsame (by decide)
    omega
  · -- a positive integer is rounded to a number that is not negative
    obtain ⟨q, j, -, hvalue⟩ := exists_nearest_ofInt? hzero h
    rw [decide_eq_false hn, withSign, if_neg Bool.false_ne_true, hk, Option.some.injEq] at hvalue
    have hnonneg : (0 : Rat) ≤ k := hvalue ▸ mul_nonneg q.cast_nonneg (Binary.two_zpow_pos j).le
    exact absurd hlt (Int.not_lt.mpr (by exact_mod_cast hnonneg))

namespace Value

/-- A double is negative if its number is. -/
theorem isNegative_real {x : Binary} {k : Int} (h : x.number? = some (k : Rat)) :
    (real x).isNegative = .ok (decide (k < 0)) := by
  have hzero : (Double.ofInt 0).number? = some 0 := Binary.number?_of_isZero rfl
  have hcompare : x.compare? (Double.ofInt 0) = some (cmp (k : Rat) 0) := by
    rw [Binary.compare?_eq_cmp, Binary.place?_of_number? h, Binary.place?_of_number? hzero]
    exact congrArg some (Place.cmp_ofRat _ _)
  have hless : (some (cmp (k : Rat) 0) = some .lt) ↔ k < 0 := by
    rw [Option.some.injEq, cmp_eq_lt_iff, Int.cast_lt_zero]
  show Except.ok (decide (x.compare? (Double.ofInt 0) = some .lt)) = _
  rw [hcompare, decide_eq_decide.mpr hless]

/-- An integer is negative if it is below zero. -/
theorem isNegative_integer (n : Int) : (integer n).isNegative = .ok (decide (n < 0)) := by
  have hless : (some (compare n 0) = some .lt) ↔ n < 0 := by
    rw [Option.some.injEq, compare_lt_iff_lt]
  show Except.ok (decide (some (compare n 0) = some .lt)) = _
  rw [decide_eq_decide.mpr hless]

end Value

/-! ## Serving operands -/

/-- **The operands serve for a power as two real values do.** -/
structure Operands.Serves (o : Operands) (v w : Value) : Prop where
  /-- They are real as well. -/
  real : o.values.1.isComplex = false ∧ o.values.2.isComplex = false
  /-- They are promoted to themselves. -/
  promoted : o.values.1.promote o.values.2 = .ok o
  /-- The base has the sign of the value. -/
  negative : o.values.1.isNegative = v.isNegative
  /-- The exponent is whole if the value is. -/
  whole : o.values.2.isIntegral = w.isIntegral
  /-- Where a power is complex, it is that of the values. -/
  complexPower : v.isNegative = .ok true → w.isIntegral = false →
    o.values.1.complexPower o.values.2 = v.complexPower w

namespace Value

variable {m : Modes} {v w : Value} {o : Operands}

/-- A real base is asked for its sign first, and its exponent for a fraction. -/
theorem power_of_real (m : Modes) (hv : v.isComplex = false) (hw : w.isComplex = false) :
    v.power m w = (do
      if (← v.isNegative) && !w.isIntegral then
        outsideDomain m "pow(x, y) for x < 0 and non-integer y" (complexPower v w)
      else (← promote v w).power) := by
  rw [power, hv, hw]
  rfl

/-- **Operands that serve have the power of the values.** -/
theorem power_of_serves (hv : v.isComplex = false) (hw : w.isComplex = false) (hpromote : v.promote w = .ok o)
    (h : o.Serves v w) (m : Modes) : o.values.1.power m o.values.2 = v.power m w := by
  rw [power_of_real m hv hw, power_of_real m h.real.1 h.real.2, h.negative, h.whole, h.promoted, hpromote]
  cases hneg : v.isNegative with
  | error f => rfl
  | ok negative =>
    simp only [ok_bind]
    by_cases houtside : (negative && !w.isIntegral) = true
    · obtain ⟨rfl, hwhole⟩ : negative = true ∧ w.isIntegral = false := by simpa using houtside
      rw [h.complexPower hneg hwhole]
    · rw [if_neg houtside, if_neg houtside]

/-- Values that cannot be promoted, nor taken for complex numbers, have no power. -/
theorem power_ne_ok {f : Failure} (hv : v.isComplex = false) (hw : w.isComplex = false)
    (hpromote : v.promote w = .error f) (hcomplex : ∀ u, v.complexPower w ≠ .ok u) (m : Modes) (u : Value) :
    v.power m w ≠ .ok u := by
  rw [power_of_real m hv hw, hpromote]
  intro h
  obtain ⟨negative, -, h⟩ := bind_eq_ok.mp h
  split at h
  · rw [outsideDomain] at h
    split at h
    · exact hcomplex u h
    · cases h
  · cases h

/-- A double of a value that is no decimal has the sign of the value, and is whole if the value is. -/
theorem isNegative_of_toReal {x : Binary} (hv : v.isComplex = false) (hv' : v.isDecimal = false)
    (h : v.toReal = .ok x) : (real x).isNegative = v.isNegative ∧ (real x).isIntegral = v.isIntegral := by
  cases v with
  | complex z => cases hv
  | decimal y ctx => cases hv'
  | real y =>
    cases h
    exact ⟨rfl, rfl⟩
  | integer n =>
    rw [toReal] at h
    split at h
    · rename_i y hn
      cases h
      obtain ⟨k, hk, hsign⟩ := Double.exists_number?_signed hn
      refine ⟨?_, (Binary.isIntegral_of_number? hk).1⟩
      rw [isNegative_real hk, isNegative_integer, decide_eq_decide.mpr hsign]
    · cases h

/-- The complex power of real values is that of their doubles. -/
theorem complexPower_of_real (hv : v.isComplex = false) (hw : w.isComplex = false) :
    v.complexPower w = (do
      let x ← v.toReal
      let y ← w.toReal
      ofComplex ((Complex.ofReal x).power (Complex.ofReal y))) := by
  have toComplex_of_real : ∀ {u : Value}, u.isComplex = false → u.toComplex = do return .ofReal (← u.toReal) := by
    intro u hu
    cases u with
    | complex z => cases hu
    | _ => rfl
  rw [complexPower, toComplex_of_real hv, toComplex_of_real hw]
  cases v.toReal with
  | error f => rfl
  | ok x =>
    cases w.toReal with
    | error f => rfl
    | ok y => rfl

/-- **Doubles and integers are promoted to operands that serve**, unless an integer is too large for a double; then
    there is no power. -/
theorem promote_doubles (hv : v.isComplex = false) (hw : w.isComplex = false) (hv' : v.isDecimal = false)
    (hw' : w.isDecimal = false) :
    (∃ o, v.promote w = .ok o ∧ o.Serves v w) ∨
      ∃ f, v.promote w = .error f ∧ ∀ u, v.complexPower w ≠ .ok u := by
  -- two integers stay what they are
  have mixed : (v.promote w = do
      let x ← v.toReal
      let y ← w.toReal
      return .real x y) ∨ ∃ n k, v = .integer n ∧ w = .integer k := by
    cases v <;> cases w <;> simp_all [isComplex, isDecimal, promote, commonContext?]
  rcases mixed with hpromote | ⟨n, k, rfl, rfl⟩
  swap
  · exact Or.inl ⟨.integer n k, rfl, ⟨rfl, rfl⟩, rfl, rfl, rfl, fun _ _ => rfl⟩
  rw [complexPower_of_real hv hw, hpromote]
  cases hx : v.toReal with
  | error f => exact Or.inr ⟨f, rfl, fun u => nofun⟩
  | ok x =>
    cases hy : w.toReal with
    | error f => exact Or.inr ⟨f, rfl, fun u => nofun⟩
    | ok y =>
      refine Or.inl ⟨.real x y, rfl, ⟨rfl, rfl⟩, rfl, (isNegative_of_toReal hv hv' hx).1,
        (isNegative_of_toReal hw hw' hy).2, fun _ _ => ?_⟩
      rw [complexPower_of_real hv hw, hx, hy]
      rfl

/-- Where decimals are used, a decimal is read by bringing it into the active context. -/
theorem normalize_decimal_eq_ok (hm : m.regime = .decimal) {x : Decimal} {ctx : Context} :
    m.normalize (.decimal x ctx) = .ok v ↔
      ∃ z, (decimal x ctx).toDecimal m.context = .ok z ∧ v = .decimal z m.context := by
  simp only [Modes.normalize, Modes.normalizeReal, hm, bind_eq_ok, pure_eq_ok, Except.ok.injEq]
  exact exists_congr fun z => and_congr_right fun _ => eq_comm

/-- **A decimal that is kept is brought into the active context once and for all**, and may lose the sign of a zero
    there. -/
theorem exists_toDecimal_of_keeps (hleast : Limit.leastPrecision ≤ m.precision) (hm : m.regime = .decimal)
    {x : Decimal} (h : m.Keeps (.decimal x m.context)) :
    ∃ z, (decimal x m.context).toDecimal m.context = .ok z ∧
      (decimal z m.context).unsigned = (decimal x m.context).unsigned ∧
      (decimal z m.context).toDecimal m.context = .ok z := by
  have again : ∀ {z : Decimal}, m.normalize (.decimal z m.context) = .ok (.decimal z m.context) →
      (decimal z m.context).toDecimal m.context = .ok z := by
    intro z hz
    obtain ⟨z', hz', heq⟩ := (normalize_decimal_eq_ok hm).mp hz
    cases heq
    exact hz'
  rcases h with hsame | ⟨-, hunsigned⟩
  · exact ⟨x, again hsame, rfl, again hsame⟩
  · obtain ⟨z, hz, heq⟩ := (normalize_decimal_eq_ok hm).mp hunsigned
    refine ⟨z, hz, by rw [← heq, unsigned_unsigned], again ?_⟩
    -- what has been read is kept, and it has no sign to lose any more
    have hexact : m.regime = .exact → ¬ (decimal x m.context).unsigned.Stray := by
      rw [hm]
      exact nofun
    rw [← heq]
    rcases Modes.normalize_rereads hleast _ _ hunsigned hexact with hkept | ⟨-, hkept⟩
    · exact hkept
    · rwa [unsigned_unsigned] at hkept

/-- Decimals of one context are promoted by bringing them there. -/
theorem promote_of_toDecimal {ctx : Context} {x y x' y' : Decimal} (hx : (decimal x ctx).toDecimal ctx = .ok x')
    (hy : (decimal y ctx).toDecimal ctx = .ok y') :
    (decimal x ctx).promote (decimal y ctx) = .ok (.decimal x' y' ctx ctx) := by
  have hcommon : commonContext? (.decimal x ctx) (.decimal y ctx) = some ctx := by
    rw [commonContext?, max_self]
  simp only [promote, isComplex, Bool.or_self, Bool.false_eq_true, if_false, hcommon, hx, hy, ok_bind, pure_eq_ok]

/-- **Decimals of the active context are promoted to operands that serve.** -/
theorem promote_decimals (hleast : Limit.leastPrecision ≤ m.precision) (hm : m.regime = .decimal) {x y : Decimal}
    (hx : m.Keeps (.decimal x m.context)) (hy : m.Keeps (.decimal y m.context)) :
    ∃ o, (decimal x m.context).promote (decimal y m.context) = .ok o ∧
      o.Serves (.decimal x m.context) (.decimal y m.context) := by
  obtain ⟨x', hbase, hsign, hbase'⟩ := exists_toDecimal_of_keeps hleast hm hx
  obtain ⟨y', hexponent, hsign', hexponent'⟩ := exists_toDecimal_of_keeps hleast hm hy
  have hnegative : (decimal x' m.context).isNegative = (decimal x m.context).isNegative := by
    rw [← isNegative_unsigned, hsign, isNegative_unsigned]
  have hwhole : (decimal y' m.context).isIntegral = (decimal y m.context).isIntegral := by
    rw [← isIntegral_unsigned, hsign', isIntegral_unsigned]
  refine ⟨_, promote_of_toDecimal hbase hexponent, ⟨rfl, rfl⟩, promote_of_toDecimal hbase' hexponent', hnegative,
    hwhole, fun hneg hfraction => ?_⟩
  -- a negative base and an exponent with a fraction are brought there as they are
  have hbasekept : decimal x' m.context = decimal x m.context := by
    rw [← unsigned_of_isNegative hneg, ← hsign, unsigned_of_isNegative (hnegative.trans hneg)]
  have hexponentkept : decimal y' m.context = decimal y m.context := by
    rw [← unsigned_of_not_isIntegral hfraction, ← hsign', unsigned_of_not_isIntegral (hwhole.trans hfraction)]
  show (decimal x' m.context).complexPower (decimal y' m.context) = _
  rw [hbasekept, hexponentkept]

/-! ## Theorem -/

/-- Where decimals are used, a real value is a decimal of the active context. -/
theorem exists_decimal_of_native (hm : m.regime = .decimal) (hv : v.isComplex = false) (h : v.Native m) :
    ∃ x, v = .decimal x m.context := by
  cases v with
  | real x => exact absurd hm h
  | integer n =>
    rw [Native, hm] at h
    cases h
  | complex z => cases hv
  | decimal x ctx =>
    obtain ⟨-, rfl, -⟩ := h
    exact ⟨x, rfl⟩

/-- Where no decimals are used, no value is one. -/
theorem isDecimal_of_native (hm : m.regime ≠ .decimal) (h : v.Native m) : v.isDecimal = false := by
  cases v with
  | decimal x ctx => exact absurd h.1 hm
  | _ => rfl

/-- Complex operands are not promoted any further. -/
theorem power_promoted_complex (m : Modes) (h : (v.isComplex || w.isComplex) = true) :
    (v.promote w >>= fun o => o.values.1.power m o.values.2) = v.power m w := by
  have hpromote : v.promote w = (do
      let z ← v.toComplex
      let u ← w.toComplex
      return .complex z u) := by
    unfold promote
    rw [if_pos h]
  rw [hpromote, power, if_pos h, complexPower]
  cases v.toComplex with
  | error f => rfl
  | ok z =>
    cases w.toComplex with
    | error f => rfl
    | ok u => rfl

/-- **Two values that stand on the stack have one power**, whether they are promoted before or not. -/
theorem power_promoted (hleast : Limit.leastPrecision ≤ m.precision) (hv : v.Native m ∧ m.Rereads v)
    (hw : w.Native m ∧ m.Rereads w) (u : Value) :
    (v.promote w >>= fun o => o.values.1.power m o.values.2) = .ok u ↔ v.power m w = .ok u := by
  by_cases hcomplex : (v.isComplex || w.isComplex) = true
  · rw [power_promoted_complex m hcomplex]
  obtain ⟨hvreal, hwreal⟩ : v.isComplex = false ∧ w.isComplex = false := by simpa using hcomplex
  have served : (∃ o, v.promote w = .ok o ∧ o.Serves v w) ∨
      ∃ f, v.promote w = .error f ∧ ∀ u, v.complexPower w ≠ .ok u := by
    by_cases hm : m.regime = .decimal
    · obtain ⟨x, rfl⟩ := exists_decimal_of_native hm hvreal hv.1
      obtain ⟨y, rfl⟩ := exists_decimal_of_native hm hwreal hw.1
      have kept : ∀ {z : Value}, m.Rereads z → m.Keeps z := fun hz => hz fun hexact => by
        rw [hm] at hexact
        cases hexact
      exact Or.inl (promote_decimals hleast hm (kept hv.2) (kept hw.2))
    · exact promote_doubles hvreal hwreal (isDecimal_of_native hm hv.1) (isDecimal_of_native hm hw.1)
  rcases served with ⟨o, hpromote, hserves⟩ | ⟨f, hpromote, hnone⟩
  · rw [hpromote, ok_bind, power_of_serves hvreal hwreal hpromote hserves m]
  · rw [hpromote, error_bind]
    exact iff_of_false nofun (power_ne_ok hvreal hwreal hpromote hnone m u)

end Value

end SciCalc
