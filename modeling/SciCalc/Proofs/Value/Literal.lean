/-
  Numerals as values.

  A numeral denotes a rational number.  What becomes of it in the exact and in the decimal regime depends on that
  number alone, however it is written.

  1. **Integers** (`exactInteger?_eq_some_iff`) — a decimal is kept as an integer exactly if its number is one and its
     leading digit is not too far from the point.

  2. **Digits** (`withSign_finished`) — what a context leaves of a decimal is its number, counted in units of the last
     digit that fits and rounded to an integer, where a half goes away from zero.  A number that has no more digits
     than fit is a number of such units already (`rounded_of_short`).

  3. **Regimes** (`literal_integer_iff`, `literal_decimal_iff`) — what is read is an integer, or brought into the context.

  4. **Theorem** (`number_typed_as_denoted`) — this holds of every number in a text.  Only a numeral with a digit
     farther behind the point than any decimal has one is not read (`zero_below_least_exponent`).
-/
import SciCalc.Proofs.Value.Display
import SciCalc.Proofs.Value.Rounding

namespace SciCalc

open Attempt Number
open Binary (withSign)
open Context (minExponent maxExponent)

/-! ## Integers -/

section

variable {s : Bool} {c : Nat} {e i : Int}

theorem withSign_mul (s : Bool) (a b : Rat) : withSign s (a * b) = withSign s a * b := by
  cases s with
  | false => rfl
  | true => exact (neg_mul a b).symm

theorem withSign_eq_intCast_iff {n : Nat} : withSign s (n : Rat) = (i : Rat) ↔ (if s then -(n : Int) else n) = i := by
  rw [Binary.withSign_natCast, Int.cast_inj]

/-- A decimal with digits behind the point has no fraction exactly if these are zeros. -/
theorem dvd_of_withSign_eq_intCast {k : Nat} (h : withSign s (c * 10 ^ (-k : Int)) = (i : Rat)) : 10 ^ k ∣ c := by
  have habs := congrArg abs h
  have hpos := Decimal.ten_zpow_pos (-k : Int)
  rw [Binary.abs_withSign, abs_of_nonneg (by positivity), zpow_neg, zpow_natCast, ← div_eq_mul_inv,
    div_eq_iff (by positivity), ← Int.cast_abs, Int.abs_eq_natAbs, Int.cast_natCast] at habs
  refine ⟨i.natAbs, ?_⟩
  rw [mul_comm]
  exact_mod_cast habs

theorem withSign_of_dvd {k : Nat} (h : 10 ^ k ∣ c) :
    withSign s (c * 10 ^ (-k : Int)) = withSign s ((c / 10 ^ k : Nat) : Rat) := by
  obtain ⟨d, rfl⟩ := h
  rw [Nat.mul_div_cancel_left d (Nat.pow_pos (by omega)), zpow_neg, zpow_natCast]
  push_cast
  rw [mul_comm ((10 : Rat) ^ k), mul_inv_cancel_right₀ (by positivity)]

/-- A coefficient with fewer digits than stand behind the point is less than a unit. -/
theorem lt_of_digitCount_lt {k : Nat} (h : digitCount c < k) : c < 10 ^ k :=
  (digitCount_le_iff (by omega)).mp (Nat.le_of_lt h)

/-- So it has no fraction only if it is zero … -/
theorem decide_dvd_ten_pow (c k : Nat) :
    (if digitCount c < k then decide (c = 0) else decide (c % 10 ^ k = 0)) = decide (10 ^ k ∣ c) := by
  split
  · rename_i hshort
    have hless := lt_of_digitCount_lt hshort
    exact decide_eq_decide.mpr ⟨fun h => h ▸ Nat.dvd_zero _, fun h => Nat.eq_zero_of_dvd_of_lt h hless⟩
  · exact decide_eq_decide.mpr Nat.dvd_iff_mod_eq_zero.symm

/-- … and nothing is in front of the point. -/
theorem quotient_ten_pow (c k : Nat) :
    (if digitCount c < k then (0 : Int) else c / 10 ^ k) = (c / 10 ^ k : Nat) := by
  split
  · rename_i hshort
    rw [Nat.div_eq_of_lt (lt_of_digitCount_lt hshort), Nat.cast_zero]
  · push_cast
    rfl

/-- **A decimal is the integer that it is read as**, if it is one. -/
theorem Decimal.toInt?_eq_some_iff {x : Decimal} :
    x.isIntegral = true ∧ x.toInt? = some i ↔ x.number? = some (i : Rat) := by
  cases x with
  | infinite s => simp [isIntegral, number?]
  | nan s q p => simp [isIntegral, number?]
  | finite s c e =>
    rw [number?_finite, Option.some.injEq, isIntegral, toInt?]
    by_cases he : 0 ≤ e
    · obtain ⟨k, rfl⟩ := Int.eq_ofNat_of_zero_le he
      have hwhole : (c : Rat) * 10 ^ (k : Int) = ((c * 10 ^ k : Nat) : Rat) := by
        rw [zpow_natCast]
        push_cast
        rfl
      rw [hwhole, withSign_eq_intCast_iff]
      simp
    · obtain ⟨k, rfl⟩ : ∃ k : Nat, e = -k := ⟨(-e).toNat, by omega⟩
      simp only [decide_eq_false he, Bool.false_or, if_neg he, neg_neg, Int.toNat_natCast]
      rw [decide_dvd_ten_pow, quotient_ten_pow, decide_eq_true_eq, Option.some.injEq]
      constructor
      · rintro ⟨hdvd, hi⟩
        rw [withSign_of_dvd hdvd, withSign_eq_intCast_iff]
        exact hi
      · intro h
        have hdvd := dvd_of_withSign_eq_intCast h
        rw [withSign_of_dvd hdvd, withSign_eq_intCast_iff] at h
        exact ⟨hdvd, h⟩

/-- **What is kept as an integer is the number of the decimal**, if that is not too large. -/
theorem exactInteger?_eq_some_iff {x : Decimal} :
    Modes.exactInteger? x = some i ↔ x.adjusted ≤ Limit.integerExponent ∧ x.number? = some (i : Rat) := by
  rw [Modes.exactInteger?, Option.ite_none_right_eq_some, Bool.and_eq_true, Bool.and_eq_true, decide_eq_true_eq,
    and_assoc, and_assoc, Decimal.toInt?_eq_some_iff]
  constructor
  · rintro ⟨-, hlead, hnumber⟩
    exact ⟨hlead, hnumber⟩
  · rintro ⟨hlead, hnumber⟩
    exact ⟨Decimal.isFinite_of_number? hnumber, hlead, hnumber⟩

end

/-! ## Digits -/

/-- The nearest integer, where a half goes away from zero. -/
def halfAway (r : Rat) : Int := if r < 0 then -⌊-r + 1 / 2⌋ else ⌊r + 1 / 2⌋

theorem halfAway_withSign (s : Bool) {r : Rat} (hr : 0 ≤ r) :
    halfAway (withSign s r) = if s then -⌊r + 1 / 2⌋ else ⌊r + 1 / 2⌋ := by
  cases s with
  | false => exact if_neg (not_lt.mpr hr)
  | true =>
    show halfAway (-r) = -⌊r + 1 / 2⌋
    unfold halfAway
    rw [neg_neg]
    split
    · rfl
    · -- only zero is its own opposite, and a half of a unit is none
      obtain rfl : r = 0 := by linarith
      norm_num

/-- **The integer that a number of units is rounded to** in decimal arithmetic. -/
def RoundingPolicy.units (p : RoundingPolicy) (r : Rat) : Int :=
  match p with
  | .nearest => halfAway r
  | .up => ⌈r⌉
  | .down => ⌊r⌋
  | .towardZero => truncated r

namespace RoundingPolicy

variable {p : RoundingPolicy}

theorem units_of_ne (hp : p ≠ .nearest) (r : Rat) : p.units r = p.integer r := by
  cases p with
  | nearest => exact absurd rfl hp
  | up => rfl
  | down => rfl
  | towardZero => rfl

theorem units_intCast (p : RoundingPolicy) (n : Int) : p.units n = n := by
  by_cases hp : p = .nearest
  · subst hp
    have hhalf : ⌊(1 : Rat) / 2⌋ = 0 := by norm_num
    show halfAway n = n
    unfold halfAway
    split
    · rw [← Int.cast_neg, Int.floor_intCast_add, hhalf, add_zero, neg_neg]
    · rw [Int.floor_intCast_add, hhalf, add_zero]
  · rw [units_of_ne hp, integer_intCast]

/-- **Digits are cut off as the policy rounds units.** -/
theorem withSign_shift_units (p : RoundingPolicy) (s : Bool) (c k : Nat) :
    withSign s ((p.decimal.shift s c k : Nat) : Rat) = (p.units (withSign s (c / 10 ^ k)) : Int) := by
  by_cases hp : p = .nearest
  · subst hp
    have hquotient : (0 : Rat) ≤ c / 10 ^ k := by positivity
    rw [Binary.withSign_natCast, Int.cast_inj]
    show (if s then -((Rounding.halfUp.shift s c k : Nat) : Int) else (Rounding.halfUp.shift s c k : Nat)) =
      halfAway (withSign s ((c : Rat) / 10 ^ k))
    rw [Rounding.shift_halfUp, halfAway_withSign s hquotient]
  · rw [units_of_ne hp, withSign_shift hp]

end RoundingPolicy

/-- The number has no more than so many significant digits. -/
def Short (digits : Nat) (q : Rat) : Prop := ∃ n k : Int, n.natAbs < 10 ^ digits ∧ q = n * 10 ^ k

namespace Modes

variable {m : Modes} {q : Rat} {lead : Int}

/-- The unit of the last digit that is kept of a number with the leading digit at the exponent. -/
def unit (m : Modes) (lead : Int) : Rat := 10 ^ (lead - m.precision + 1)

/-- **The number rounded to the digits that are kept.** -/
def rounded (m : Modes) (q : Rat) (lead : Int) : Rat := m.rounding.units (q / m.unit lead) * m.unit lead

theorem unit_pos (m : Modes) (lead : Int) : 0 < m.unit lead := Decimal.ten_zpow_pos _

/-- Whole units are left as they are. -/
theorem rounded_of_units {n : Int} (h : q = n * m.unit lead) : m.rounded q lead = q := by
  rw [rounded, h, mul_div_cancel_right₀ _ (m.unit_pos lead).ne', RoundingPolicy.units_intCast]

/-- **A number that has no more digits than are kept is left as it is.** -/
theorem rounded_of_short (hlead : q ≠ 0 → 10 ^ lead ≤ |q|) (h : Short m.precision q) : m.rounded q lead = q := by
  obtain ⟨n, k, hdigits, rfl⟩ := h
  by_cases hzero : (n : Rat) * 10 ^ k = 0
  · rw [hzero]
    exact rounded_of_units (n := 0) (by rw [Int.cast_zero, zero_mul])
  -- the last digit of the number stands no farther behind the point than the last one kept
  have hless : |(n : Rat) * 10 ^ k| < 10 ^ ((m.precision : Int) + k) := by
    have hcount : |(n : Rat)| < 10 ^ m.precision := by
      rw [← Int.cast_abs, Int.abs_eq_natAbs, Int.cast_natCast]
      exact_mod_cast hdigits
    have hpos := Decimal.ten_zpow_pos k
    rw [abs_mul, abs_of_pos hpos, zpow_add₀ (by norm_num), zpow_natCast]
    exact mul_lt_mul_of_pos_right hcount hpos
  have hexponent := (zpow_lt_zpow_iff_right₀ (by norm_num)).mp ((hlead hzero).trans_lt hless)
  obtain ⟨j, rfl⟩ : ∃ j : Nat, k = lead - m.precision + 1 + j := ⟨(k - (lead - m.precision + 1)).toNat, by omega⟩
  refine rounded_of_units (n := n * 10 ^ j) ?_
  rw [unit, zpow_add₀ (by norm_num) _ (j : Int), zpow_natCast]
  push_cast
  ring

end Modes

namespace Context

variable {m : Modes} {s : Bool} {c : Nat} {e : Int}

/-- The leading digit is no zero. -/
theorem ten_zpow_le_abs (h : withSign s (c * 10 ^ e) ≠ 0) :
    10 ^ (e + digitCount c - 1) ≤ |withSign s (c * 10 ^ e)| := by
  have hc : c ≠ 0 := by
    rintro rfl
    rw [Nat.cast_zero, zero_mul, Binary.withSign_zero] at h
    exact h rfl
  rw [Binary.abs_withSign, abs_of_nonneg (by positivity)]
  exact Format.ten_zpow_le hc

/-- A coefficient of no more digits than are kept is short. -/
theorem short_of_digitCount (hprecision : 0 < m.precision) (s : Bool) (e : Int) (h : digitCount c ≤ m.precision) :
    Short m.precision (withSign s (c * 10 ^ e)) := by
  refine ⟨if s then -(c : Int) else c, e, ?_, ?_⟩
  · have hless := (digitCount_le_iff hprecision).mp h
    cases s <;> simpa using hless
  · cases s <;> simp [withSign]

/-- **What a context leaves of a number** that is not too small is the number rounded to the digits that are kept. -/
theorem withSign_finished (hprecision : 0 < m.precision) (hlead : minExponent ≤ e + digitCount c - 1) :
    withSign s (m.context.finished s c e) = m.rounded (withSign s (c * 10 ^ e)) (e + digitCount c - 1) := by
  have hsurplus := m.context.surplus_of_le hlead
  by_cases hshort : digitCount c ≤ m.precision
  · have hnone : m.context.surplus c e = 0 := by
      rw [hsurplus]
      exact Nat.sub_eq_zero_of_le hshort
    rw [finished_of_surplus hnone,
      Modes.rounded_of_short ten_zpow_le_abs (short_of_digitCount hprecision s e hshort)]
  · obtain ⟨k, hk⟩ : ∃ k : Nat, digitCount c = m.precision + k := ⟨digitCount c - m.precision, by omega⟩
    have hdrop : m.context.surplus c e = k := by
      rw [hsurplus, hk]
      exact Nat.add_sub_cancel_left _ _
    have hunit : m.unit (e + digitCount c - 1) = 10 ^ (e + k : Int) := by
      rw [Modes.unit, hk]
      congr 1
      push_cast
      ring
    have hquotient : withSign s (c * 10 ^ e) / 10 ^ (e + k : Int) = withSign s (c / 10 ^ k) := by
      rw [withSign_mul, div_eq_mul_inv (c : Rat), withSign_mul, zpow_add₀ (by norm_num), zpow_natCast]
      field_simp
    rw [finished, hdrop, withSign_mul, Modes.rounded, hunit, hquotient]
    exact congrArg (· * _) (m.rounding.withSign_shift_units s c k)

/-- A number with the leading digit at the greatest exponent is below the next power of ten. -/
theorem lt_ten_zpow_maxExponent (hc : c ≠ 0) (h : e + digitCount c - 1 ≤ maxExponent) :
    (c : Rat) * 10 ^ e < 10 ^ (maxExponent + 1) :=
  (Decimal.lt_ten_zpow_iff hc).mpr (by omega)

/-- **A number that is brought into a context is rounded**, unless it is beyond the greatest exponent then. -/
theorem plus_rounded (hprecision : 0 < m.precision)
    (range : c = 0 ∨ minExponent ≤ e + digitCount c - 1 ∧ e + digitCount c - 1 ≤ maxExponent) {r : Rat}
    (hr : r = m.rounded (withSign s (c * 10 ^ e)) (e + digitCount c - 1)) :
    (|r| < 10 ^ (maxExponent + 1) ∧ ∃ y, m.context.plus (.finite s c e) = .ok y ∧ y.number? = some r) ∨
      (¬ |r| < 10 ^ (maxExponent + 1) ∧ m.context.plus (.finite s c e) = .error .decimalOverflow) := by
  by_cases hc : c = 0
  · subst hc
    have hzero : r = 0 := by
      rw [hr, Nat.cast_zero, zero_mul, Binary.withSign_zero]
      exact Modes.rounded_of_units (n := 0) (by rw [Int.cast_zero, zero_mul])
    rw [hzero, abs_zero, plus, finish, if_pos rfl]
    exact Or.inl ⟨Decimal.ten_zpow_pos _, _, rfl, Decimal.number?_zero _ _⟩
  obtain ⟨hleast, hgreatest⟩ := range.resolve_left hc
  have hexact := lt_ten_zpow_maxExponent hc hgreatest
  have hsame : m.context.plus (.finite s c e) = m.context.finish s c e := by
    rw [plus, decide_eq_true hc, Bool.true_or, Bool.and_true]
  have hleft : r = withSign s (m.context.finished s c e) := hr.trans (withSign_finished hprecision hleast).symm
  have hmagnitude : |r| = m.context.finished s c e := by
    rw [hleft, Binary.abs_withSign, finished]
    exact abs_of_nonneg (mul_nonneg (Nat.cast_nonneg _) (Decimal.ten_zpow_pos _).le)
  rw [hsame, hmagnitude, hleft]
  by_cases hless : m.context.finished s c e < 10 ^ (maxExponent + 1)
  · exact Or.inl ⟨hless, m.context.exists_finish hprecision hexact hless⟩
  · exact Or.inr ⟨hless, m.context.finish_eq_error_of_left hprecision hexact (not_lt.mp hless)⟩

end Context

/-! ## Regimes -/

namespace Modes

variable {m : Modes} {text : String}

/-- A text that is read as a double is no integer. -/
theorem literalDouble_ne_integer (text : String) (i : Int) : literalDouble text ≠ .ok (.integer i) := by
  unfold literalDouble
  split
  · intro h
    obtain ⟨x, -, hx⟩ := bind_eq_ok.mp h
    cases hx
  · intro h
    cases h

/-- In the exact regime a text is an integer exactly if it is read as a decimal that is kept as one. -/
theorem literal_integer_iff (hm : m.regime = .exact) {i : Int} :
    m.literal text = .ok (.integer i) ↔ ∃ x, Decimal.read text = .ok x ∧ exactInteger? x = some i := by
  simp only [literal, hm, bind_eq_ok, ofFault, mapError_eq_ok]
  refine exists_congr fun x => and_congr_right fun _ => ?_
  cases exactInteger? x with
  | some n => simp only [pure_eq_ok, Except.ok.injEq, Value.integer.injEq, Option.some.injEq]
  | none => simp only [literalDouble_ne_integer, reduceCtorEq]

/-- In the decimal regime a text is read as a decimal, and that is brought into the context. -/
theorem literal_decimal_iff (hm : m.regime = .decimal) {v : Value} :
    m.literal text = .ok v ↔
      ∃ x y, Decimal.read text = .ok x ∧ m.context.plus x = .ok y ∧ v = .decimal y m.context := by
  simp only [literal, hm, bind_eq_ok, ofFault, mapError_eq_ok, pure_eq_ok, Except.ok.injEq, exists_and_left]
  simp only [eq_comm]

/-- The exponents of a number that can be kept as an integer can be read. -/
theorem readable_of_least {c : Nat} {e : Int} (hleast : -1999999999999999997 ≤ e)
    (hlead : e + digitCount c - 1 ≤ Limit.integerExponent) : Decimal.readable c e = true := by
  rw [Limit.integerExponent] at hlead
  refine Bool.and_eq_true_iff.mpr ⟨decide_eq_true hleast, decide_eq_true ?_⟩
  omega

section

variable {s : Bool} {c : Nat} {e : Int}

theorem read_written_iff (hwritten : Decimal.Written text.toList (.finite s c e)) {x : Decimal} :
    Decimal.read text = .ok x ↔ Decimal.readable c e = true ∧ x = .finite s c e := by
  rw [← String.ofList_toList (s := text)]
  exact hwritten.read_eq_ok_iff

/-- **In the exact regime a numeral is an integer exactly if it denotes one.** -/
theorem literal_written_exact (hm : m.regime = .exact) (hwritten : Decimal.Written text.toList (.finite s c e))
    (hlead : e + digitCount c - 1 ≤ Limit.integerExponent) {i : Int} :
    m.literal text = .ok (.integer i) ↔ Decimal.readable c e = true ∧ withSign s (c * 10 ^ e) = i := by
  rw [literal_integer_iff hm]
  constructor
  · rintro ⟨x, hx, hexact⟩
    obtain ⟨hreadable, rfl⟩ := (read_written_iff hwritten).mp hx
    exact ⟨hreadable, Option.some.inj (exactInteger?_eq_some_iff.mp hexact).2⟩
  · rintro ⟨hreadable, hi⟩
    exact ⟨_, (read_written_iff hwritten).mpr ⟨hreadable, rfl⟩,
      exactInteger?_eq_some_iff.mpr ⟨hlead, congrArg some hi⟩⟩

/-- **In the decimal regime a numeral is what it denotes, rounded to the digits that are kept.** -/
theorem literal_written_decimal (hm : m.regime = .decimal) (hprecision : 0 < m.precision)
    (hwritten : Decimal.Written text.toList (.finite s c e))
    (range : c = 0 ∨ minExponent ≤ e + digitCount c - 1 ∧ e + digitCount c - 1 ≤ maxExponent) {r : Rat}
    (hr : r = m.rounded (withSign s (c * 10 ^ e)) (e + digitCount c - 1)) :
    (∀ x, m.literal text = .ok x → ∃ d, x = .decimal d m.context ∧ d.number? = some r) ∧
      ((∃ x, m.literal text = .ok x) ↔ Decimal.readable c e = true ∧ |r| < 10 ^ (maxExponent + 1)) := by
  have hvalue : ∀ {x}, m.literal text = .ok x ↔ Decimal.readable c e = true ∧
      ∃ d, m.context.plus (.finite s c e) = .ok d ∧ x = .decimal d m.context := by
    intro x
    rw [literal_decimal_iff hm]
    constructor
    · rintro ⟨y, d, hy, hd, rfl⟩
      obtain ⟨hreadable, rfl⟩ := (read_written_iff hwritten).mp hy
      exact ⟨hreadable, d, hd, rfl⟩
    · rintro ⟨hreadable, d, hd, rfl⟩
      exact ⟨_, d, (read_written_iff hwritten).mpr ⟨hreadable, rfl⟩, hd, rfl⟩
  rcases Context.plus_rounded (s := s) hprecision range hr with ⟨hless, y, hy, hnumber⟩ | ⟨hmore, hy⟩
  · constructor
    · intro x hx
      obtain ⟨-, d, hd, rfl⟩ := hvalue.mp hx
      rw [hy, Except.ok.injEq] at hd
      exact ⟨d, rfl, hd ▸ hnumber⟩
    · constructor
      · rintro ⟨x, hx⟩
        exact ⟨(hvalue.mp hx).1, hless⟩
      · rintro ⟨hreadable, _⟩
        exact ⟨_, hvalue.mpr ⟨hreadable, y, hy, rfl⟩⟩
  · have hnone : ∀ x, m.literal text ≠ .ok x := by
      intro x hx
      obtain ⟨-, d, hd, -⟩ := hvalue.mp hx
      rw [hy] at hd
      cases hd
    exact ⟨fun x hx => absurd hx (hnone x), iff_of_false (fun ⟨x, hx⟩ => hnone x hx) fun h => hmore h.2⟩

end

end Modes

/-! ## Numbers of a text -/

namespace Token

/-- **A number of a text is a written decimal.** -/
theorem exists_written_of_tokenize {v : Vocabulary} {complex : Bool} {limit : Int} {text : String} {ts : List Token}
    (lexed : tokenize v complex limit text = .ok ts) {t : Token} (ht : t ∈ ts) (hkind : t.kind = .number) :
    ∃ s c e, Decimal.Written t.value.toList (.finite s c e) := by
  have hbody : t.isFinish = false := by
    rw [isFinish, hkind]
    rfl
  obtain ⟨due, place, c, rest, cs, hlexeme, hvalue⟩ := exists_lexeme_of_tokenize lexed t ht hbody
  rw [hkind] at hlexeme
  obtain ⟨sign, ds, hsign, -, hread⟩ := exists_readNumber_of_lexeme hlexeme
  obtain ⟨-, rfl, n, k, hnumeral⟩ := readNumber_eq_ok_iff.mp hread
  rw [hvalue, String.toList_ofList]
  have hwritten : ∀ s, Decimal.Written (Decimal.signed s (numberPart ds)) (.finite s n k) := fun s => .intro hnumeral
  rcases hsign with rfl | rfl
  · exact ⟨false, n, k, hwritten false⟩
  · exact ⟨true, n, k, hwritten true⟩

end Token

/-- **A number of a text is typed as what it denotes.**  In the exact regime it is an integer exactly if it denotes
    one, where the leading digit is not too far in front of the point, and the last one no farther behind it than
    decimals have digits.  In the decimal regime it is what it denotes, rounded as the policy says to the digits that
    are kept, wherever there is a decimal; that is what it denotes itself if it has no more digits. -/
theorem number_typed_as_denoted {v : Vocabulary} {complex : Bool} {limit : Int} {text : String} {ts : List Token}
    (lexed : Token.tokenize v complex limit text = .ok ts) {t : Token} (ht : t ∈ ts) (number : t.kind = .number) :
    ∃ (s : Bool) (c : Nat) (e : Int), Decimal.Written t.value.toList (.finite s c e) ∧
      let q := withSign s (c * 10 ^ e)
      let lead := e + digitCount c - 1
      ∀ m : Modes,
        (m.regime = .exact → lead ≤ Limit.integerExponent →
          (∀ i : Int, m.literal t.value = .ok (.integer i) → q = i) ∧
          (-1999999999999999997 ≤ e → ∀ i : Int, q = i → m.literal t.value = .ok (.integer i))) ∧
        (m.regime = .decimal → 0 < m.precision → c = 0 ∨ minExponent ≤ lead ∧ lead ≤ maxExponent →
          (∀ x, m.literal t.value = .ok x → ∃ d, x = .decimal d m.context ∧ d.number? = some (m.rounded q lead)) ∧
          ((∃ x, m.literal t.value = .ok x) ↔
            Decimal.readable c e = true ∧ |m.rounded q lead| < 10 ^ (maxExponent + 1)) ∧
          (Short m.precision q → m.rounded q lead = q)) := by
  obtain ⟨s, c, e, hwritten⟩ := Token.exists_written_of_tokenize lexed ht number
  refine ⟨s, c, e, hwritten, ?_⟩
  intro q lead m
  constructor
  · intro hm hlead
    constructor
    · intro i hi
      exact ((Modes.literal_written_exact hm hwritten hlead).mp hi).2
    · intro hleast i hi
      exact (Modes.literal_written_exact hm hwritten hlead).mpr ⟨Modes.readable_of_least hleast hlead, hi⟩
  · intro hm hprecision range
    obtain ⟨hvalue, hsuccess⟩ := Modes.literal_written_decimal hm hprecision hwritten range rfl
    exact ⟨hvalue, hsuccess, Modes.rounded_of_short Context.ten_zpow_le_abs⟩

/-- In `1.50e1*-1.25e1` the first number is an integer in the exact regime, and the second one is rounded to two digits
    in the decimal regime, with the half away from zero. -/
theorem number_typed_as_denoted_product :
    let ts : List Token := [⟨.number, "1.50e1", 0, none⟩, ⟨.operator, "*", 6, none⟩, ⟨.number, "-1.25e1", 7, none⟩,
      ⟨.finish, "", 14, none⟩]
    let exact : Modes := { Modes.initial with regime := .exact }
    let short : Modes := { Modes.initial with regime := .decimal, precision := 2 }
    Token.tokenize ⟨.calculator, none⟩ false 100 "1.50e1*-1.25e1" = .ok ts ∧
      exact.literal "1.50e1" = .ok (.integer 15) ∧
      ∃ d, short.literal "-1.25e1" = .ok (.decimal d short.context) ∧ d.number? = some (-13) := by
  intro ts exact short
  have lexed : Token.tokenize ⟨.calculator, none⟩ false 100 "1.50e1*-1.25e1" = .ok ts := by rfl
  refine ⟨lexed, ?_, ?_⟩
  · obtain ⟨s, c, e, hwritten, htyped⟩ :=
      number_typed_as_denoted lexed (t := ⟨.number, "1.50e1", 0, none⟩) List.mem_cons_self rfl
    have hread : Decimal.read "1.50e1" = .ok (.finite false 150 (-1)) := by decide
    obtain ⟨-, hsame⟩ := (Modes.read_written_iff hwritten).mp hread
    cases hsame
    refine ((htyped exact).1 rfl (by decide)).2 (by decide) 15 ?_
    norm_num [withSign]
  · obtain ⟨s, c, e, hwritten, htyped⟩ :=
      number_typed_as_denoted lexed (t := ⟨.number, "-1.25e1", 7, none⟩) (by decide) rfl
    have hread : Decimal.read "-1.25e1" = .ok (.finite true 125 (-1)) := by decide
    obtain ⟨-, hsame⟩ := (Modes.read_written_iff hwritten).mp hread
    cases hsame
    have hrounded : short.rounded (withSign true ((125 : Nat) * 10 ^ (-1 : Int))) ((-1) + digitCount 125 - 1) = -13 := by
      have hunit : short.unit ((-1) + digitCount 125 - 1) = 1 := by
        show (10 : Rat) ^ (0 : Int) = 1
        exact zpow_zero _
      have hhalf : halfAway (-(25 / 2)) = -13 := by norm_num [halfAway]
      rw [Modes.rounded, hunit, div_one, mul_one]
      show ((halfAway (withSign true ((125 : Nat) * 10 ^ (-1 : Int))) : Int) : Rat) = -13
      rw [show withSign true (((125 : Nat) : Rat) * 10 ^ (-1 : Int)) = -(25 / 2) by norm_num [withSign], hhalf]
      norm_num
    obtain ⟨hvalue, hsuccess, -⟩ := (htyped short).2 rfl (by decide) (Or.inr (by decide))
    dsimp only at hvalue hsuccess
    rw [hrounded] at hvalue hsuccess
    have hless : |(-13 : Rat)| < 10 ^ (maxExponent + 1) := by
      calc |(-13 : Rat)| < 10 ^ (2 : Int) := by norm_num
        _ ≤ 10 ^ (maxExponent + 1) := zpow_le_zpow_right₀ (by norm_num) (by decide)
    obtain ⟨x, hx⟩ := hsuccess.mpr ⟨by decide, hless⟩
    obtain ⟨d, rfl, hd⟩ := hvalue x hx
    exact ⟨d, hx, hd⟩

/-- A zero with a digit farther behind the point than any decimal has one is not read, so that it is no integer in the
    exact regime. -/
theorem zero_below_least_exponent :
    let text := "0e-1999999999999999998"
    let exact : Modes := { Modes.initial with regime := .exact }
    Token.tokenize ⟨.calculator, none⟩ false 100 text =
        .ok [⟨.number, text, 0, none⟩, ⟨.finish, "", 22, none⟩] ∧
      Decimal.Written text.toList (.finite false 0 (-1999999999999999998)) ∧
      withSign false ((0 : Nat) * 10 ^ (-1999999999999999998 : Int)) = (0 : Int) ∧
      (-1999999999999999998 : Int) + digitCount 0 - 1 ≤ Limit.integerExponent ∧
      exact.literal text ≠ .ok (.integer 0) := by
  intro text exact
  have hnumeral : Text.Numeral text.toList 0 (-1999999999999999998) := Text.readUnsigned?_eq_some_iff.mp (by decide)
  have hwritten : Decimal.Written (Decimal.signed false text.toList) (.finite false 0 (-1999999999999999998)) :=
    .intro hnumeral
  have hlead : (-1999999999999999998 : Int) + digitCount 0 - 1 ≤ Limit.integerExponent := by decide
  refine ⟨by decide, hwritten, ?_, hlead, ?_⟩
  · rw [Nat.cast_zero, zero_mul, Binary.withSign_zero, Int.cast_zero]
  · intro h
    obtain ⟨hreadable, -⟩ := (Modes.literal_written_exact rfl hwritten hlead).mp h
    exact absurd hreadable (by decide)

end SciCalc
