/-
  The order of binary numbers.

  1. **Places** (`place?`) — a finite number has its number as its place in the order, an infinite one stands at an
     end, and an undefined one has no place.

  2. **Magnitudes** (`compareMagnitude_eq_cmp`) — of two mantissas with exponents the longer one is the greater, and
     those of one length are compared at one exponent.

  3. **Numbers** (`compare?_eq_cmp`) — two numbers are compared as their places are.
-/
import Mathlib.Algebra.Order.Ring.Rat
import Mathlib.Order.WithBot
import SciCalc.Proofs.Binary.Number

namespace SciCalc

/-- The rational numbers between two ends. -/
abbrev Place := WithBot (WithTop Rat)

namespace Place

/-- The place of a rational number. -/
def ofRat (r : Rat) : Place := ((r : WithTop Rat) : Place)

/-- The place of an infinity. -/
def ofInfinite (negative : Bool) : Place := if negative then ⊥ else ⊤

/-- Rational numbers are in order. -/
theorem cmp_ofRat (r q : Rat) : cmp (ofRat r) (ofRat q) = cmp r q :=
  StrictMono.cmp_map_eq (fun _ _ h => WithBot.coe_lt_coe.mpr (WithTop.coe_lt_coe.mpr h)) r q

/-- An infinity stands on the side of its sign. -/
theorem cmp_ofInfinite_ofRat (negative : Bool) (r : Rat) :
    cmp (ofInfinite negative) (ofRat r) = if negative then .lt else .gt := by
  cases negative with
  | true => exact (cmp_eq_lt_iff _ _).mpr (WithBot.bot_lt_coe _)
  | false => exact (cmp_eq_gt_iff _ _).mpr (WithBot.coe_lt_coe.mpr (WithTop.coe_lt_top r))

theorem cmp_ofRat_ofInfinite (negative : Bool) (r : Rat) :
    cmp (ofRat r) (ofInfinite negative) = if negative then .gt else .lt := by
  rw [← cmp_swap, cmp_ofInfinite_ofRat]
  cases negative <;> rfl

theorem cmp_ofInfinite (negative other : Bool) :
    cmp (ofInfinite negative) (ofInfinite other)
      = if negative = other then .eq else if negative then .lt else .gt := by
  cases negative <;> cases other <;> decide

end Place

namespace Binary

/-! ## Comparing magnitudes -/

/-- A number below a power is less than one that reaches a higher power. -/
theorem lt_of_powers {base a b : Rat} {i j : Int} (hbase : 1 < base) (ha : a < base ^ i) (hb : base ^ (j - 1) ≤ b)
    (h : i < j) : a < b :=
  calc a < base ^ i := ha
    _ ≤ base ^ (j - 1) := zpow_le_zpow_right₀ hbase.le (by omega)
    _ ≤ b := hb

/-- A magnitude is less than zero exactly if it has a sign and is no zero. -/
theorem withSign_of_signed {s : Bool} {a : Rat} (h : s = true ∧ a ≠ 0) : withSign s a = -a := if_pos h.1

theorem withSign_of_unsigned {s : Bool} {a : Rat} (h : ¬ (s = true ∧ a ≠ 0)) : withSign s a = a := by
  cases s with
  | false => rfl
  | true =>
    obtain rfl : a = 0 := by_contra fun ha => h ⟨rfl, ha⟩
    exact withSign_zero true

/-- **The order of two magnitudes with signs**; that of a zero does not count. -/
theorem eq_cmp_withSign {a b : Rat} (ha : 0 ≤ a) (hb : 0 ≤ b) {s t : Bool} {o : Ordering}
    (unsigned : ¬ (s = true ∧ a ≠ 0) → ¬ (t = true ∧ b ≠ 0) → o = cmp a b)
    (signed : s = true ∧ a ≠ 0 → t = true ∧ b ≠ 0 → o = cmp b a)
    (below : s = true ∧ a ≠ 0 → ¬ (t = true ∧ b ≠ 0) → o = .lt)
    (above : ¬ (s = true ∧ a ≠ 0) → t = true ∧ b ≠ 0 → o = .gt) :
    o = cmp (withSign s a) (withSign t b) := by
  have neg_lt : ∀ {x y : Rat}, 0 ≤ x → x ≠ 0 → 0 ≤ y → -x < y := fun hx hne hy =>
    (neg_lt_zero.mpr (lt_of_le_of_ne hx hne.symm)).trans_le hy
  by_cases hs : s = true ∧ a ≠ 0
  · rw [withSign_of_signed hs]
    by_cases ht : t = true ∧ b ≠ 0
    · rw [withSign_of_signed ht, signed hs ht]
      exact (StrictAnti.cmp_map_eq (fun _ _ => neg_lt_neg) a b).symm
    · rw [withSign_of_unsigned ht, below hs ht]
      exact ((cmp_eq_lt_iff _ _).mpr (neg_lt ha hs.2 hb)).symm
  · rw [withSign_of_unsigned hs]
    by_cases ht : t = true ∧ b ≠ 0
    · rw [withSign_of_signed ht, above hs ht]
      exact ((cmp_eq_gt_iff _ _).mpr (neg_lt hb ht.2 ha)).symm
    · rw [withSign_of_unsigned ht]
      exact unsigned hs ht

/-- Natural numbers are compared as rational ones are, also with a factor. -/
theorem compare_natCast (m n : Nat) {r : Rat} (hr : 0 < r) : compare m n = cmp ((m : Rat) * r) (n * r) :=
  calc compare m n = cmp m n := (cmp_eq_compare m n).symm
    _ = cmp (m : Rat) (n : Rat) := (StrictMono.cmp_map_eq Nat.strictMono_cast m n).symm
    _ = cmp ((m : Rat) * r) (n * r) :=
        (StrictMono.cmp_map_eq (fun _ _ h => mul_lt_mul_of_pos_right h hr) (m : Rat) n).symm

/-- A zero is compared in the same way with any factor. -/
theorem compare_natCast_of_zero {m n : Nat} (h : m = 0 ∨ n = 0) {r q : Rat} (hr : 0 < r) (hq : 0 < q) :
    compare m n = cmp ((m : Rat) * r) (n * q) := by
  rcases h with rfl | rfl
  · rw [compare_natCast 0 n hq, Nat.cast_zero, zero_mul, zero_mul]
  · rw [compare_natCast m 0 hr, Nat.cast_zero, zero_mul, zero_mul]

/-- Whether a sign counts can be told from the coefficient. -/
theorem and_decide_eq (s : Bool) (m : Nat) {r : Rat} (hr : 0 < r) :
    (s && decide (m ≠ 0)) = decide (s = true ∧ (m : Rat) * r ≠ 0) := by
  rw [Bool.eq_iff_iff, Bool.and_eq_true, decide_eq_true_eq, decide_eq_true_eq, mul_ne_zero_iff, Nat.cast_ne_zero,
    and_iff_left hr.ne']

/-- The length of a mantissa tells how large the number is. -/
theorem two_zpow_le {m : Nat} (hm : m ≠ 0) (e : Int) : (2 : Rat) ^ ((width m : Int) + e - 1) ≤ m * 2 ^ e := by
  have hwidth := width_pos hm
  have hlower : ((2 ^ (width m - 1) : Nat) : Rat) ≤ m := Nat.cast_le.mpr (two_pow_le (by omega))
  have hsplit : (width m : Int) + e - 1 = ((width m - 1 : Nat) : Int) + e := by omega
  rw [hsplit, zpow_add₀ two_ne_zero, two_zpow_natCast]
  exact mul_le_mul_of_nonneg_right hlower (two_zpow_pos e).le

theorem lt_two_zpow (m : Nat) (e : Int) : (m : Rat) * 2 ^ e < 2 ^ ((width m : Int) + e) := by
  have hupper : (m : Rat) < ((2 ^ width m : Nat) : Rat) := Nat.cast_lt.mpr (lt_two_pow_width m)
  rw [zpow_add₀ two_ne_zero, two_zpow_natCast]
  exact mul_lt_mul_of_pos_right hupper (two_zpow_pos e)

/-- A mantissa at a lower exponent. -/
theorem shiftLeft_mul_two_zpow {n : Nat} {d e : Int} (h : e ≤ d) :
    ((n <<< (d - e).toNat : Nat) : Rat) * 2 ^ e = n * 2 ^ d := by
  obtain ⟨k, rfl⟩ : ∃ k : Nat, d = e + k := ⟨(d - e).toNat, by omega⟩
  rw [show (e + k - e).toNat = k by omega, Nat.shiftLeft_eq, Nat.cast_mul, ← two_zpow_natCast,
    zpow_add₀ two_ne_zero]
  ring

/-- **Magnitudes are compared as numbers.** -/
theorem compareMagnitude_eq_cmp (m : Nat) (e : Int) (n : Nat) (d : Int) :
    compareMagnitude m e n d = cmp ((m : Rat) * 2 ^ e) (n * 2 ^ d) := by
  by_cases hzero : (decide (m = 0) || decide (n = 0)) = true
  · rw [compareMagnitude, if_pos hzero]
    rw [Bool.or_eq_true, decide_eq_true_eq, decide_eq_true_eq] at hzero
    exact compare_natCast_of_zero hzero (two_zpow_pos e) (two_zpow_pos d)
  rw [compareMagnitude, if_neg hzero]
  rw [Bool.or_eq_true, decide_eq_true_eq, decide_eq_true_eq, not_or] at hzero
  obtain ⟨hm, hn⟩ := hzero
  by_cases hlt : (width m : Int) + e < width n + d
  · rw [if_pos hlt]
    exact ((cmp_eq_lt_iff _ _).mpr (lt_of_powers one_lt_two (lt_two_zpow m e) (two_zpow_le hn d) hlt)).symm
  by_cases hgt : (width n : Int) + d < width m + e
  · rw [if_neg hlt, if_pos hgt]
    exact ((cmp_eq_gt_iff _ _).mpr (lt_of_powers one_lt_two (lt_two_zpow n d) (two_zpow_le hm e) hgt)).symm
  rw [if_neg hlt, if_neg hgt]
  by_cases hle : e ≤ d
  · rw [if_pos hle, compare_natCast m _ (two_zpow_pos e), shiftLeft_mul_two_zpow hle]
  · rw [if_neg hle, compare_natCast _ n (two_zpow_pos d), shiftLeft_mul_two_zpow (by omega)]

/-! ## Comparing numbers -/

/-- Where the number stands among the others. -/
def place? : Binary → Option Place
  | finite s m e => some (.ofRat (withSign s (m * 2 ^ e)))
  | infinite s => some (.ofInfinite s)
  | nan => none

/-- The order of two finite numbers is that of the numbers. -/
theorem compareFinite_eq_cmp (s : Bool) (m : Nat) (e : Int) (t : Bool) (n : Nat) (d : Int) :
    compareFinite s m e t n d = cmp (withSign s ((m : Rat) * 2 ^ e)) (withSign t (n * 2 ^ d)) := by
  have hm : (0 : Rat) ≤ m * 2 ^ e := mul_nonneg m.cast_nonneg (two_zpow_pos e).le
  have hn : (0 : Rat) ≤ n * 2 ^ d := mul_nonneg n.cast_nonneg (two_zpow_pos d).le
  unfold compareFinite
  rw [and_decide_eq s m (two_zpow_pos e), and_decide_eq t n (two_zpow_pos d)]
  refine eq_cmp_withSign hm hn (fun hs ht => ?_) (fun hs ht => ?_) (fun hs ht => ?_) (fun hs ht => ?_)
  · rw [decide_eq_false hs, decide_eq_false ht]
    exact compareMagnitude_eq_cmp m e n d
  · rw [decide_eq_true hs, decide_eq_true ht]
    exact compareMagnitude_eq_cmp n d m e
  · rw [decide_eq_true hs, decide_eq_false ht]
  · rw [decide_eq_false hs, decide_eq_true ht]

/-- **Numbers are compared as their places are.** -/
theorem compare?_eq_cmp (x y : Binary) : x.compare? y = x.place?.bind fun p => y.place?.map (cmp p) := by
  cases x with
  | nan => rfl
  | infinite s =>
    cases y with
    | nan => rfl
    | infinite t => exact congrArg some (Place.cmp_ofInfinite s t).symm
    | finite t n d => exact congrArg some (Place.cmp_ofInfinite_ofRat s _).symm
  | finite s m e =>
    cases y with
    | nan => rfl
    | infinite t => exact congrArg some (Place.cmp_ofRat_ofInfinite t _).symm
    | finite t n d => exact congrArg some ((compareFinite_eq_cmp s m e t n d).trans (Place.cmp_ofRat _ _).symm)

end Binary

end SciCalc
