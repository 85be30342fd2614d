/-
  Decimal digits.

  1. **Counting** (`digitCount_le_iff`) — a number is split at its `2 ^ l`-th digit, so the count of its digits
     follows the levels of the split (`digitCountBelow_spec`); the level that is chosen is high enough
     (`lt_pow_digitLevel`).

  2. **Writing** (`length_digits`, `ofDigits_digits`) — the digits that are written follow the same levels: there
     are as many as are counted, and they are read back as the number.
-/
import SciCalc.Number.Digits
import SciCalc.Number.Fault

namespace SciCalc.Number

/-! ## Counting -/

/-- A number below `10 ^ 2 ^ level` has as many digits as it takes. -/
theorem digitCountBelow_spec (level : Nat) :
    ∀ {n : Nat}, n ≠ 0 → n < 10 ^ (2 ^ level : Nat) →
      0 < digitCountBelow level n ∧ 10 ^ (digitCountBelow level n - 1) ≤ n ∧
        n < 10 ^ digitCountBelow level n := by
  induction level with
  | zero =>
    intro n hn hlt
    exact ⟨Nat.one_pos, Nat.one_le_iff_ne_zero.mpr hn, hlt⟩
  | succ level ih =>
    intro n hn hlt
    have hpos : 0 < 10 ^ (2 ^ level : Nat) := Nat.pow_pos (by omega)
    rw [digitCountBelow]
    split
    · rename_i hsmall
      exact ih hn hsmall
    · rename_i hlarge
      have hle : 10 ^ (2 ^ level : Nat) ≤ n := Nat.not_lt.mp hlarge
      have hquotient : n / 10 ^ (2 ^ level : Nat) ≠ 0 := by
        have := (Nat.one_le_div_iff hpos).mpr hle
        omega
      have hbelow : n / 10 ^ (2 ^ level : Nat) < 10 ^ (2 ^ level : Nat) := by
        rw [Nat.div_lt_iff_lt_mul hpos, ← Nat.pow_add, ← Nat.two_mul, ← Nat.pow_succ']
        exact hlt
      obtain ⟨hcount, hlower, hupper⟩ := ih hquotient hbelow
      refine ⟨Nat.add_pos_left hcount _, ?_, ?_⟩
      · have hsplit : digitCountBelow level (n / 10 ^ (2 ^ level : Nat)) + 2 ^ level - 1 =
            digitCountBelow level (n / 10 ^ (2 ^ level : Nat)) - 1 + 2 ^ level :=
          Nat.sub_add_comm hcount
        rw [hsplit, Nat.pow_add]
        exact (Nat.le_div_iff_mul_le hpos).mp hlower
      · rw [Nat.pow_add]
        exact (Nat.div_lt_iff_lt_mul hpos).mp hupper

/-- The level is high enough for all digits. -/
theorem lt_pow_digitLevel (n : Nat) : n < 10 ^ (2 ^ digitLevel n : Nat) := by
  have hbits : n.log2 + 1 ≤ 2 ^ digitLevel n := Nat.le_of_lt Nat.lt_log2_self
  calc n < 2 ^ (n.log2 + 1) := Nat.lt_log2_self
    _ ≤ 2 ^ (2 ^ digitLevel n : Nat) := Nat.pow_le_pow_right Nat.two_pos hbits
    _ ≤ 10 ^ (2 ^ digitLevel n : Nat) := Nat.pow_le_pow_left (by omega) _

theorem digitCount_pos {n : Nat} (hn : n ≠ 0) : 0 < digitCount n :=
  (digitCountBelow_spec _ hn (lt_pow_digitLevel n)).1

/-- A zero is written with one digit. -/
theorem digitCount_zero : digitCount 0 = 1 := rfl

/-- **A number is at least the power of ten with as many digits** … -/
theorem pow_le_of_digitCount {n : Nat} (hn : n ≠ 0) : 10 ^ (digitCount n - 1) ≤ n :=
  (digitCountBelow_spec _ hn (lt_pow_digitLevel n)).2.1

/-- … **and below the next one.** -/
theorem lt_pow_digitCount {n : Nat} (hn : n ≠ 0) : n < 10 ^ digitCount n :=
  (digitCountBelow_spec _ hn (lt_pow_digitLevel n)).2.2

/-- **A number has at most so many digits exactly if it is below the power of ten with as many zeros.** -/
theorem digitCount_le_iff {n k : Nat} (hk : 0 < k) : digitCount n ≤ k ↔ n < 10 ^ k := by
  by_cases hn : n = 0
  · subst hn
    exact iff_of_true hk (Nat.pow_pos (by omega))
  constructor
  · intro h
    exact Nat.lt_of_lt_of_le (lt_pow_digitCount hn) (Nat.pow_le_pow_right (by omega) h)
  · intro h
    have hpow : 10 ^ (digitCount n - 1) < 10 ^ k := Nat.lt_of_le_of_lt (pow_le_of_digitCount hn) h
    have := (Nat.pow_lt_pow_iff_right (by omega)).mp hpow
    omega

/-- A message can tell the integers that are not too far from zero. -/
theorem isTellable_iff {n : Int} : isTellable n = true ↔ n.natAbs < 10 ^ Limit.numeralDigits := by
  rw [isTellable, decide_eq_true_iff]
  exact digitCount_le_iff (by decide)

/-- With a number it can tell the smaller ones. -/
theorem isTellable_of_le {m n : Nat} (h : m ≤ n) (hn : isTellable n = true) : isTellable m = true :=
  isTellable_iff.mpr (Nat.lt_of_le_of_lt h (isTellable_iff.mp hn))

/-- A factor that is a power of ten adds as many digits as it has zeros. -/
theorem digitCount_mul_pow {n : Nat} (hn : n ≠ 0) (k : Nat) : digitCount (n * 10 ^ k) = digitCount n + k := by
  have hpos := digitCount_pos hn
  have hpow : 0 < 10 ^ k := Nat.pow_pos (by omega)
  have hzero : n * 10 ^ k ≠ 0 := Nat.mul_ne_zero hn (Nat.ne_of_gt hpow)
  refine Nat.le_antisymm ?_ ?_
  · rw [digitCount_le_iff (by omega), Nat.pow_add]
    exact Nat.mul_lt_mul_of_pos_right (lt_pow_digitCount hn) hpow
  · -- there are no fewer digits, for the number is not below the power with one zero fewer
    rcases Nat.lt_or_ge (digitCount (n * 10 ^ k)) (digitCount n + k) with hlt | hle
    · have hbelow : n * 10 ^ k < 10 ^ (digitCount n - 1 + k) :=
        (digitCount_le_iff (by have := digitCount_pos hzero; omega)).mp (by omega)
      rw [Nat.pow_add] at hbelow
      have := pow_le_of_digitCount hn
      have := Nat.lt_of_mul_lt_mul_right hbelow
      omega
    · exact hle

/-! ## Writing -/

/-- The character of a digit is a digit, and its value is the digit. -/
theorem digitChar_spec {d : Nat} (hd : d < 10) :
    Text.isDigit (digitChar d) = true ∧ Text.digitValue (digitChar d) = d := by
  have hall : ∀ d : Fin 10, Text.isDigit (digitChar d) = true ∧ Text.digitValue (digitChar d) = d := by decide
  exact hall ⟨d, hd⟩

theorem ofDigitsFrom_append (n : Nat) (cs ds : List Char) :
    ofDigitsFrom n (cs ++ ds) = ofDigitsFrom (ofDigitsFrom n cs) ds := List.foldl_append

/-- The digits that a number is padded to are read behind others. -/
theorem paddedDigits_spec (level : Nat) :
    ∀ {n : Nat}, n < 10 ^ (2 ^ level : Nat) →
      (∀ c ∈ paddedDigits level n, Text.isDigit c = true) ∧ (paddedDigits level n).length = 2 ^ level ∧
        ∀ a, ofDigitsFrom a (paddedDigits level n) = a * 10 ^ (2 ^ level : Nat) + n := by
  induction level with
  | zero =>
    intro n hn
    obtain ⟨hdigit, hvalue⟩ := digitChar_spec (Nat.mod_lt n (show 0 < 10 by omega))
    refine ⟨List.forall_mem_singleton.mpr hdigit, rfl, fun a => ?_⟩
    show 10 * a + Text.digitValue (digitChar (n % 10)) = _
    rw [hvalue]
    omega
  | succ level ih =>
    intro n hn
    have hpos : 0 < 10 ^ (2 ^ level : Nat) := Nat.pow_pos (by omega)
    have hsquare : 10 ^ (2 ^ (level + 1) : Nat) = 10 ^ (2 ^ level : Nat) * 10 ^ (2 ^ level : Nat) := by
      rw [← Nat.pow_add, ← Nat.two_mul, ← Nat.pow_succ']
    obtain ⟨hhigh, hhighs, hhighest⟩ :=
      ih ((Nat.div_lt_iff_lt_mul hpos).mpr (hsquare ▸ hn))
    obtain ⟨hlow, hlows, hlowest⟩ := ih (Nat.mod_lt n hpos)
    rw [paddedDigits]
    refine ⟨List.forall_mem_append.mpr ⟨hhigh, hlow⟩, ?_, fun a => ?_⟩
    · rw [List.length_append, hhighs, hlows, ← Nat.two_mul, ← Nat.pow_succ']
    · rw [ofDigitsFrom_append, hhighest, hlowest, hsquare, Nat.add_mul, Nat.mul_assoc, Nat.add_assoc,
        Nat.div_add_mod']

/-- The digits of a number below a power are as many as are counted, and they are read as the number. -/
theorem digitsBelow_spec (level : Nat) :
    ∀ {n : Nat}, n < 10 ^ (2 ^ level : Nat) →
      (∀ c ∈ digitsBelow level n, Text.isDigit c = true) ∧
        (digitsBelow level n).length = digitCountBelow level n ∧ ofDigits (digitsBelow level n) = n := by
  induction level with
  | zero =>
    intro n hn
    obtain ⟨hdigit, hvalue⟩ := digitChar_spec hn
    refine ⟨List.forall_mem_singleton.mpr hdigit, rfl, ?_⟩
    show 10 * 0 + Text.digitValue (digitChar n) = n
    rw [hvalue]
    omega
  | succ level ih =>
    intro n hn
    have hpos : 0 < 10 ^ (2 ^ level : Nat) := Nat.pow_pos (by omega)
    rw [digitsBelow, digitCountBelow]
    split
    · rename_i hsmall
      exact ih hsmall
    · have hbelow : n / 10 ^ (2 ^ level : Nat) < 10 ^ (2 ^ level : Nat) := by
        rw [Nat.div_lt_iff_lt_mul hpos, ← Nat.pow_add, ← Nat.two_mul, ← Nat.pow_succ']
        exact hn
      obtain ⟨hhigh, hcount, hvalue⟩ := ih hbelow
      obtain ⟨hlow, hlows, hlowest⟩ := paddedDigits_spec level (Nat.mod_lt n hpos)
      refine ⟨List.forall_mem_append.mpr ⟨hhigh, hlow⟩, ?_, ?_⟩
      · rw [List.length_append, hcount, hlows]
      · rw [ofDigits, ofDigitsFrom_append, ← ofDigits, hvalue, hlowest, Nat.div_add_mod']

/-- A number is written with digits. -/
theorem isDigit_of_mem_digits {n : Nat} : ∀ c ∈ digits n, Text.isDigit c = true :=
  (digitsBelow_spec _ (lt_pow_digitLevel n)).1

/-- **A number has as many digits as are counted** … -/
theorem length_digits (n : Nat) : (digits n).length = digitCount n :=
  (digitsBelow_spec _ (lt_pow_digitLevel n)).2.1

/-- … **and they are read as the number.** -/
theorem ofDigits_digits (n : Nat) : ofDigits (digits n) = n :=
  (digitsBelow_spec _ (lt_pow_digitLevel n)).2.2

/-- Every number has digits. -/
theorem digits_ne_nil (n : Nat) : digits n ≠ [] := by
  rw [← List.length_pos_iff, length_digits]
  by_cases hn : n = 0
  · rw [hn]
    decide
  · exact digitCount_pos hn

/-- Zeros in front of digits do not count. -/
theorem ofDigits_zeros_append (k : Nat) (ds : List Char) :
    ofDigits (List.replicate k '0' ++ ds) = ofDigits ds := by
  induction k with
  | zero => rfl
  | succ k ih => exact ih

/-- Zeros behind digits are as many factors of ten. -/
theorem ofDigitsFrom_zeros (n k : Nat) : ofDigitsFrom n (List.replicate k '0') = n * 10 ^ k := by
  induction k generalizing n with
  | zero => exact (Nat.mul_one n).symm
  | succ k ih =>
    show ofDigitsFrom (10 * n + 0) (List.replicate k '0') = _
    rw [ih, Nat.add_zero, Nat.pow_succ', ← Nat.mul_assoc, Nat.mul_comm 10 n]

end SciCalc.Number
