/-
  Finite numbers in formats without limits.

  1. **Rounding** (`nonzero_round`) — a format without limits rounds no number to an infinity, and if it holds
     any bits it rounds none but zero to zero.

  2. **Arithmetic** (`nonzero_power`, `nonzero_ofNumeral`) — so products, quotients and powers of numbers other
     than zero are such numbers again, and a numeral other than zero is read as one.

  3. **Elementary functions** (`isFinite_exp`, `isFinite_ln`) — the exponential of a finite number is finite, and
     so is the logarithm of a positive one.
-/
import SciCalc.Elementary.Real
import SciCalc.Proofs.Binary.Rounding

namespace SciCalc

open Binary

/-- A finite number other than zero, with a sign. -/
def Binary.Nonzero (s : Bool) (x : Binary) : Prop := ∃ m e, x = .finite s m e ∧ m ≠ 0

theorem Binary.Nonzero.isFinite {s : Bool} {x : Binary} (h : x.Nonzero s) : x.isFinite = true := by
  obtain ⟨m, e, rfl, -⟩ := h
  rfl

namespace Format

/-- The format holds bits, and numbers of any size. -/
structure Unlimited (f : Format) : Prop where
  /-- There are no limits. -/
  range : f.range = none
  /-- There is at least one bit. -/
  precision : 0 < f.precision

theorem unlimited_ofBits {p : Nat} (hp : 0 < p) : (ofBits p).Unlimited := ⟨rfl, hp⟩

variable {f : Format} {s t : Bool} {m : Nat} {e : Int} {x y : Binary}

theorem Unlimited.widen (hf : f.Unlimited) (bits : Nat) : (f.widen bits).Unlimited :=
  ⟨hf.range, Nat.lt_of_lt_of_le hf.precision (Nat.le_add_right _ _)⟩

theorem Unlimited.cutting (hf : f.Unlimited) (bits : Nat) : (f.cutting bits).Unlimited :=
  ⟨rfl, Nat.lt_of_lt_of_le hf.precision (Nat.le_add_right _ _)⟩

/-! ## Rounding -/

theorem capped_of_range (hf : f.range = none) (s : Bool) (m : Nat) (e : Int) :
    f.capped s m e = .finite s m e := by
  rw [capped, hf]

/-- Without limits there is no infinity. -/
theorem isFinite_round (hf : f.range = none) (s : Bool) (m : Nat) (e : Int) :
    (f.round s m e).isFinite = true := by
  simp only [round, capped_of_range hf]
  split
  · rfl
  split
  · rfl
  split
  · rfl
  split <;> rfl

/-- A mantissa that keeps a bit does not vanish. -/
theorem shift_ne_zero {d : Direction} {k : Nat} (hk : k < width m) : shift d m k ≠ 0 := by
  have hquotient : m >>> k ≠ 0 := by
    rw [Nat.shiftRight_eq_div_pow]
    exact (Nat.div_pos (two_pow_le hk) (Nat.two_pow_pos k)).ne'
  cases d with
  | towardZero => exact hquotient
  | nearest =>
    show shiftRound m k ≠ 0
    unfold shiftRound
    split
    · rintro rfl
      exact absurd hk (Nat.not_lt_zero k)
    split
    · omega
    · dsimp only
      split
      · exact Nat.succ_ne_zero _
      · exact hquotient

/-- **A number other than zero is not rounded to zero.** -/
theorem nonzero_round (hf : f.Unlimited) (hm : m ≠ 0) (s : Bool) (e : Int) : (f.round s m e).Nonzero s := by
  have hwidth := width_pos hm
  have hexcess : f.excess m e = (width m : Int) - f.precision := by simp only [excess, hf.range]
  have hprecision := hf.precision
  simp only [round, if_neg hm, capped_of_range hf.range, hexcess]
  by_cases hdrop : (width m : Int) - f.precision ≤ 0
  · rw [if_pos hdrop]
    refine ⟨_, _, rfl, ?_⟩
    rw [Nat.shiftLeft_eq]
    exact Nat.mul_ne_zero hm (Nat.two_pow_pos _).ne'
  · rw [if_neg hdrop]
    have hq : shift f.direction m ((width m : Int) - f.precision).toNat ≠ 0 := shift_ne_zero (by omega)
    generalize shift f.direction m ((width m : Int) - f.precision).toNat = q at hq ⊢
    rw [if_neg hq]
    split
    · exact ⟨_, _, rfl, hq⟩
    · rename_i hwide
      refine ⟨_, _, rfl, ?_⟩
      have htwo : 2 ^ 1 ≤ q := two_pow_le (by omega)
      rw [Nat.shiftRight_eq_div_pow]
      omega

theorem nonzero_convert (hf : f.Unlimited) (hx : x.Nonzero s) : (f.convert x).Nonzero s := by
  obtain ⟨m, e, rfl, hm⟩ := hx
  exact nonzero_round hf hm s e

theorem isFinite_convert (hf : f.range = none) (hx : x.isFinite = true) : (f.convert x).isFinite = true := by
  cases x with
  | finite s m e => exact isFinite_round hf s m e
  | _ => cases hx

/-! ## Arithmetic -/

theorem nonzero_mul (hf : f.Unlimited) (hx : x.Nonzero s) (hy : y.Nonzero t) : (f.mul x y).Nonzero (s != t) := by
  obtain ⟨m, e, rfl, hm⟩ := hx
  obtain ⟨n, d, rfl, hn⟩ := hy
  exact nonzero_round hf (Nat.mul_ne_zero hm hn) _ _

theorem nonzero_quotient (hf : f.Unlimited) (hm : m ≠ 0) {n : Nat} (hn : n ≠ 0) (s : Bool) (e : Int) :
    (f.quotient s m n e).Nonzero s := by
  have hlong := two_pow_le_quotient f.precision hm hn
  have hone := Nat.two_pow_pos (f.precision + 1)
  refine nonzero_round hf ?_ s _
  omega

theorem nonzero_div (hf : f.Unlimited) (hx : x.Nonzero s) (hy : y.Nonzero t) : (f.div x y).Nonzero (s != t) := by
  obtain ⟨m, e, rfl, hm⟩ := hx
  obtain ⟨n, d, rfl, hn⟩ := hy
  rw [div, if_neg hn, if_neg hm]
  exact nonzero_quotient hf hm hn _ _

/-- A finite number divided by one other than zero is finite. -/
theorem isFinite_div (hf : f.range = none) (hx : x.isFinite = true) (hy : y.Nonzero t) :
    (f.div x y).isFinite = true := by
  obtain ⟨n, d, rfl, hn⟩ := hy
  cases x with
  | finite s m e =>
    rw [div, if_neg hn]
    split
    · rfl
    · exact isFinite_round hf _ _ _
  | _ => cases hx

theorem nonzero_powerLoop (hf : f.Unlimited) (fuel : Nat) : ∀ {n : Nat} {x acc : Binary},
    x.Nonzero false → acc.Nonzero false → (powerLoop f fuel n x acc).Nonzero false := by
  induction fuel with
  | zero => exact fun _ hacc => hacc
  | succ fuel ih =>
    intro n x acc hx hacc
    rw [powerLoop]
    split
    · exact hacc
    · refine ih (nonzero_mul hf hx hx) ?_
      split
      · exact nonzero_mul hf hacc hx
      · exact hacc

/-- A positive number has positive powers. -/
theorem nonzero_powerFinite (hf : f.Unlimited) (hm : m ≠ 0) (e : Int) (n : Nat) :
    (f.powerFinite false m e n).Nonzero false := by
  have hodd : m / Nat.gcd m (1 <<< width m) ≠ 0 := by
    have hle : Nat.gcd m (1 <<< width m) ≤ m := Nat.gcd_le_left _ (Nat.pos_of_ne_zero hm)
    exact (Nat.div_pos hle (Nat.gcd_pos_of_pos_left _ (Nat.pos_of_ne_zero hm))).ne'
  simp only [powerFinite, Bool.false_and]
  split
  · exact nonzero_round hf hodd _ _
  split
  · exact nonzero_round hf (pow_ne_zero _ hodd) _ _
  · exact nonzero_convert hf (nonzero_powerLoop (hf.cutting _) _ ⟨m, e, rfl, hm⟩ ⟨1, 0, rfl, Nat.one_ne_zero⟩)

/-- **A positive number has positive powers**, also to negative exponents. -/
theorem nonzero_power (hf : f.Unlimited) (hm : m ≠ 0) (e n : Int) :
    (f.power (.finite false m e) n).Nonzero false := by
  have hone : Nonzero false (.finite false 1 0) := ⟨1, 0, rfl, Nat.one_ne_zero⟩
  rw [power]
  split
  · exact nonzero_round hf Nat.one_ne_zero _ _
  split
  · exact nonzero_powerFinite hf hm e _
  split
  · exact nonzero_div hf hone ⟨m, e, rfl, hm⟩
  · exact nonzero_div hf hone (nonzero_powerFinite (hf.widen _) hm e _)

/-- **A numeral other than zero is read as a number other than zero**, whatever its exponent. -/
theorem nonzero_ofNumeral (hf : f.Unlimited) {c : Nat} (hc : c ≠ 0) (s : Bool) (k : Int) :
    (f.ofNumeral s c k).Nonzero s := by
  have hten : ∀ n : Nat, 10 ^ n ≠ 0 := fun n => (Nat.pow_pos (by omega)).ne'
  have hten' : (10 : Nat) ≠ 0 := by omega
  simp only [ofNumeral, if_neg hc]
  split
  · split
    · exact nonzero_round hf (Nat.mul_ne_zero hc (hten _)) _ _
    · exact nonzero_quotient hf hc (hten _) _ _
  · have hmul := nonzero_mul hf (nonzero_round (hf.cutting scaleBits) hc s 0)
      (nonzero_power (hf.cutting scaleBits) hten' 0 k)
    rwa [Bool.bne_false] at hmul

theorem isFinite_ofNumeral (hf : f.Unlimited) (s : Bool) (c : Nat) (k : Int) :
    (f.ofNumeral s c k).isFinite = true := by
  by_cases hc : c = 0
  · rw [ofNumeral, if_pos hc]
    rfl
  · exact (nonzero_ofNumeral hf hc s k).isFinite

end Format

/-! ## Elementary functions -/

namespace Elementary

theorem isFinite_ofFixed (w v : Nat) (n : Int) : (ofFixed w v n).isFinite = true :=
  Format.isFinite_round rfl _ _ _

/-- A computed value is finite in a format without limits. -/
theorem isFinite_settle (p : Nat) {x : Binary} (hx : x.isFinite = true) :
    (settle (.ofBits p) x).isFinite = true :=
  Format.isFinite_convert rfl (Format.isFinite_convert rfl hx)

/-- **The exponential of a finite number is finite.** -/
theorem isFinite_exp (p : Nat) {x : Binary} (hx : x.isFinite = true) :
    (exp (.ofBits p) x).isFinite = true := by
  refine isFinite_settle p ?_
  cases x with
  | finite s m e =>
    simp only [expWide]
    split
    · rfl
    split
    · rfl
    split
    · rfl
    · exact Format.isFinite_round rfl _ _ _
  | _ => cases hx

/-- **The logarithm of a positive number is finite.** -/
theorem isFinite_ln (p : Nat) {x : Binary} (hx : x.Nonzero false) : (ln (.ofBits p) x).isFinite = true := by
  refine isFinite_settle p ?_
  obtain ⟨m, e, rfl, hm⟩ := hx
  rw [lnWide, if_neg hm, if_neg Bool.false_ne_true]
  extract_lets top k places difference gap
  split
  · rfl
  split
  · rfl
  · exact isFinite_ofFixed _ _ _

end Elementary

end SciCalc
