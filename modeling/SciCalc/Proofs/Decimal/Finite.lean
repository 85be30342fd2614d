/-
  Decimals that stay finite.

  1. **Contexts** (`givesFinite_finish`) — what a context finishes is finite or a fault, so the sums, products,
     quotients and remainders of finite decimals are finite.

  2. **Digits** (`isFinite_digitsOf`, `givesFinite_ofComputed`) — so is the decimal that a computed number is
     written as.

  3. **Powers** (`givesFinite_power`) — and so are the powers of finite decimals, but for those of zero to a
     negative exponent.
-/
import SciCalc.Constant
import SciCalc.Decimal.Power
import SciCalc.Proofs.Attempt
import SciCalc.Proofs.Elementary.Finite
import SciCalc.Value.Arithmetic

namespace SciCalc

open Attempt

/-- Whatever decimal a computation gives is finite. -/
abbrev GivesFinite {ε : Type} (r : Except ε Decimal) : Prop := Gives (fun x => x.isFinite = true) r

@[simp] theorem Decimal.isFinite_finite (s : Bool) (c : Nat) (e : Int) : (finite s c e).isFinite = true := rfl

/-- A finite decimal has a sign, a coefficient and an exponent. -/
theorem Decimal.exists_of_isFinite {x : Decimal} (h : x.isFinite = true) : ∃ s c e, x = .finite s c e := by
  cases x with
  | finite s c e => exact ⟨s, c, e, rfl⟩
  | infinite s => cases h
  | nan s q p => cases h

namespace Context

variable {ctx : Context} {x y : Decimal}

/-! ## Contexts -/

/-- **What a context finishes is finite.** -/
@[simp] theorem givesFinite_finish (ctx : Context) (s : Bool) (c : Nat) (e : Int) :
    GivesFinite (ctx.finish s c e) := by
  unfold finish
  split
  · simp
  split
  · simp
  dsimp only
  split
  · simp
  · split <;> simp

theorem givesFinite_plus (hx : x.isFinite = true) : GivesFinite (ctx.plus x) := by
  obtain ⟨s, c, e, rfl⟩ := Decimal.exists_of_isFinite hx
  exact givesFinite_finish ctx _ c e

/-- An infinite or undefined decimal stays so in a context. -/
theorem givesSpecial_plus (hx : x.isFinite = false) : Gives (fun y => y.isFinite = false) (ctx.plus x) := by
  cases x with
  | finite s c e => cases hx
  | infinite s => exact gives_ok.mpr rfl
  | nan s q p => exact gives_ite.mpr ⟨fun _ => gives_error _, fun _ => gives_ok.mpr rfl⟩

theorem givesFinite_minus (hx : x.isFinite = true) : GivesFinite (ctx.minus x) := by
  obtain ⟨s, c, e, rfl⟩ := Decimal.exists_of_isFinite hx
  exact givesFinite_finish ctx _ c e

/-- Finite operands force no undefined result. -/
theorem nanResult?_of_isFinite (hx : x.isFinite = true) (hy : y.isFinite = true) :
    ctx.nanResult? x y = none := by
  obtain ⟨s, c, e, rfl⟩ := Decimal.exists_of_isFinite hx
  obtain ⟨t, d, f, rfl⟩ := Decimal.exists_of_isFinite hy
  rfl

theorem givesFinite_add (hx : x.isFinite = true) (hy : y.isFinite = true) : GivesFinite (ctx.add x y) := by
  obtain ⟨s, c, e, rfl⟩ := Decimal.exists_of_isFinite hx
  obtain ⟨t, d, f, rfl⟩ := Decimal.exists_of_isFinite hy
  simp only [add, nanResult?]
  split <;> exact givesFinite_finish ctx _ _ _

theorem givesFinite_sub (hx : x.isFinite = true) (hy : y.isFinite = true) : GivesFinite (ctx.sub x y) := by
  rw [sub, nanResult?_of_isFinite hx hy]
  obtain ⟨t, d, f, rfl⟩ := Decimal.exists_of_isFinite hy
  exact givesFinite_add hx rfl

theorem givesFinite_mul (hx : x.isFinite = true) (hy : y.isFinite = true) : GivesFinite (ctx.mul x y) := by
  obtain ⟨s, c, e, rfl⟩ := Decimal.exists_of_isFinite hx
  obtain ⟨t, d, f, rfl⟩ := Decimal.exists_of_isFinite hy
  exact givesFinite_finish ctx _ _ _

theorem givesFinite_div (hx : x.isFinite = true) (hy : y.isFinite = true) : GivesFinite (ctx.div x y) := by
  obtain ⟨s, c, e, rfl⟩ := Decimal.exists_of_isFinite hx
  obtain ⟨t, d, f, rfl⟩ := Decimal.exists_of_isFinite hy
  simp only [div, nanResult?, divFinite]
  split
  · simp
  split
  · simp
  split <;> simp

theorem givesFinite_divideInt (hx : x.isFinite = true) (hy : y.isFinite = true) :
    GivesFinite (ctx.divideInt x y) := by
  obtain ⟨s, c, e, rfl⟩ := Decimal.exists_of_isFinite hx
  obtain ⟨t, d, f, rfl⟩ := Decimal.exists_of_isFinite hy
  simp only [divideInt, nanResult?]
  split
  · simp
  split
  · simp
  · exact gives_bind.mpr fun r _ => givesFinite_finish ctx _ _ _

theorem givesFinite_remainder (hx : x.isFinite = true) (hy : y.isFinite = true) :
    GivesFinite (ctx.remainder x y) := by
  obtain ⟨s, c, e, rfl⟩ := Decimal.exists_of_isFinite hx
  obtain ⟨t, d, f, rfl⟩ := Decimal.exists_of_isFinite hy
  simp only [remainder, nanResult?]
  split
  · simp
  split
  · simp
  split
  · simp
  · exact gives_bind.mpr fun r _ => givesFinite_finish ctx _ _ _

end Context

namespace Decimal

variable {ctx : Context} {x y : Decimal}

theorem givesFinite_floorQuotient (hx : x.isFinite = true) (hy : y.isFinite = true) :
    GivesFinite (floorQuotient ctx x y) := by
  refine (Context.givesFinite_divideInt hx hy).bind fun q hq => gives_bind.mpr fun r _ => ?_
  split
  · exact gives_ok.mpr hq
  split
  · split
    · exact gives_ok.mpr hq
    · exact Context.givesFinite_sub hq rfl
  · simp

theorem givesFinite_toIntegral (hx : x.isFinite = true) (mode : Rounding) : GivesFinite (x.toIntegral mode) := by
  obtain ⟨s, c, e, rfl⟩ := exists_of_isFinite hx
  rw [toIntegral]
  split <;> simp

/-- A finite double has a finite written form. -/
theorem isFinite_ofBinary {f : Format} {x : Binary} (hx : x.isFinite = true) :
    (ofBinary f x).isFinite = true := by
  cases x with
  | finite s m e =>
    simp only [ofBinary]
    split
    · rfl
    split
    · split <;> rfl
    · rfl
  | _ => cases hx

/-! ## Digits -/

/-- **The digits of a finite number are a finite decimal.** -/
theorem isFinite_digitsOf (tie : Binary.DecimalTie) (count : Nat) (s : Bool) (m : Nat) (e : Int) :
    (digitsOf tie count s m e).isFinite = true := by
  unfold digitsOf
  extract_lets top
  split
  · rfl
  split
  · rfl
  · have hf : (Format.ofBits (4 * count + 64)).Unlimited := Format.unlimited_ofBits (by omega)
    have hten : (10 : Nat) ≠ 0 := by omega
    have hfinite := Format.isFinite_div (x := .finite false m e) hf.range rfl
      (Format.nonzero_power hf hten 0 (tenth e))
    dsimp only
    generalize (Format.ofBits (4 * count + 64)).div (.finite false m e) _ = quotient at hfinite ⊢
    cases quotient with
    | finite t n d => rfl
    | _ => cases hfinite

theorem givesFinite_ofDigits (count : Nat) (x : Binary) : GivesFinite (ofDigits count x) := by
  unfold ofDigits
  split
  · rename_i s m e
    have hfinite := isFinite_digitsOf Binary.DecimalTie.away count s m e
    split
    · simp
    split
    · split
      · simp
      split <;> simp
    · exact gives_ok.mpr hfinite
  · simp

end Decimal

/-- **A computed number is a finite decimal of its context.** -/
theorem Context.givesFinite_ofComputed (ctx : Context) (x : Binary) : GivesFinite (ctx.ofComputed x) :=
  (Decimal.givesFinite_ofDigits _ x).bind fun _ hy => givesFinite_plus hy

/-! ## Powers -/

namespace Decimal

variable {x : Decimal}

theorem isFinite_lnDigits (count : Nat) {c : Nat} (hc : c ≠ 0) (e : Int) :
    (lnDigits count c e).isFinite = true := by
  unfold lnDigits
  extract_lets w
  have hwide : (Format.ofBits (2 * w)).Unlimited := Format.unlimited_ofBits (by omega)
  have hln := Elementary.isFinite_ln w (Format.nonzero_ofNumeral hwide hc false e)
  generalize Elementary.ln _ _ = y at hln ⊢
  cases y with
  | finite s m k => exact isFinite_digitsOf Binary.DecimalTie.toEven count s m k
  | _ => cases hln

theorem isFinite_expDigits (count : Nat) (hx : x.isFinite = true) : (expDigits count x).isFinite = true := by
  obtain ⟨s, c, e, rfl⟩ := exists_of_isFinite hx
  have hwide : (Format.ofBits (4 * (count + 20) + 64 + 128)).Unlimited := Format.unlimited_ofBits (by omega)
  have hexp := Elementary.isFinite_exp (4 * (count + 20) + 64) (Format.isFinite_ofNumeral hwide s c e)
  rw [expDigits]
  generalize Elementary.exp _ _ = y at hexp ⊢
  cases y with
  | finite t m k => exact isFinite_digitsOf Binary.DecimalTie.toEven count t m k
  | _ => cases hexp

end Decimal

namespace Context

variable {ctx : Context} {x y : Decimal} {s : Bool} {c : Nat} {e : Int}

theorem givesFinite_powBits (hx : x.isFinite = true) (n bit : Nat) : ∀ {y : Decimal}, y.isFinite = true →
    GivesFinite (ctx.powBits x n bit y) := by
  induction bit with
  | zero => exact fun hy => gives_ok.mpr hy
  | succ bit ih =>
    intro y hy
    refine (givesFinite_mul hy hy).bind fun z hz => ?_
    dsimp only
    split
    · exact (givesFinite_mul hz hx).bind fun _ => ih
    · exact ih hz

theorem givesFinite_powInt (hx : x.isFinite = true) (n : Int) (digits : Nat) (negative : Bool) :
    GivesFinite (ctx.powInt x n digits negative) := by
  unfold powInt
  extract_lets wide rest
  have hrest : ∀ z : Decimal, z.isFinite = true → GivesFinite (rest z) := fun z hz =>
    (givesFinite_powBits hz _ _ hz).bind fun w hw => by
      obtain ⟨t, d, f, rfl⟩ := Decimal.exists_of_isFinite hw
      exact givesFinite_finish ctx _ _ _
  split
  · exact (givesFinite_div rfl hx).bind hrest
  · exact hrest x hx

theorem givesFinite_powReal (hc : c ≠ 0) (e : Int) (hy : y.isFinite = true) :
    GivesFinite (ctx.powReal c e y) := by
  refine (givesFinite_mul (Decimal.isFinite_lnDigits _ hc e) hy).bind fun z hz => ?_
  obtain ⟨t, d, f, hw⟩ := Decimal.exists_of_isFinite (Decimal.isFinite_expDigits _ hz)
  rw [hw]
  exact givesFinite_finish ctx _ _ _

theorem givesFinite_powFinite (hc : c ≠ 0) (s : Bool) (e : Int) (hy : y.isFinite = true) :
    GivesFinite (ctx.powFinite s c e y) := by
  unfold powFinite powBeyond?
  dsimp only
  split
  · split <;> simp [powOne]
  split
  · simp
  · split
    · rename_i r hbeyond
      split at hbeyond
      · split at hbeyond <;> cases hbeyond
        simp
      · split at hbeyond <;> cases hbeyond
        simp
    · split
      · exact givesFinite_powInt rfl _ _ _
      · exact givesFinite_powReal hc e hy

/-- **A power of finite decimals is finite**, unless it is one of zero to a negative exponent. -/
theorem givesFinite_power (hx : x.isFinite = true) (hy : y.isFinite = true)
    (h : ¬ (x.isZero = true ∧ y.isNegative = true)) : GivesFinite (ctx.power x y) := by
  rw [power, nanResult?_of_isFinite hx hy]
  obtain ⟨s, c, e, rfl⟩ := Decimal.exists_of_isFinite hx
  obtain ⟨t, d, f, rfl⟩ := Decimal.exists_of_isFinite hy
  dsimp only
  split
  · rename_i hzero
    split
    · simp
    · rw [if_neg fun hnegative => h ⟨hzero, hnegative⟩]
      simp
  · rename_i hzero
    have hc : c ≠ 0 := fun h => hzero (decide_eq_true h)
    split
    · simp
    split
    · simp [Decimal.one]
    · exact givesFinite_powFinite hc s e rfl

end Context

end SciCalc
