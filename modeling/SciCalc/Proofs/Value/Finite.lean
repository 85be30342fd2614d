/-
  Values that stay finite.

  1. **Tame values** (`Value.Tame`) — doubles and complex numbers are checked when a result is brought into the
     active regime, integers are always finite.  So it is only asked of a result that it be no decimal outside
     the decimal regime, and a finite one inside.

  2. **Operations** (`Operands.add_tame` and the others) — the operations on tame operands give tame results,
     but for the power of a decimal zero to a negative exponent.

  3. **Normalization** (`Modes.normalize_settled`) — a tame result is finite when it has been brought into the
     active regime.  A decimal that has been stored is so only if the active regime has a finite number for it
     (`Modes.Admits`).
-/
import SciCalc.Mode
import SciCalc.Proofs.Decimal.Finite

namespace SciCalc

open Attempt

/-- A fault is no result. -/
@[simp] theorem gives_ofFault {α : Type} {p : α → Prop} {r : Except Fault α} :
    Gives p (ofFault r) ↔ Gives p r := by
  cases r with
  | error cause => exact iff_of_true (gives_error _) (gives_error _)
  | ok a => exact gives_ok.trans gives_ok.symm

theorem Context.gives_entered {α : Type} {p : α → Prop} {ctx : Context} {r : Except Fault α} (h : Gives p r) :
    Gives p (ctx.entered r) := by
  rw [entered, gives_ite]
  exact ⟨fun _ => gives_error _, fun _ => h⟩

/-! ## Tame values -/

namespace Value

/-- No number in the value is infinite or undefined. -/
def isFinite : Value → Bool
  | real x => x.isFinite
  | integer _ => true
  | complex z => z.re.isFinite && z.im.isFinite
  | decimal x _ => x.isFinite

/-- The value is no decimal unless decimals are used, and then a finite one. -/
def Tame (m : Modes) : Value → Prop
  | decimal x _ => m.regime = .decimal ∧ x.isFinite = true
  | _ => True

/-- The value is finite, and no decimal unless decimals are used. -/
def Settled (m : Modes) (v : Value) : Prop := v.isFinite = true ∧ v.Tame m

variable {m : Modes}

@[simp] theorem tame_real (x : Binary) : (real x).Tame m := trivial

@[simp] theorem tame_integer (n : Int) : (integer n).Tame m := trivial

@[simp] theorem tame_complex (z : Complex) : (complex z).Tame m := trivial

@[simp] theorem tame_decimal (x : Decimal) (ctx : Context) :
    (decimal x ctx).Tame m ↔ m.regime = .decimal ∧ x.isFinite = true := Iff.rfl

end Value

/-- Both operands are tame. -/
def Operands.Tame (m : Modes) : Operands → Prop
  | decimal x y _ _ => m.regime = .decimal ∧ x.isFinite = true ∧ y.isFinite = true
  | _ => True

/-- Whatever value a computation gives is tame. -/
abbrev GivesTame (m : Modes) (r : Except Failure Value) : Prop := Gives (Value.Tame m) r

variable {m : Modes} {v w : Value} {o : Operands}

/-! ## Operations -/

namespace Value

/-- A tame value is a finite decimal, if it is a decimal at all. -/
theorem givesFinite_exactDecimal (hv : v.Tame m) : GivesFinite v.exactDecimal := by
  have hreal : GivesFinite (do
      let x ← v.toReal
      if x.isFinite then return Decimal.ofBinary .double x
      else .error (.numeric (.notDecimal (Double.text x))) : Except Failure Decimal) := by
    refine gives_bind.mpr fun x _ => ?_
    split
    · rename_i hx
      exact gives_ok.mpr (Decimal.isFinite_ofBinary hx)
    · exact gives_error _
  cases v with
  | real x => exact hreal
  | integer n => exact gives_ok.mpr rfl
  | complex z => exact hreal
  | decimal x ctx => exact gives_ok.mpr hv.2

/-- The double of a decimal is the nearest one. -/
theorem eq_of_toReal_decimal {x : Decimal} {ctx : Context} {y : Binary} (h : (decimal x ctx).toReal = .ok y) :
    y = x.toBinary .double := by
  simp only [toReal] at h
  split at h <;> cases h
  rfl

theorem givesFinite_toDecimal (ctx : Context) (hv : v.Tame m) : GivesFinite (v.toDecimal ctx) :=
  (givesFinite_exactDecimal hv).bind fun _ hx =>
    gives_ofFault.mpr (Context.gives_entered (Context.givesFinite_plus hx))

/-- There is a common context only where decimals are used. -/
theorem regime_of_commonContext? (hv : v.Tame m) (hw : w.Tame m) {ctx : Context}
    (h : commonContext? v w = some ctx) : m.regime = .decimal := by
  cases v with
  | decimal x c => exact hv.1
  | _ =>
    cases w with
    | decimal y d => exact hw.1
    | _ => cases h

/-- Promoted operands are tame. -/
theorem promote_tame (hv : v.Tame m) (hw : w.Tame m) : Gives (Operands.Tame m) (v.promote w) := by
  unfold promote
  split
  -- complex operands are always tame; decimal ones are finite, and one of the two was a decimal before
  · exact gives_bind.mpr fun z _ => gives_bind.mpr fun u _ => gives_ok.mpr trivial
  · split
    · rename_i ctx _ hctx
      exact (givesFinite_toDecimal ctx hv).bind fun x hx => (givesFinite_toDecimal ctx hw).bind fun y hy =>
        gives_ok.mpr ⟨regime_of_commonContext? hv hw hctx, hx, hy⟩
    · exact gives_ok.mpr trivial
    · exact gives_bind.mpr fun x _ => gives_bind.mpr fun y _ => gives_ok.mpr trivial

end Value

namespace Operands

theorem decimalResult_tame {ctx : Context} {r : Except Fault Decimal} (hm : m.regime = .decimal)
    (hr : GivesFinite r) : GivesTame m (decimalResult ctx r) := by
  refine gives_ofFault.mpr (Context.gives_entered (gives_map.mpr fun x hx => ?_))
  exact ⟨hm, hr x hx⟩

theorem add_tame (ho : o.Tame m) : GivesTame m o.add := by
  cases o with
  | decimal x y ctx other => exact decimalResult_tame ho.1 (Context.givesFinite_add ho.2.1 ho.2.2)
  | _ => simp [add]

theorem sub_tame (ho : o.Tame m) : GivesTame m o.sub := by
  cases o with
  | decimal x y ctx other => exact decimalResult_tame ho.1 (Context.givesFinite_sub ho.2.1 ho.2.2)
  | _ => simp [sub]

theorem mul_tame (ho : o.Tame m) : GivesTame m o.mul := by
  cases o with
  | decimal x y ctx other => exact decimalResult_tame ho.1 (Context.givesFinite_mul ho.2.1 ho.2.2)
  | _ => simp [mul]

theorem div_tame (ho : o.Tame m) : GivesTame m o.div := by
  cases o with
  | decimal x y ctx other =>
    exact gives_ite.mpr ⟨fun _ => gives_error _, fun _ =>
      decimalResult_tame ho.1 (Context.givesFinite_div ho.2.1 ho.2.2)⟩
  | _ => simp [div, divInteger]

theorem modulo_tame (ho : o.Tame m) : GivesTame m o.modulo := by
  cases o with
  | decimal x y ctx other =>
    exact gives_ite.mpr ⟨fun _ => gives_error _, fun _ =>
      decimalResult_tame ho.1 (Context.givesFinite_remainder ho.2.1 ho.2.2)⟩
  | _ => simp [modulo]

theorem floorDivide_tame (ho : o.Tame m) : GivesTame m o.floorDivide := by
  cases o with
  | decimal x y ctx other =>
    exact gives_ite.mpr ⟨fun _ => gives_error _, fun _ =>
      decimalResult_tame ho.1 (Decimal.givesFinite_floorQuotient ho.2.1 ho.2.2)⟩
  | _ => simp [floorDivide]

theorem powReal_tame (x y : Binary) : GivesTame m (powReal x y) := by
  refine gives_bind.mpr fun r _ => ?_
  cases r <;> simp

theorem powInteger_tame (a b : Int) : GivesTame m (powInteger a b) := by
  unfold powInteger
  split
  · split
    · exact gives_error _
    · exact gives_bind.mpr fun x _ => gives_bind.mpr fun y _ => powReal_tame x y
  · split <;> simp

/-- The operands are a decimal zero and a negative decimal. -/
def ZeroToNegative : Operands → Prop
  | decimal x y _ _ => x.isZero = true ∧ y.isNegative = true
  | _ => False

/-- **A power of tame operands is tame**, but for that of a decimal zero to a negative exponent. -/
theorem power_tame (ho : o.Tame m) (h : ¬ o.ZeroToNegative) : GivesTame m o.power := by
  cases o with
  | decimal x y ctx other => exact decimalResult_tame ho.1 (Context.givesFinite_power ho.2.1 ho.2.2 h)
  | real x y => exact powReal_tame x y
  | integer a b => exact powInteger_tame a b
  | complex z u => simp [power]

end Operands

namespace Value

theorem neg_tame (hv : v.Tame m) : GivesTame m v.neg := by
  cases v with
  | decimal x ctx => exact Operands.decimalResult_tame hv.1 (Context.givesFinite_minus hv.2)
  | _ => simp [neg]

theorem add_tame (hv : v.Tame m) (hw : w.Tame m) : GivesTame m (v.add w) :=
  (promote_tame hv hw).bind fun _ => Operands.add_tame

end Value

/-- The value of a constant is tame. -/
theorem Constant.toValue_tame (c : Constant) (m : Modes) :
    GivesTame m (c.toValue (if m.regime = .decimal then some m.context else none)) := by
  unfold toValue
  split
  · split <;> exact gives_ok.mpr trivial
  · rename_i ctx hctx
    have hm : m.regime = .decimal := by
      by_contra h
      rw [if_neg h] at hctx
      cases hctx
    split
    · exact gives_ok.mpr trivial
    · exact Gives.bind (gives_ofFault.mpr (Context.gives_entered (Context.givesFinite_ofComputed ctx _)))
        fun x hx => gives_ok.mpr ⟨hm, hx⟩

namespace Modes

theorem givesFinite_roundDecimal {x : Decimal} (hx : x.isFinite = true) (precision : Nat) :
    GivesFinite (m.roundDecimal x precision) := by
  unfold roundDecimal
  dsimp only
  split
  · exact gives_error _
  split
  · exact (Context.givesFinite_add hx rfl).bind fun y hy => Decimal.givesFinite_toIntegral hy _
  · exact Decimal.givesFinite_toIntegral hx _

theorem round_tame (hv : v.Tame m) : GivesTame m (m.round v) := by
  cases v with
  | decimal x ctx =>
    exact Gives.bind (gives_ofFault.mpr (givesFinite_roundDecimal hv.2 ctx.precision))
      fun y hy => gives_ok.mpr ⟨hv.1, hy⟩
  | _ => simp [round]

/-! ## Normalization -/

/-- The active regime has a finite number for the decimal.  Where doubles are used, the check of a double sees
    to it. -/
def Admits (m : Modes) (x : Decimal) : Prop :=
  match m.regime with
  | .double => True
  | .exact => (x.toBinary .double).isFinite = true
  | .decimal => x.isFinite = true

/-- A checked double is finite. -/
theorem gives_check (x : Binary) : Gives (fun y => y.isFinite = true) (Double.check x) := by
  refine gives_bind.mpr fun y hy => gives_bind.mpr fun z hz => ?_
  have hdefined : y.isNaN = false := by
    unfold Double.checkDefined at hy
    split at hy
    · cases hy
    · rename_i h
      cases hy
      exact Bool.eq_false_iff.mpr h
  have hsame : z = y := by
    unfold Double.checkUnderflow at hz
    split at hz <;> cases hz
    rfl
  subst hsame
  cases z with
  | finite s c e => exact gives_ok.mpr rfl
  | infinite s => exact gives_error _
  | nan => cases hdefined

/-- A double in the exact regime is finite if it was so before. -/
theorem exactReal_settled {x : Binary} (hx : x.isFinite = true) : (exactReal x).Settled m := by
  unfold exactReal
  split
  · exact ⟨rfl, trivial⟩
  · exact ⟨hx, trivial⟩

/-- A finite double is brought into the active regime as a finite value. -/
theorem normalizeReal_settled {x : Binary} (hx : x.isFinite = true) :
    Gives (Value.Settled m) (m.normalizeReal (.real x)) := by
  unfold normalizeReal
  split
  · rename_i hm
    exact (Value.givesFinite_toDecimal m.context (m := m) (v := .real x) trivial).bind
      fun y hy => gives_ok.mpr ⟨hy, hm, hy⟩
  · exact gives_ok.mpr (exactReal_settled hx)
  · exact gives_ok.mpr ⟨hx, trivial⟩

/-- A complex number that is kept has been checked, and so has the real part of one that is not. -/
theorem normalize_complex_settled (z : Complex) : Gives (Value.Settled m) (m.normalize (.complex z)) := by
  have finite_of_checks : ∀ {x y z : Binary}, Double.checkDefined x = .ok y → Double.checkOverflow x = .ok z →
      x.isFinite = true := by
    intro x y z hdefined hoverflow
    cases x with
    | finite s m e => rfl
    | infinite s => cases hoverflow
    | nan => cases hdefined
  -- a part that is kept was looked at twice: it is not undefined, and it is not infinite
  refine gives_bind.mpr fun settled hsettled => ?_
  unfold settleComplex at hsettled
  split at hsettled
  · obtain ⟨_, hre, hrest⟩ := bind_eq_ok.mp hsettled
    obtain ⟨_, him, hrest⟩ := bind_eq_ok.mp hrest
    obtain ⟨_, hre', hrest⟩ := bind_eq_ok.mp hrest
    obtain ⟨_, him', hrest⟩ := bind_eq_ok.mp hrest
    cases hrest
    refine gives_ok.mpr ⟨?_, trivial⟩
    rw [Value.isFinite, finite_of_checks hre hre', finite_of_checks him him', Bool.and_self]
  · cases hsettled
    exact (gives_check z.re).bind fun x => normalizeReal_settled

/-- **What is brought into the active regime is finite**, if the regime has a finite number for a decimal. -/
theorem normalize_settled (h : ∀ x ctx, v = .decimal x ctx → m.Admits x) :
    Gives (Value.Settled m) (m.normalize v) := by
  cases v with
  | real x => exact (gives_check x).bind fun y => normalizeReal_settled
  | complex z => exact normalize_complex_settled z
  | integer n =>
    show Gives _ (m.normalizeReal (.integer n))
    unfold normalizeReal
    split
    · rename_i hm
      exact (Value.givesFinite_toDecimal m.context (m := m) (v := .integer n) trivial).bind
        fun y hy => gives_ok.mpr ⟨hy, hm, hy⟩
    · exact gives_ok.mpr ⟨rfl, trivial⟩
    · exact gives_bind.mpr fun x _ => (gives_check x).bind fun y hy => gives_ok.mpr ⟨hy, trivial⟩
  | decimal x ctx =>
    -- only where doubles are used a decimal is checked on its way, so elsewhere it has to be admitted
    have hadmits := h x ctx rfl
    show Gives _ (m.normalizeReal (.decimal x ctx))
    unfold Admits at hadmits
    unfold normalizeReal
    split
    · rename_i hm
      rw [hm] at hadmits
      exact (Value.givesFinite_toDecimal m.context (m := m) (v := .decimal x ctx) ⟨hm, hadmits⟩).bind
        fun y hy => gives_ok.mpr ⟨hy, hm, hy⟩
    · rename_i hm
      rw [hm] at hadmits
      refine gives_bind.mpr fun y hy => gives_ok.mpr (exactReal_settled ?_)
      rw [Value.eq_of_toReal_decimal hy]
      exact hadmits
    · exact gives_bind.mpr fun y _ => (gives_check y).bind fun z hz => gives_ok.mpr ⟨hz, trivial⟩

/-- The active regime has a number for a tame decimal. -/
theorem admits_of_tame {x : Decimal} {ctx : Context} (h : (Value.decimal x ctx).Tame m) : m.Admits x := by
  rw [Admits, h.1]
  exact h.2

theorem normalize_settled_of_tame (hv : v.Tame m) : Gives (Value.Settled m) (m.normalize v) :=
  normalize_settled fun _ _ hdecimal => admits_of_tame (hdecimal ▸ hv)

/-- **A decimal that the active regime has no finite number for is brought into it as no finite value.** -/
theorem normalize_not_finite {x : Decimal} (h : ¬ m.Admits x) (ctx : Context) :
    Gives (fun v => v.isFinite = false) (m.normalize (.decimal x ctx)) := by
  show Gives _ (m.normalizeReal (.decimal x ctx))
  unfold Admits at h
  unfold normalizeReal
  split
  · rename_i hm
    rw [hm] at h
    have hplus : Gives (fun y => y.isFinite = false) (m.context.plus x) :=
      Context.givesSpecial_plus (Bool.eq_false_iff.mpr h)
    exact Gives.bind (gives_ofFault.mpr (Context.gives_entered hplus)) fun y hy => gives_ok.mpr hy
  · rename_i hm
    rw [hm] at h
    refine gives_bind.mpr fun y hy => gives_ok.mpr ?_
    obtain rfl := Value.eq_of_toReal_decimal hy
    generalize x.toBinary .double = y at h
    cases y with
    | finite s k e => exact absurd rfl h
    | _ => rfl
  · rename_i hm
    rw [hm] at h
    exact absurd trivial h

/-- **A numeral is read as a finite value.** -/
theorem literal_settled {text : String} (h : GivesFinite (Decimal.read text)) :
    Gives (Value.Settled m) (m.literal text) := by
  have hdouble : Gives (Value.Settled m) (literalDouble text) := by
    unfold literalDouble
    split
    · exact (gives_check _).bind fun x hx => gives_ok.mpr ⟨hx, trivial⟩
    · exact gives_error _
  unfold literal
  split
  · rename_i hm
    refine Gives.bind (gives_ofFault.mpr h) fun x hx => ?_
    exact Gives.bind (gives_ofFault.mpr (Context.givesFinite_plus hx)) fun y hy => gives_ok.mpr ⟨hy, hm, hy⟩
  · refine gives_bind.mpr fun x _ => ?_
    split
    · exact gives_ok.mpr ⟨rfl, trivial⟩
    · exact hdouble
  · exact hdouble

end Modes

end SciCalc
