/-
  Values that are read again.

  1. **Signs of zeros** (`Value.unsigned`) — bringing a decimal into a context takes the sign from a zero, but a
     negative decimal may have become such a zero just there (`Context.plus_of_gives`).

  2. **Kept values** (`Modes.Keeps`) — a normalized value and a numeral are normalized to themselves, up to the
     sign of a decimal zero (`normalize_rereads`, `literal_rereads`).

  3. **Strays** (`Value.Stray`) — the doubles for which this fails in the exact regime: whole ones, which are
     taken for integers, and those that the check of doubles refuses.
-/
import SciCalc.Proofs.Decimal.Context
import SciCalc.Proofs.Decimal.Finite
import SciCalc.Proofs.Value.Regime

namespace SciCalc

open Attempt

/-! ## Signs of zeros -/

/-- The value without the sign of a decimal zero. -/
def Value.unsigned : Value → Value
  | .decimal (.finite _ 0 e) ctx => .decimal (.finite false 0 e) ctx
  | v => v

/-- Only a negative zero has a sign to lose. -/
theorem Value.unsigned_of_ne {v : Value} (h : ∀ e ctx, v ≠ .decimal (.finite true 0 e) ctx) : v.unsigned = v := by
  unfold unsigned
  split
  · rename_i s e ctx
    cases s with
    | false => rfl
    | true => exact absurd rfl (h e ctx)
  · rfl

namespace Context

variable {ctx : Context}

/-- The undefined decimals that a context gives are quiet, and their payload fits. -/
theorem plus_nan {x : Decimal} :
    Gives (fun y => ∀ s q p, y = .nan s q p → q = false ∧ p % 10 ^ ctx.precision = p) (ctx.plus x) := by
  cases x with
  | finite s c e =>
    intro y hy s' q p hnan
    rw [hnan] at hy
    cases givesFinite_finish ctx _ c e _ hy
  | infinite s => exact gives_ok.mpr nofun
  | nan s q p =>
    show Gives _ (ctx.finishNaN s q p)
    unfold finishNaN
    split
    · exact gives_error _
    · refine gives_ok.mpr fun s' q' p' h => ?_
      cases h
      exact ⟨rfl, Nat.mod_mod _ _⟩

/-- **What a context gives stays as it is in the context**, but a zero loses its sign unless numbers are rounded
    toward negative infinity. -/
theorem plus_of_gives (hprecision : 0 < ctx.precision) {x y : Decimal} (h : ctx.plus x = .ok y) :
    ∃ z, ctx.plus y = .ok z ∧
      (z = y ∨ ctx.rounding ≠ .floor ∧ Value.decimal z ctx = (Value.decimal y ctx).unsigned) := by
  cases y with
  | finite s c e =>
    have hfits : ctx.Contains (.finite s c e) := plus_contains hprecision x _ h
    have hstays : ∀ s', ctx.finish s' c e = .ok (.finite s' c e) := fun s' => finish_of_contains (s := s') hfits
    refine ⟨_, hstays _, ?_⟩
    by_cases hc : c = 0
    · subst hc
      by_cases hfloor : ctx.rounding = .floor
      · exact Or.inl (by simp [hfloor])
      · exact Or.inr ⟨hfloor, by simp [hfloor, Value.unsigned]⟩
    · exact Or.inl (by simp [hc])
  | infinite s => exact ⟨_, rfl, Or.inl rfl⟩
  | nan s q p =>
    obtain ⟨rfl, hp⟩ := plus_nan _ h s q p rfl
    refine ⟨.nan s false p, ?_, Or.inl rfl⟩
    show ctx.finishNaN s false p = _
    rw [finishNaN, if_neg (by decide), hp]

end Context

/-! ## Kept values -/

/-- **The value is read again as itself**, up to the sign of a decimal zero. -/
def Modes.Keeps (m : Modes) (v : Value) : Prop :=
  m.normalize v = .ok v ∨ m.rounding ≠ .down ∧ m.normalize v = .ok v.unsigned

/-- A double that is whole, or that the check of doubles refuses. -/
def Value.Stray : Value → Prop
  | .real x => x.isIntegral = true ∨ Double.check x ≠ .ok x
  | _ => False

/-- The value is read again as itself, if it is no stray one of the exact regime. -/
def Modes.Rereads (m : Modes) (v : Value) : Prop := (m.regime = .exact → ¬ v.Stray) → m.Keeps v

namespace Modes

variable {m : Modes}

/-- A decimal that the active context has given is kept. -/
theorem keeps_decimal (hregime : m.regime = .decimal) (hleast : Limit.leastPrecision ≤ m.precision)
    {x y : Decimal} (h : m.context.plus x = .ok y) : m.Keeps (.decimal y m.context) := by
  have hprecision : 0 < m.context.precision := hleast
  obtain ⟨z, hz, hsame⟩ := Context.plus_of_gives hprecision h
  have hnormal : m.normalize (.decimal y m.context) = .ok (.decimal z m.context) := by
    simp only [normalize, normalizeReal, hregime, Value.toDecimal, Value.exactDecimal, ok_bind, Context.entered,
      if_neg (Nat.ne_of_gt hprecision), hz]
    rfl
  rcases hsame with rfl | ⟨hfloor, hsame⟩
  · exact Or.inl hnormal
  · refine Or.inr ⟨fun hdown => hfloor ?_, hsame ▸ hnormal⟩
    rw [Modes.context, hdown]
    rfl

/-- A double that passes the check is kept where doubles are used. -/
theorem keeps_real (hregime : m.regime = .double) {x : Binary} (h : Double.check x = .ok x) : m.Keeps (.real x) := by
  left
  simp only [normalize, normalizeReal, hregime, h, ok_bind]

/-- A double that is no stray is kept in the exact regime. -/
theorem rereads_real (hregime : m.regime ≠ .decimal) {x : Binary} (h : m.regime = .double → Double.check x = .ok x) :
    m.Rereads (.real x) := by
  intro hstray
  cases hm : m.regime with
  | decimal => exact absurd hm hregime
  | double => exact keeps_real hm (h hm)
  | exact =>
    have hx := hstray hm
    rw [Value.Stray, not_or, not_not, Bool.not_eq_true] at hx
    obtain ⟨hwhole, hcheck⟩ := hx
    left
    simp only [normalize, normalizeReal, hm, hcheck, ok_bind, Value.toReal, exactReal, hwhole]
    rfl

/-- An integer is kept in the exact regime. -/
theorem keeps_integer (hregime : m.regime = .exact) (n : Int) : m.Keeps (.integer n) :=
  Or.inl (normalize_integer_of_exact hregime)

/-- A real value is brought into the active regime as one that is kept. -/
theorem normalizeReal_rereads (hleast : Limit.leastPrecision ≤ m.precision) (v : Value)
    (hchecked : ∀ x, v = .real x → Double.check x = .ok x) : Gives m.Rereads (m.normalizeReal v) := by
  unfold normalizeReal
  cases hregime : m.regime with
  | decimal =>
    refine gives_bind.mpr fun y hy => gives_ok.mpr fun _ => ?_
    obtain ⟨x, -, hx⟩ := bind_eq_ok.mp hy
    have hentered := mapError_eq_ok.mp hx
    unfold Context.entered at hentered
    split at hentered
    · cases hentered
    · exact keeps_decimal hregime hleast hentered
  | exact =>
    have hreal : ∀ x, m.Rereads (exactReal x) := by
      intro x
      unfold exactReal
      split
      · exact fun _ => keeps_integer hregime _
      · refine rereads_real (by simp [hregime]) fun hdouble => ?_
        rw [hregime] at hdouble
        cases hdouble
    dsimp only
    split
    · exact gives_ok.mpr fun _ => keeps_integer hregime _
    · exact gives_bind.mpr fun x _ => gives_ok.mpr (hreal x)
  | double =>
    dsimp only
    split
    · exact gives_ok.mpr fun _ => keeps_real hregime (hchecked _ rfl)
    · refine gives_bind.mpr fun x _ => gives_bind.mpr fun y hy => gives_ok.mpr fun _ => ?_
      obtain rfl := eq_of_check hy
      exact keeps_real hregime hy

/-- A complex number that is kept by the policy is kept again. -/
theorem settleComplex_again {z w : Complex} (h : m.settleComplex z = .ok (.inl w)) :
    m.settleComplex w = .ok (.inl w) := by
  have hsame : z = w := by
    unfold settleComplex at h
    split at h
    · obtain ⟨-, -, h⟩ := bind_eq_ok.mp h
      obtain ⟨-, -, h⟩ := bind_eq_ok.mp h
      obtain ⟨-, -, h⟩ := bind_eq_ok.mp h
      obtain ⟨-, -, h⟩ := bind_eq_ok.mp h
      cases h
      rfl
    · cases h
  rwa [← hsame] at h ⊢

/-- **What has been normalized is kept.** -/
theorem normalize_rereads (hleast : Limit.leastPrecision ≤ m.precision) (v : Value) :
    Gives m.Rereads (m.normalize v) := by
  have checked : ∀ {x y : Binary}, Double.check x = .ok y → Gives m.Rereads (m.normalizeReal (.real y)) := by
    intro x y h
    refine normalizeReal_rereads hleast _ fun z hz => ?_
    cases hz
    rwa [← eq_of_check h] at h
  cases v with
  | complex z =>
    refine gives_bind.mpr fun settled hsettled => ?_
    cases settled with
    | inl w =>
      refine gives_ok.mpr fun _ => Or.inl ?_
      rw [normalize, settleComplex_again hsettled]
      rfl
    | inr x => exact gives_bind.mpr fun y hy => checked hy
  | real x => exact gives_bind.mpr fun y hy => checked hy
  | integer n =>
    refine normalizeReal_rereads hleast _ fun z hz => ?_
    cases hz
  | decimal x ctx =>
    refine normalizeReal_rereads hleast _ fun z hz => ?_
    cases hz

/-- **A numeral is read as a value that is kept.** -/
theorem literal_rereads (hleast : Limit.leastPrecision ≤ m.precision) (text : String) :
    Gives m.Rereads (m.literal text) := by
  have hdouble : m.regime ≠ .decimal → Gives m.Rereads (literalDouble text) := by
    intro hregime
    unfold literalDouble
    split
    · refine gives_bind.mpr fun x hx => gives_ok.mpr (rereads_real hregime fun _ => ?_)
      obtain rfl := eq_of_check hx
      exact hx
    · exact gives_error _
  unfold literal
  cases hregime : m.regime with
  | decimal =>
    refine gives_bind.mpr fun x _ => gives_bind.mpr fun y hy => gives_ok.mpr fun _ => ?_
    exact keeps_decimal hregime hleast (mapError_eq_ok.mp hy)
  | exact =>
    refine gives_bind.mpr fun x _ => ?_
    split
    · exact gives_ok.mpr fun _ => keeps_integer hregime _
    · exact hdouble (by simp [hregime])
  | double => exact hdouble (by simp [hregime])

end Modes

end SciCalc
