/-
  What is shown of exact values.

  1. **Telling** (`Decimal.Tells`) — a text tells the number of a decimal in a context if it is the written form of a
     decimal that is the same number and that the context has room for.

  2. **Showing** (`exists_formatDecimal`) — what is shown of a decimal that fits its context tells its number:
     trailing zeros are dropped, and where the decimal is written out no digits are added beyond the precision.

  3. **Reading** (`Decimal.Tells.literal`, `Modes.literal_intText`) — in the decimal regime such a text is read as the
     number, and in the exact regime the numeral of an integer is read as the integer.
-/
import SciCalc.Mode
import SciCalc.Proofs.Decimal.Context
import SciCalc.Proofs.Decimal.Number
import SciCalc.Proofs.Decimal.Text

namespace SciCalc

open Attempt Number

/-! ## Telling -/

namespace Decimal

variable {ctx : Context} {s : Bool} {c : Nat} {e : Int} {text : String} {x y : Decimal}

/-- **The text tells the number of the decimal in the context**, and it can be an expression. -/
def Tells (ctx : Context) (text : String) (x : Decimal) : Prop :=
  ∃ s c e, Written text.toList (.finite s c e) ∧ (finite s c e).number? = x.number? ∧
    ctx.Contains (.finite s c e) ∧ text.length ≤ Limit.inputLength

/-- What tells a number tells it of every decimal that is the number. -/
theorem Tells.of_number? (h : Tells ctx text x) (hnumber : x.number? = y.number?) : Tells ctx text y := by
  obtain ⟨s, c, e, hwritten, hsame, hfits, hlength⟩ := h
  exact ⟨s, c, e, hwritten, hsame.trans hnumber, hfits, hlength⟩

/-- A zero tells the number of every zero. -/
theorem tells_zero (hprecision : 0 < ctx.precision) (s : Bool) (e : Int) : Tells ctx "0" (.finite s 0 e) := by
  refine ⟨false, 0, 0, ?_, ?_, ⟨hprecision, ?_, by decide⟩, by decide⟩
  · exact written_intChars 0
  · rw [number?_zero, number?_zero]
  · rw [Context.tiny, Context.minExponent]
    omega

/-- The form with an exponent is short. -/
theorem tells_text (hmost : ctx.precision ≤ Limit.greatestPrecision) (h : ctx.Contains (.finite s c e)) :
    Tells ctx (Decimal.text (.finite s c e)) (.finite s c e) := by
  refine ⟨s, c, e, ?_, rfl, h, ?_⟩
  · rw [Decimal.text, String.toList_ofList]
    exact written_chars s c e
  · obtain ⟨hdigits, hleast, hrange⟩ := h
    rw [Limit.greatestPrecision] at hmost
    rw [Context.tiny, Context.minExponent] at hleast
    rw [Context.maxExponent] at hrange
    have hcount := length_digits c
    rw [Decimal.text, String.length_ofList, Limit.inputLength]
    unfold chars
    dsimp only
    split
    · rename_i hpositional
      have hlead := of_decide_eq_true (Bool.and_eq_true_iff.mp hpositional).2
      have hsigned := length_signed_le s (withPoint (digits c) (-e).toNat)
      have hpoint := length_withPoint_le (digits c) (-e).toNat
      omega
    · have hsigned := length_signed_le s (withPoint (digits c) ((digits c).length - 1) ++
        'E' :: (if e + (digits c).length - 1 < 0 then '-' else '+') ::
          digits (e + (digits c).length - 1).natAbs)
      have hpoint := length_withPoint_le (digits c) ((digits c).length - 1)
      have hexponent : digitCount (e + (digits c).length - 1).natAbs ≤ 7 := by
        rw [digitCount_le_iff (by omega)]
        omega
      rw [← length_digits] at hexponent
      rw [List.length_append, List.length_cons, List.length_cons] at hsigned
      omega

/-- The form without an exponent adds no digits beyond the precision. -/
theorem tells_fixed (hmost : ctx.precision ≤ Limit.greatestPrecision) (hc : c ≠ 0)
    (h : ctx.Contains (.finite s c e)) (hlow : -7 < (finite s c e).adjusted)
    (hhigh : (finite s c e).adjusted < ctx.precision) :
    Tells ctx (fixed (.finite s c e)) (.finite s c e) := by
  rw [Limit.greatestPrecision] at hmost
  have hcount := length_digits c
  rw [adjusted] at hlow hhigh
  by_cases he : 0 ≤ e
  · obtain ⟨k, rfl⟩ := Int.eq_ofNat_of_zero_le he
    have hzeros := digitCount_mul_pow hc k
    refine ⟨s, c * 10 ^ k, 0, ?_, ?_, ⟨?_, ?_, ?_⟩, ?_⟩
    · rw [fixed, String.toList_ofList]
      exact written_fixedChars_of_nonneg he s c
    · rw [number?_mul_pow, Int.zero_add]
    · omega
    · rw [Context.tiny, Context.minExponent]
      omega
    · rw [Context.maxExponent]
      omega
    · have hsigned := length_signed_le s (digits c ++ List.replicate k '0')
      rw [List.length_append, List.length_replicate] at hsigned
      rw [fixed, String.length_ofList, fixedChars, if_pos he, if_neg hc, Limit.inputLength]
      show (signed s (digits c ++ List.replicate k '0')).length ≤ 10000
      omega
  · have he := Int.not_le.mp he
    refine ⟨s, c, e, ?_, rfl, h, ?_⟩
    · rw [fixed, String.toList_ofList]
      exact written_fixedChars_of_neg he s c
    · obtain ⟨hdigits, -, -⟩ := h
      have hsigned := length_signed_le s (withPoint (digits c) (-e).toNat)
      have hpoint := length_withPoint_le (digits c) (-e).toNat
      rw [fixed, String.length_ofList, fixedChars, if_neg (Int.not_le.mpr he), Limit.inputLength]
      omega

end Decimal

/-! ## Showing -/

section

open Decimal

variable {ctx : Context} {s : Bool} {c : Nat} {e : Int} {text : String}

/-- What is shown of a decimal depends on it without its trailing zeros. -/
theorem formatDecimal_eq (hleast : Limit.leastPrecision ≤ ctx.precision) {x y : Decimal}
    (h : (Context.mk ctx.precision .halfEven).normalize x = .ok y) :
    formatDecimal x ctx.precision =
      .ok (if y.isZero then "0" else if !y.isFinite then y.text
        else if -7 < y.adjusted && y.adjusted < ctx.precision then y.fixed else y.text) := by
  have hentered : ctx.precision ≠ 0 := Nat.ne_of_gt hleast
  unfold formatDecimal
  dsimp only
  rw [h, Context.entered, if_neg hentered]
  show (if y.isZero then Except.ok "0" else if !y.isFinite then .ok y.text
    else if -7 < y.adjusted && y.adjusted < ctx.precision then .ok y.fixed else .ok y.text) = _
  split
  · rfl
  split
  · rfl
  · split <;> rfl

/-- **What is shown of a decimal that fits its context tells its number.** -/
theorem exists_formatDecimal (hleast : Limit.leastPrecision ≤ ctx.precision)
    (hmost : ctx.precision ≤ Limit.greatestPrecision) (h : ctx.Contains (.finite s c e)) :
    ∃ text, formatDecimal (.finite s c e) ctx.precision = .ok text ∧ Tells ctx text (.finite s c e) := by
  have hsame : (Context.mk ctx.precision .halfEven).Contains (.finite s c e) := h
  by_cases hc : c = 0
  · subst hc
    have hnormal : (Context.mk ctx.precision .halfEven).normalize (.finite s 0 e) = .ok (.finite s 0 0) := by
      rw [Context.normalize, Context.fit, Context.finish_of_contains hsame]
      rfl
    exact ⟨"0", formatDecimal_eq hleast hnormal, tells_zero hleast s e⟩
  · obtain ⟨d, k, hnormal, hcoefficient, hfits⟩ := Context.exists_normalize_of_contains hc hsame
    have hd : d ≠ 0 := by
      rintro rfl
      exact hc (hcoefficient.trans (Nat.zero_mul _))
    have hnumber : (finite s d (e + k)).number? = (finite s c e).number? := by
      rw [hcoefficient, number?_mul_pow]
    have hshown := formatDecimal_eq hleast hnormal
    have hzero : (finite s d (e + k)).isZero = false := decide_eq_false hd
    rw [hzero, if_neg Bool.false_ne_true, Decimal.isFinite, Bool.not_true, if_neg Bool.false_ne_true] at hshown
    refine ⟨_, hshown, Tells.of_number? ?_ hnumber⟩
    split
    · rename_i hwritten
      obtain ⟨hlow, hhigh⟩ := Bool.and_eq_true_iff.mp hwritten
      exact tells_fixed hmost hd hfits (of_decide_eq_true hlow) (of_decide_eq_true hhigh)
    · exact tells_text hmost hfits

/-! ## Reading -/

variable {m : Modes} {x : Decimal}

/-- **In the decimal regime a text is read as the number that it tells.** -/
theorem Decimal.Tells.literal (hm : m.regime = .decimal) (hmost : m.precision ≤ Limit.greatestPrecision)
    (h : Tells m.context text x) :
    ∃ s c e, m.literal text = .ok (.decimal (.finite s c e) m.context) ∧
      (finite s c e).number? = x.number? ∧ m.context.Contains (.finite s c e) := by
  obtain ⟨s, c, e, hwritten, hnumber, hfits, -⟩ := h
  obtain ⟨s', hplus, hsign⟩ := Context.plus_of_contains hfits
  have hreadable : readable c e = true := by
    obtain ⟨hdigits, hleast, hrange⟩ := hfits
    rw [Limit.greatestPrecision] at hmost
    rw [Context.tiny, Context.minExponent, Modes.context] at hleast
    rw [Context.maxExponent] at hrange
    refine Bool.and_eq_true_iff.mpr ⟨decide_eq_true ?_, decide_eq_true ?_⟩
    · dsimp only at hleast
      omega
    · omega
  have hread := hwritten.read hreadable
  rw [String.ofList_toList] at hread
  refine ⟨s', c, e, ?_, ?_, hfits⟩
  · simp only [Modes.literal, hm, hread, hplus, ofFault, Except.mapError, ok_bind, pure_eq_ok]
  · rw [← hnumber]
    -- only a zero loses its sign
    by_cases hc : c = 0
    · rw [hc, number?_zero, number?_zero]
    · rw [hsign hc]

/-- **In the exact regime the numeral of an integer is read as the integer**, if it can be an expression. -/
theorem Modes.literal_intText (hm : m.regime = .exact) {n : Int} (hlength : (intText n).length ≤ Limit.inputLength) :
    m.literal (intText n) = .ok (.integer n) := by
  have hcount : digitCount n.natAbs ≤ Limit.inputLength := by
    rw [← length_digits]
    refine Nat.le_trans ?_ hlength
    rw [intText, String.length_ofList, intChars]
    split
    · exact Nat.le_succ _
    · exact Nat.le_refl _
  rw [Limit.inputLength] at hcount
  have hreadable : readable n.natAbs 0 = true := by
    refine Bool.and_eq_true_iff.mpr ⟨by decide, decide_eq_true ?_⟩
    omega
  have hread : Decimal.read (intText n) = .ok (.ofInt n) := (written_intChars n).read hreadable
  have hexact : exactInteger? (.ofInt n) = some n := by
    have hadjusted : (Decimal.ofInt n).adjusted ≤ Limit.integerExponent := by
      rw [Decimal.ofInt, adjusted, Limit.integerExponent]
      omega
    rw [exactInteger?, decide_eq_true hadjusted]
    show (Decimal.ofInt n).toInt? = some n
    show some (if decide (n < 0) then -((n.natAbs : Int) * 10 ^ 0) else (n.natAbs : Int) * 10 ^ 0) = some n
    refine congrArg some ?_
    rw [Int.pow_zero, Int.mul_one]
    split
    · rename_i hn
      have hn := of_decide_eq_true hn
      omega
    · rename_i hn
      have hn := of_decide_eq_false (Bool.eq_false_iff.mpr hn)
      omega
  simp only [Modes.literal, hm, hread, ofFault, Except.mapError, ok_bind, hexact, pure_eq_ok]

end

end SciCalc
