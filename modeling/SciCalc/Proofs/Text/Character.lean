/-
  Small classes of characters.

  The blanks are few, so what holds of all of them is decided by going through them (`of_isBlank`); the same
  goes for the ASCII digits (`of_isDigit`).
-/
import SciCalc.Text.Blank
import SciCalc.Text.Numeral

namespace SciCalc.Text

/-- The code points of closed ranges, one by one. -/
def codePoints (ranges : List (Nat × Nat)) : List Nat :=
  ranges.flatMap fun r => List.range' r.1 (r.2 + 1 - r.1)

theorem mem_codePoints {ranges : List (Nat × Nat)} {n : Nat} :
    n ∈ codePoints ranges ↔ inRanges ranges n = true := by
  simp only [codePoints, inRanges, List.mem_flatMap, List.any_eq_true, List.mem_range'_1, Bool.and_eq_true,
    decide_eq_true_eq]
  exact exists_congr fun r => and_congr_right fun _ => by omega

variable {c : Char} {p : Char → Prop}

/-- What holds of the characters with the code points of a table holds of each one. -/
theorem of_mem_codePoints {ranges : List (Nat × Nat)} (hall : ∀ n ∈ codePoints ranges, p (Char.ofNat n))
    (h : inRanges ranges c.toNat = true) : p c := by
  rw [← Char.ofNat_toNat c]
  exact hall _ (mem_codePoints.mpr h)

/-- **What holds of all blanks holds of each one.** -/
theorem of_isBlank (hall : ∀ n ∈ codePoints blankRanges, p (Char.ofNat n)) (h : isBlank c = true) : p c :=
  of_mem_codePoints hall h

/-- **What holds of all ASCII digits holds of each one.** -/
theorem of_isDigit (hall : ∀ n ∈ codePoints [('0'.toNat, '9'.toNat)], p (Char.ofNat n)) (h : isDigit c = true) :
    p c := by
  refine of_mem_codePoints hall ?_
  rw [inRanges, List.any_cons, List.any_nil, Bool.or_false]
  exact h

/-- No blank is a digit. -/
theorem isDigit_of_isBlank (h : isBlank c = true) : isDigit c = false :=
  of_isBlank (p := fun c => isDigit c = false) (by decide +kernel) h

end SciCalc.Text
