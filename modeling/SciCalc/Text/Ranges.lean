/-
  Character classes as ascending lists of closed ranges of code points.

  A class of characters is DATA of the Unicode standard (version 14 throughout this library): a list
  of ranges `(first, last)`.  This file has the one operation on such a list, membership, and the
  check that a list is a table at all (`Ascending`: every range is inhabited and ends below the next).
-/

namespace SciCalc.Text

/-- `inRanges rs n`: the code point `n` lies in one of the closed ranges `rs`. -/
def inRanges (rs : List (Nat × Nat)) (n : Nat) : Bool :=
  rs.any fun r => r.1 ≤ n && n ≤ r.2

/-- Every range is inhabited and ends below the start of the next one. -/
def Ascending : List (Nat × Nat) → Prop
  | [] => True
  | [r] => r.1 ≤ r.2
  | r :: s :: rest => r.1 ≤ r.2 ∧ r.2 < s.1 ∧ Ascending (s :: rest)

instance : (rs : List (Nat × Nat)) → Decidable (Ascending rs)
  | [] => isTrue trivial
  | [r] => inferInstanceAs (Decidable (r.1 ≤ r.2))
  | r :: s :: rest =>
    have : Decidable (Ascending (s :: rest)) := instDecidableAscending (s :: rest)
    inferInstanceAs (Decidable (r.1 ≤ r.2 ∧ r.2 < s.1 ∧ Ascending (s :: rest)))

end SciCalc.Text
