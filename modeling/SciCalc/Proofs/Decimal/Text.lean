/-
  Decimals in writing.

  1. **Written forms** (`Written`) — a minus sign in front of a negative number, and a numeral of the coefficient
     and the exponent.

  2. **Writing** (`written_chars`, `written_fixedChars_of_neg`, `written_intChars`) — what is written for a finite
     decimal is a written form of it; without an exponent a decimal is written as one with the exponent zero.

  3. **Reading** (`Written.read`) — a written form of a decimal is read as that decimal.
-/
import SciCalc.Proofs.Number.Digits
import SciCalc.Proofs.Token.Lexeme
import SciCalc.Proofs.Token.Numeral

namespace SciCalc

open Number Text

/-! ## Written forms -/

namespace Decimal

/-- **The characters are a written form of the decimal.** -/
inductive Written : List Char → Decimal → Prop where
  | intro {ds : List Char} {s : Bool} {c : Nat} {e : Int} : Numeral ds c e → Written (signed s ds) (.finite s c e)

variable {ds : List Char} {s : Bool} {c : Nat} {e : Int}

/-! ## Writing -/

/-- A point in a row of digits divides it into a whole part and a fraction of so many places. -/
theorem exists_mantissa_withPoint (hne : ds ≠ []) (hds : Digits ds) (places : Nat) :
    ∃ whole fraction, Mantissa (withPoint ds places) whole fraction ∧ fraction.length = places ∧
      Number.ofDigits (whole ++ fraction) = Number.ofDigits ds := by
  unfold withPoint
  split
  · rename_i hplaces
    exact ⟨ds, [], .whole hne hds, hplaces.symm, congrArg Number.ofDigits (List.append_nil ds)⟩
  split
  · rename_i hlength
    -- all digits stand behind the point, with zeros in front of them
    have hzeros : Digits (List.replicate (places - ds.length) '0') := by
      intro c hc
      rw [(List.mem_replicate.mp hc).2]
      decide
    have hfraction : Digits (List.replicate (places - ds.length) '0' ++ ds) :=
      List.forall_mem_append.mpr ⟨hzeros, hds⟩
    refine ⟨['0'], _, .point (List.cons_ne_nil _ _) (List.forall_mem_singleton.mpr (by decide)) hfraction, ?_, ?_⟩
    · show (List.replicate (places - ds.length) '0' ++ ds).length = places
      rw [List.length_append, List.length_replicate]
      omega
    · exact ofDigits_zeros_append (places - ds.length + 1) ds
  · rename_i hplaces hlength
    have hsplit : ds.take (ds.length - places) ++ ds.drop (ds.length - places) = ds := List.take_append_drop _ _
    refine ⟨_, _, .point ?_ (fun c hc => hds c (List.mem_of_mem_take hc))
      (fun c hc => hds c (List.mem_of_mem_drop hc)), ?_, congrArg Number.ofDigits hsplit⟩
    · intro hnil
      have := congrArg List.length hnil
      rw [List.length_take, List.length_nil] at this
      omega
    · rw [List.length_drop]
      omega

/-- A row of digits with a point is a numeral. -/
theorem numeral_withPoint (c places : Nat) : Numeral (withPoint (digits c) places) c (-places) := by
  obtain ⟨whole, fraction, hmantissa, hplaces, hvalue⟩ :=
    exists_mantissa_withPoint (digits_ne_nil c) isDigit_of_mem_digits places
  have hnumeral := Numeral.intro hmantissa .none
  rwa [List.append_nil, hvalue, ofDigits_digits, hplaces, Int.zero_sub] at hnumeral

/-- **What shows the coefficient and the exponent of a finite decimal is a written form of it.** -/
theorem written_chars (s : Bool) (c : Nat) (e : Int) : Written (chars (.finite s c e)) (.finite s c e) := by
  unfold chars
  dsimp only
  split
  · rename_i hpositional
    obtain ⟨he, -⟩ := Bool.and_eq_true_iff.mp hpositional
    have he := of_decide_eq_true he
    have hnumeral := numeral_withPoint c (-e).toNat
    rw [show -(((-e).toNat : Nat) : Int) = e by omega] at hnumeral
    exact .intro hnumeral
  · obtain ⟨whole, fraction, hmantissa, hplaces, hvalue⟩ :=
      exists_mantissa_withPoint (digits_ne_nil c) isDigit_of_mem_digits ((digits c).length - 1)
    have hlength := List.length_pos_iff.mpr (digits_ne_nil c)
    generalize hlead : e + (digits c).length - 1 = lead
    have hpower : Power ('E' :: (if lead < 0 then '-' else '+') :: digits lead.natAbs) lead := by
      refine .marked (Or.inr rfl) ?_
      split
      · have hwhole := Whole.intro .minus (digits_ne_nil lead.natAbs) isDigit_of_mem_digits
        rw [ofDigits_digits, if_pos rfl, show -((lead.natAbs : Nat) : Int) = lead by omega] at hwhole
        exact hwhole
      · have hwhole := Whole.intro .plus (digits_ne_nil lead.natAbs) isDigit_of_mem_digits
        rw [ofDigits_digits, if_neg Bool.false_ne_true, show ((lead.natAbs : Nat) : Int) = lead by omega] at hwhole
        exact hwhole
    have hnumeral := Numeral.intro hmantissa hpower
    rw [hvalue, ofDigits_digits, hplaces, show lead - (((digits c).length - 1 : Nat) : Int) = e by omega]
      at hnumeral
    exact .intro hnumeral

/-- Without an exponent a decimal with a fraction is written as it is. -/
theorem written_fixedChars_of_neg (he : e < 0) (s : Bool) (c : Nat) :
    Written (fixedChars (.finite s c e)) (.finite s c e) := by
  have hnumeral := numeral_withPoint c (-e).toNat
  rw [show -(((-e).toNat : Nat) : Int) = e by omega] at hnumeral
  rw [fixedChars, if_neg (Int.not_le.mpr he)]
  exact .intro hnumeral

/-- Without an exponent a whole decimal is written with all its zeros. -/
theorem written_fixedChars_of_nonneg (he : 0 ≤ e) (s : Bool) (c : Nat) :
    Written (fixedChars (.finite s c e)) (.finite s (c * 10 ^ e.toNat) 0) := by
  rw [fixedChars, if_pos he]
  refine .intro ?_
  split
  · rename_i hc
    rw [hc, Nat.zero_mul]
    exact .intro (.whole (List.cons_ne_nil '0' []) (List.forall_mem_singleton.mpr (by decide))) .none
  · have hdigits : Digits (digits c ++ List.replicate e.toNat '0') := by
      refine List.forall_mem_append.mpr ⟨isDigit_of_mem_digits, fun d hd => ?_⟩
      rw [(List.mem_replicate.mp hd).2]
      decide
    have hnumeral := Numeral.intro
      (.whole (List.append_ne_nil_of_left_ne_nil (digits_ne_nil c) _) hdigits) .none
    have hvalue : Number.ofDigits (digits c ++ List.replicate e.toNat '0') = c * 10 ^ e.toNat := by
      rw [Number.ofDigits, ofDigitsFrom_append, ← Number.ofDigits, ofDigits_digits, ofDigitsFrom_zeros]
    rw [List.append_nil, hvalue] at hnumeral
    exact hnumeral

/-- An integer is written as a decimal with the exponent zero. -/
theorem written_intChars (n : Int) : Written (intChars n) (.ofInt n) := by
  have hnumeral : Numeral (digits n.natAbs) n.natAbs 0 := numeral_withPoint n.natAbs 0
  have hchars : intChars n = signed (decide (n < 0)) (digits n.natAbs) := by
    unfold intChars signed
    by_cases hn : n < 0 <;> simp [hn]
  rw [hchars]
  exact .intro hnumeral

/-- A point adds at most two characters to the digits or to the places behind it. -/
theorem length_withPoint_le (ds : List Char) (places : Nat) :
    (withPoint ds places).length ≤ max ds.length places + 2 := by
  unfold withPoint
  split
  · omega
  split
  · show (List.replicate (places - ds.length) '0' ++ ds).length + 2 ≤ _
    rw [List.length_append, List.length_replicate]
    omega
  · rw [List.length_append, List.length_cons, List.length_take, List.length_drop]
    omega

theorem length_signed_le (s : Bool) (ds : List Char) : (signed s ds).length ≤ ds.length + 1 := by
  unfold signed
  split
  · exact Nat.le_refl _
  · omega

end Decimal

/-! ## Reading -/

namespace Text

variable {cs : List Char} {d : Char}

/-- A character of a numeral, or of a sign in front of it. -/
def IsNumeric (d : Char) : Prop := isDigit d = true ∨ d ∈ ['.', 'e', 'E', '+', '-']

/-- The characters of a numeral are no blanks and no underscores, and they stay as they are. -/
theorem IsNumeric.plain (h : IsNumeric d) : isBlank d = false ∧ d ≠ '_' ∧ asciiDigits [d] = [d] := by
  rcases h with hdigit | hmem
  · exact of_isDigit (p := fun d => isBlank d = false ∧ d ≠ '_' ∧ asciiDigits [d] = [d]) (by decide +kernel) hdigit
  · have hall : (['.', 'e', 'E', '+', '-'].all fun d =>
        isBlank d = false ∧ d ≠ '_' ∧ asciiDigits [d] = [d]) = true := by decide
    exact of_decide_eq_true (List.all_eq_true.mp hall d hmem)

/-- A numeral has no other characters. -/
theorem Numeral.isNumeric {ds : List Char} {n : Nat} {k : Int} (h : Numeral ds n k) : ∀ d ∈ ds, IsNumeric d := by
  have digits : ∀ {ds : List Char}, Digits ds → ∀ d ∈ ds, IsNumeric d := fun hds d hd => Or.inl (hds d hd)
  obtain ⟨hmantissa, hpower⟩ := h
  refine List.forall_mem_append.mpr ⟨fun d hd => ?_, ?_⟩
  · obtain ⟨-, hnumber⟩ := Token.isNumberPart_of_mantissa hmantissa
    rcases Bool.or_eq_true_iff.mp (hnumber d hd) with hdigit | hpoint
    · exact Or.inl hdigit
    · rw [of_decide_eq_true hpoint]
      exact Or.inr (by decide)
  · cases hpower with
    | none => nofun
    | marked hmark hwhole =>
      obtain ⟨hsign, -, hds⟩ := hwhole
      refine List.forall_mem_cons.mpr ⟨?_, List.forall_mem_append.mpr ⟨?_, digits hds⟩⟩
      · rcases hmark with rfl | rfl <;> exact Or.inr (by decide)
      · cases hsign with
        | none => nofun
        | plus => exact List.forall_mem_singleton.mpr (Or.inr (by decide))
        | minus => exact List.forall_mem_singleton.mpr (Or.inr (by decide))

/-- Nothing is trimmed from a text without blanks. -/
theorem trimChars_of_solid (h : ∀ d ∈ cs, isBlank d = false) : trimChars cs = cs := by
  have stops : ∀ {ds : List Char}, (∀ d ∈ ds, isBlank d = false) → ds.head?.any isBlank = false := by
    intro ds hds
    cases ds with
    | nil => rfl
    | cons d ds => exact hds d List.mem_cons_self
  rw [trimChars, trimLeft, dropWhile_of_stops (stops h), trimRight,
    dropWhile_of_stops (stops fun d hd => h d (List.mem_reverse.mp hd)), List.reverse_reverse]

/-- A text of digits and signs is read as it stands. -/
theorem filter_asciiDigits_trimChars (h : ∀ d ∈ cs, IsNumeric d) :
    (asciiDigits (trimChars cs)).filter (· ≠ '_') = cs := by
  have hsame : asciiDigits cs = cs := by
    refine (List.map_congr_left fun d hd => ?_).trans (List.map_id cs)
    exact (List.cons.inj (h d hd).plain.2.2).1
  rw [trimChars_of_solid fun d hd => (h d hd).plain.1, hsame]
  exact List.filter_eq_self.mpr fun d hd => decide_eq_true (h d hd).plain.2.1

end Text

/-- **A written form is read as the decimal** that it is one of, and not at all if its exponent cannot be read. -/
theorem Decimal.Written.read_eq_ok_iff {cs : List Char} {s : Bool} {c : Nat} {e : Int}
    (h : Written cs (.finite s c e)) {x : Decimal} :
    Decimal.read (String.ofList cs) = .ok x ↔ readable c e = true ∧ x = .finite s c e := by
  cases h with
  | @intro ds _ _ _ hnumeral =>
    have hnumeric : ∀ d ∈ signed s ds, IsNumeric d := by
      unfold signed
      split
      · exact List.forall_mem_cons.mpr ⟨Or.inr (by decide), hnumeral.isNumeric⟩
      · exact hnumeral.isNumeric
    obtain ⟨d, ds, rfl, hd⟩ := Token.exists_cons_of_numeral hnumeral
    have hsign : takeSign (signed s (d :: ds)) = (s, d :: ds) := by
      cases s with
      | true => rfl
      | false => exact takeSign_of_isNumberPart hd ds
    rw [Decimal.read, String.toList_ofList, filter_asciiDigits_trimChars hnumeric, readPlain_of_takeSign hsign hd,
      readUnsigned?_eq_some_iff.mpr hnumeral]
    dsimp only
    split
    · rename_i hreadable
      rw [Except.ok.injEq, eq_comm]
      exact (and_iff_right hreadable).symm
    · rename_i hnot
      constructor
      · intro h
        cases h
      · intro h
        exact absurd h.1 hnot

theorem Decimal.Written.read {cs : List Char} {s : Bool} {c : Nat} {e : Int} (h : Written cs (.finite s c e))
    (hreadable : readable c e = true) : Decimal.read (String.ofList cs) = .ok (.finite s c e) :=
  h.read_eq_ok_iff.mpr ⟨hreadable, rfl⟩

end SciCalc
