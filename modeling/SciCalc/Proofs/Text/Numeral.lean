/-
  The grammar of decimal numerals.

  1. **Runs** (`takeWhile_append_of_stops`) — a run of characters ends where one of another kind, or nothing,
     follows.

  2. **Grammar** (`Mantissa`, `Power`, `Numeral`) — digits with at most one point and a digit on one side of it,
     then perhaps an exponent.  Each part comes with what it denotes.

  3. **Reading** (`readUnsigned?_eq_some_iff`) — the numerals of the grammar are exactly the texts that are read,
     and each is read as the number that it denotes.
-/
import SciCalc.Binary.Reading

namespace SciCalc.Text

/-! ## Runs -/

section

variable {α : Type} {p : α → Bool} {run rest : List α}

/-- A run ends where something of another kind, or nothing, follows. -/
theorem takeWhile_append_of_stops (hrun : ∀ a ∈ run, p a = true) (stops : rest.head?.any p = false) :
    (run ++ rest).takeWhile p = run := by
  rw [List.takeWhile_append_of_pos hrun]
  cases rest with
  | nil => exact List.append_nil run
  | cons a rest =>
    have ha : ¬ p a = true := Bool.eq_false_iff.mp stops
    rw [List.takeWhile_cons_of_neg ha]
    exact List.append_nil run

/-- Nothing is dropped where no run begins. -/
theorem dropWhile_of_stops (stops : rest.head?.any p = false) : rest.dropWhile p = rest := by
  cases rest with
  | nil => rfl
  | cons a rest => exact List.dropWhile_cons_of_neg (Bool.eq_false_iff.mp stops)

theorem dropWhile_append_of_stops (hrun : ∀ a ∈ run, p a = true) (stops : rest.head?.any p = false) :
    (run ++ rest).dropWhile p = rest := by
  rw [List.dropWhile_append_of_pos hrun]
  exact dropWhile_of_stops stops

/-- What follows the longest run is of another kind. -/
theorem stops_dropWhile (p : α → Bool) (as : List α) : (as.dropWhile p).head?.any p = false := by
  induction as with
  | nil => rfl
  | cons a as ih =>
    by_cases h : p a = true
    · rw [List.dropWhile_cons_of_pos h]
      exact ih
    · rw [List.dropWhile_cons_of_neg h]
      exact Bool.eq_false_iff.mpr h

theorem forall_mem_takeWhile (p : α → Bool) (as : List α) : ∀ a ∈ as.takeWhile p, p a = true :=
  List.all_eq_true.mp List.all_takeWhile

end

/-! ## Grammar -/

/-- A row of ASCII digits. -/
def Digits (cs : List Char) : Prop := ∀ c ∈ cs, isDigit c = true

/-- A letter in front of an exponent. -/
def IsMark (c : Char) : Prop := c = 'e' ∨ c = 'E'

instance (c : Char) : Decidable (IsMark c) := inferInstanceAs (Decidable (c = 'e' ∨ c = 'E'))

/-- The characters are digits with at most one point, and there are digits on one side of it: those of the whole
    part, and those of the fraction. -/
inductive Mantissa : List Char → List Char → List Char → Prop where
  | whole {ds : List Char} : ds ≠ [] → Digits ds → Mantissa ds ds []
  | point {ds fs : List Char} : ds ≠ [] → Digits ds → Digits fs → Mantissa (ds ++ '.' :: fs) ds fs
  | fraction {fs : List Char} : fs ≠ [] → Digits fs → Mantissa ('.' :: fs) [] fs

/-- The characters are a sign or none; the flag tells whether it is negative. -/
inductive Sign : List Char → Bool → Prop where
  | none : Sign [] false
  | plus : Sign ['+'] false
  | minus : Sign ['-'] true

/-- The characters are perhaps a sign, and digits. -/
inductive Whole : List Char → Int → Prop where
  | intro {sign ds : List Char} {negative : Bool} : Sign sign negative → ds ≠ [] → Digits ds →
      Whole (sign ++ ds) (if negative then -(Number.ofDigits ds : Int) else Number.ofDigits ds)

/-- The characters are a written exponent, or there are none. -/
inductive Power : List Char → Int → Prop where
  | none : Power [] 0
  | marked {mark : Char} {cs : List Char} {k : Int} : IsMark mark → Whole cs k → Power (mark :: cs) k

/-- **The characters are an unsigned decimal numeral** that denotes `c · 10 ^ k`. -/
inductive Numeral : List Char → Nat → Int → Prop where
  | intro {mantissa power whole fraction : List Char} {k : Int} : Mantissa mantissa whole fraction →
      Power power k →
      Numeral (mantissa ++ power) (Number.ofDigits (whole ++ fraction)) (k - fraction.length)

theorem digits_iff_all {cs : List Char} : Digits cs ↔ cs.all isDigit = true := List.all_eq_true.symm

theorem not_isDigit_of_isMark {c : Char} (h : IsMark c) : isDigit c = false := by
  rcases h with rfl | rfl <;> decide

/-- An exponent does not continue the digits in front of it. -/
theorem Power.stops {cs : List Char} {k : Int} (h : Power cs k) : cs.head?.any isDigit = false := by
  cases h with
  | none => rfl
  | marked hmark _ => exact not_isDigit_of_isMark hmark

theorem Power.head?_ne_point {cs : List Char} {k : Int} (h : Power cs k) : cs.head? ≠ some '.' := by
  cases h with
  | none => nofun
  | marked hmark _ =>
    rintro heq
    cases heq
    exact absurd hmark (by decide)

/-! ## Reading -/

/-- A sign is taken from a row of digits. -/
theorem takeSign_append {sign ds : List Char} {negative : Bool} (h : Sign sign negative) (hds : Digits ds) :
    takeSign (sign ++ ds) = (negative, ds) := by
  cases h with
  | plus => rfl
  | minus => rfl
  | none =>
    rw [List.nil_append]
    unfold takeSign
    split
    · exact absurd (hds '-' List.mem_cons_self) (by decide)
    · exact absurd (hds '+' List.mem_cons_self) (by decide)
    · rfl

/-- What is in front of the characters behind a sign is the sign. -/
theorem exists_sign_of_takeSign {cs ds : List Char} {negative : Bool} (h : takeSign cs = (negative, ds)) :
    ∃ sign, Sign sign negative ∧ cs = sign ++ ds := by
  unfold takeSign at h
  split at h <;> cases h
  · exact ⟨['-'], .minus, rfl⟩
  · exact ⟨['+'], .plus, rfl⟩
  · exact ⟨[], .none, rfl⟩

/-- **A whole number with a sign is read as what it denotes**, and nothing else is. -/
theorem readExponent?_eq_some_iff {cs : List Char} {k : Int} : readExponent? cs = some k ↔ Whole cs k := by
  constructor
  · intro h
    rw [readExponent?] at h
    generalize hsign : takeSign cs = signed at h
    obtain ⟨negative, ds⟩ := signed
    obtain ⟨sign, hs, rfl⟩ := exists_sign_of_takeSign hsign
    dsimp only at h
    split at h
    · cases h
    · rename_i hrow
      rw [Bool.or_eq_true, List.isEmpty_iff, Bool.not_eq_true', not_or, Bool.not_eq_false,
        ← digits_iff_all] at hrow
      cases h
      exact .intro hs hrow.1 hrow.2
  · rintro ⟨hs, hne, hds⟩
    rw [readExponent?, takeSign_append hs hds]
    dsimp only
    rw [if_neg]
    rw [Bool.or_eq_true, List.isEmpty_iff, Bool.not_eq_true', not_or, Bool.not_eq_false, ← digits_iff_all]
    exact ⟨hne, hds⟩

/-- What is read behind the mantissa: the number that is denoted, if `c` are the digits of the mantissa and so
    many of them are behind the point. -/
def readPower? (c places : Nat) : List Char → Option (Nat × Int)
  | [] => some (c, -(places : Int))
  | mark :: power =>
    if mark = 'e' || mark = 'E' then (readExponent? power).map fun k => (c, k - places) else none

theorem readPower?_eq_some_iff {c places d : Nat} {k : Int} {cs : List Char} :
    readPower? c places cs = some (d, k) ↔ c = d ∧ Power cs (k + places) := by
  cases cs with
  | nil =>
    simp only [readPower?, Option.some.injEq, Prod.mk.injEq]
    refine and_congr_right fun _ => ⟨?_, ?_⟩
    · rintro rfl
      rw [Int.add_left_neg]
      exact .none
    · intro h
      generalize hk : k + places = j at h
      cases h
      omega
  | cons mark power =>
    simp only [readPower?, Bool.or_eq_true, decide_eq_true_eq]
    split
    · rename_i hmark
      simp only [Option.map_eq_some_iff, readExponent?_eq_some_iff, Prod.mk.injEq]
      constructor
      · rintro ⟨j, hj, hc, rfl⟩
        rw [Int.sub_add_cancel]
        exact ⟨hc, .marked hmark hj⟩
      · rintro ⟨hc, hpower⟩
        cases hpower with
        | marked _ hwhole =>
          exact ⟨k + places, hwhole, hc, Int.add_sub_cancel k places⟩
    · rename_i hmark
      refine ⟨nofun, ?_⟩
      rintro ⟨-, hpower⟩
      cases hpower with
      | marked hm _ => exact absurd hm hmark

/-- The digits behind a point, and what follows them; there are none without a point. -/
def fractionPart : List Char → List Char × List Char
  | '.' :: rest => (rest.takeWhile isDigit, rest.dropWhile isDigit)
  | rest => ([], rest)

theorem readUnsigned?_eq (cs : List Char) :
    readUnsigned? cs =
      let whole := cs.takeWhile isDigit
      let (fraction, rest) := fractionPart (cs.dropWhile isDigit)
      if whole.isEmpty && fraction.isEmpty then none
      else readPower? (Number.ofDigits (whole ++ fraction)) fraction.length rest := by
  have happend : ∀ whole fraction, Number.ofDigits (whole ++ fraction) =
      Number.ofDigitsFrom (Number.ofDigits whole) fraction := fun _ _ => List.foldl_append
  simp only [happend]
  rfl

theorem fractionPart_of_ne {cs : List Char} (h : cs.head? ≠ some '.') : fractionPart cs = ([], cs) := by
  unfold fractionPart
  split
  · exact absurd rfl h
  · rfl

theorem fractionPart_append {fs rest : List Char} (hfs : Digits fs) (stops : rest.head?.any isDigit = false) :
    fractionPart ('.' :: (fs ++ rest)) = (fs, rest) := by
  rw [fractionPart, takeWhile_append_of_stops hfs stops, dropWhile_append_of_stops hfs stops]

/-- Behind its mantissa a numeral is read as an exponent. -/
theorem readUnsigned?_append {mantissa whole fraction rest : List Char} (h : Mantissa mantissa whole fraction)
    (stops : rest.head?.any isDigit = false) (point : rest.head? ≠ some '.') :
    readUnsigned? (mantissa ++ rest) = readPower? (Number.ofDigits (whole ++ fraction)) fraction.length rest := by
  rw [readUnsigned?_eq]
  cases h with
  | whole hne hds =>
    rw [takeWhile_append_of_stops hds stops, dropWhile_append_of_stops hds stops, fractionPart_of_ne point]
    dsimp only
    rw [List.isEmpty_eq_false_iff.mpr hne]
    rfl
  | point hne hds hfs =>
    have hpoint : ('.' :: (fraction ++ rest)).head?.any isDigit = false := rfl
    rw [List.append_assoc, List.cons_append, takeWhile_append_of_stops hds hpoint,
      dropWhile_append_of_stops hds hpoint, fractionPart_append hfs stops]
    dsimp only
    rw [List.isEmpty_eq_false_iff.mpr hne]
    rfl
  | fraction hne hfs =>
    rw [List.cons_append, List.takeWhile_cons_of_neg (by decide), List.dropWhile_cons_of_neg (by decide),
      fractionPart_append hfs stops]
    dsimp only
    rw [List.isEmpty_eq_false_iff.mpr hne]
    rfl

/-- The digits in front of a point and behind it are a mantissa, if there are any. -/
theorem exists_mantissa {cs fraction rest : List Char} (h : fractionPart (cs.dropWhile isDigit) = (fraction, rest))
    (hne : ¬ ((cs.takeWhile isDigit).isEmpty && fraction.isEmpty) = true) :
    ∃ mantissa, Mantissa mantissa (cs.takeWhile isDigit) fraction ∧ cs = mantissa ++ rest := by
  have hsplit : cs.takeWhile isDigit ++ cs.dropWhile isDigit = cs := List.takeWhile_append_dropWhile
  have hwhole : Digits (cs.takeWhile isDigit) := forall_mem_takeWhile isDigit cs
  rw [Bool.and_eq_true, List.isEmpty_iff, List.isEmpty_iff, not_and] at hne
  generalize cs.takeWhile isDigit = whole at hsplit hwhole hne
  unfold fractionPart at h
  split at h
  · rename_i behind hpoint
    cases h
    have hfraction : Digits (behind.takeWhile isDigit) := forall_mem_takeWhile isDigit behind
    have hbehind : behind.takeWhile isDigit ++ behind.dropWhile isDigit = behind :=
      List.takeWhile_append_dropWhile
    rw [hpoint] at hsplit
    by_cases hw : whole = []
    · subst hw
      refine ⟨_, .fraction (hne rfl) hfraction, ?_⟩
      rw [List.cons_append, hbehind, ← hsplit]
      rfl
    · refine ⟨_, .point hw hwhole hfraction, ?_⟩
      rw [List.append_assoc, List.cons_append, hbehind, hsplit]
  · cases h
    refine ⟨whole, .whole (fun hw => hne hw rfl) hwhole, hsplit.symm⟩

/-- **The unsigned numerals are the texts that are read as one**, each as the number that it denotes. -/
theorem readUnsigned?_eq_some_iff {cs : List Char} {c : Nat} {k : Int} :
    readUnsigned? cs = some (c, k) ↔ Numeral cs c k := by
  constructor
  · intro h
    rw [readUnsigned?_eq] at h
    dsimp only at h
    generalize hfraction : fractionPart (cs.dropWhile isDigit) = parts at h
    obtain ⟨fraction, rest⟩ := parts
    dsimp only at h
    split at h
    · cases h
    · rename_i hne
      obtain ⟨mantissa, hmantissa, hcs⟩ := exists_mantissa hfraction hne
      obtain ⟨rfl, hpower⟩ := readPower?_eq_some_iff.mp h
      have hnumeral := Numeral.intro hmantissa hpower
      rwa [← hcs, Int.add_sub_cancel] at hnumeral
  · rintro ⟨hmantissa, hpower⟩
    rw [readUnsigned?_append hmantissa hpower.stops hpower.head?_ne_point, readPower?_eq_some_iff,
      Int.sub_add_cancel]
    exact ⟨rfl, hpower⟩

end SciCalc.Text
