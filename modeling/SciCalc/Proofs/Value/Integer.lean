/-
  Numerals of integers of any size.

  1. **One numeral** (`IsNumeral.eq_digits`) — a number has one numeral: its digits without zeros in front.  A
     numeral has as many digits as are counted (`IsNumeral.length_eq`), and rows of digits of one length that are
     read as one number are the same row (`eq_of_ofDigits`).

  2. **Cutting** (`IsNumeral.append`, `zeroFilled_spec`) — the numeral of the front part with as many digits behind
     it as are cut off is the numeral of the number.  The part that is cut off never takes more digits than that,
     and the front part is not zero, so that no zero comes to stand in front.

  3. **Theorem** (`exists_writtenDigits`, `Value.format_integer_numeral`) — by induction on the number, which both
     parts are smaller than: every integer is shown by its numeral.
-/
import SciCalc.Proofs.Number.Digits
import SciCalc.Value.Display

namespace SciCalc

namespace Number

variable {cs ds : List Char} {m n : Nat}

/-! ## One numeral -/

/-- **The characters are the numeral of a natural number**: digits, with no zero in front of others. -/
structure IsNumeral (ds : List Char) (n : Nat) : Prop where
  /-- There are digits. -/
  ne_nil : ds ≠ []
  /-- There is nothing else. -/
  digit : ∀ c ∈ ds, Text.isDigit c = true
  /-- They are read as the number. -/
  value : ofDigits ds = n
  /-- A zero in front stands alone. -/
  leading : ds.head? = some '0' → ds = ['0']

theorem digitValue_lt {c : Char} (h : Text.isDigit c = true) : Text.digitValue c < 10 := by
  simp only [Text.isDigit, Bool.and_eq_true, decide_eq_true_eq] at h
  have hle : c.toNat ≤ '9'.toNat := UInt32.le_iff_toNat_le.mp (Char.le_def.mp h.2)
  have hnine : '9'.toNat = '0'.toNat + 9 := rfl
  unfold Text.digitValue
  omega

/-- A digit is known by its value. -/
theorem eq_of_digitValue {c d : Char} (hc : Text.isDigit c = true) (hd : Text.isDigit d = true)
    (h : Text.digitValue c = Text.digitValue d) : c = d := by
  simp only [Text.isDigit, Bool.and_eq_true, decide_eq_true_eq] at hc hd
  have hzero : '0'.toNat ≤ c.toNat := UInt32.le_iff_toNat_le.mp (Char.le_def.mp hc.1)
  have hzero' : '0'.toNat ≤ d.toNat := UInt32.le_iff_toNat_le.mp (Char.le_def.mp hd.1)
  unfold Text.digitValue at h
  exact Char.toNat_inj.mp (by omega)

/-- Digits are read behind a number as behind a zero, with the number in front. -/
theorem ofDigitsFrom_eq (n : Nat) (cs : List Char) : ofDigitsFrom n cs = n * 10 ^ cs.length + ofDigits cs := by
  induction cs generalizing n with
  | nil => exact (Nat.mul_one n).symm
  | cons c cs ih =>
    show ofDigitsFrom (10 * n + Text.digitValue c) cs = _ + ofDigitsFrom (10 * 0 + Text.digitValue c) cs
    rw [ih, ih (10 * 0 + _), List.length_cons, Nat.pow_succ', Nat.mul_zero, Nat.zero_add, Nat.add_mul, Nat.add_assoc,
      Nat.mul_comm 10 n, Nat.mul_assoc]

theorem ofDigits_cons (c : Char) (cs : List Char) :
    ofDigits (c :: cs) = Text.digitValue c * 10 ^ cs.length + ofDigits cs := by
  show ofDigitsFrom (10 * 0 + Text.digitValue c) cs = _
  rw [ofDigitsFrom_eq, Nat.mul_zero, Nat.zero_add]

/-- A row of digits is read as a number with no more digits. -/
theorem ofDigits_lt (h : ∀ c ∈ cs, Text.isDigit c = true) : ofDigits cs < 10 ^ cs.length := by
  induction cs with
  | nil => exact Nat.one_pos
  | cons c cs ih =>
    obtain ⟨hc, hcs⟩ := List.forall_mem_cons.mp h
    have hrest := ih hcs
    have hfirst : (Text.digitValue c + 1) * 10 ^ cs.length ≤ 10 * 10 ^ cs.length :=
      Nat.mul_le_mul_right _ (digitValue_lt hc)
    rw [ofDigits_cons, List.length_cons, Nat.pow_succ']
    rw [Nat.add_mul, Nat.one_mul] at hfirst
    omega

/-- **Rows of digits of one length that are read as one number are the same.** -/
theorem eq_of_ofDigits (hcs : ∀ c ∈ cs, Text.isDigit c = true) (hds : ∀ d ∈ ds, Text.isDigit d = true)
    (hlength : cs.length = ds.length) (h : ofDigits cs = ofDigits ds) : cs = ds := by
  induction cs generalizing ds with
  | nil => exact (List.eq_nil_of_length_eq_zero hlength.symm).symm
  | cons c cs ih =>
    cases ds with
    | nil => cases hlength
    | cons d ds =>
      obtain ⟨hc, hcs⟩ := List.forall_mem_cons.mp hcs
      obtain ⟨hd, hds⟩ := List.forall_mem_cons.mp hds
      have hlength : cs.length = ds.length := Nat.succ.inj hlength
      rw [ofDigits_cons, ofDigits_cons, hlength] at h
      have hbelow : ofDigits cs < 10 ^ ds.length := hlength ▸ ofDigits_lt hcs
      -- the first digit is the quotient by a power of ten, and the others are the remainder
      have hfirst : Text.digitValue c = Text.digitValue d := by
        have := congrArg (· / 10 ^ ds.length) h
        simpa [Nat.mul_comm _ (10 ^ ds.length), Nat.mul_add_div (Nat.pow_pos (by omega : 0 < 10)),
          Nat.div_eq_of_lt hbelow, Nat.div_eq_of_lt (ofDigits_lt hds)] using this
      rw [hfirst] at h
      rw [eq_of_digitValue hc hd hfirst, ih hcs hds hlength (Nat.add_left_cancel h)]

/-- **A numeral has as many digits as are counted.** -/
theorem IsNumeral.length_eq (h : IsNumeral ds n) : ds.length = digitCount n := by
  obtain ⟨hne, hdigit, rfl, hleading⟩ := h
  cases ds with
  | nil => exact absurd rfl hne
  | cons c cs =>
    obtain ⟨hc, -⟩ := List.forall_mem_cons.mp hdigit
    by_cases hzero : c = '0'
    · rw [hleading (congrArg some hzero)]
      rfl
    · have hfirst : 0 < Text.digitValue c := by
        refine Nat.pos_of_ne_zero fun hvalue => hzero ?_
        exact eq_of_digitValue hc (by decide) (hvalue.trans (by decide))
      have hlower : 10 ^ cs.length ≤ ofDigits (c :: cs) := by
        rw [ofDigits_cons]
        exact Nat.le_add_right_of_le (Nat.le_mul_of_pos_left _ hfirst)
      refine Nat.le_antisymm ?_ ((digitCount_le_iff (Nat.succ_pos _)).mpr (ofDigits_lt hdigit))
      -- one digit fewer would be too few
      rcases Nat.eq_zero_or_pos cs.length with hlength | hpos
      · rw [List.length_cons, hlength]
        exact digitCount_pos (Nat.ne_of_gt (Nat.lt_of_lt_of_le (Nat.pow_pos (by omega)) hlower))
      · refine Nat.succ_le_of_lt (Nat.lt_of_not_le fun hfew => ?_)
        have := (digitCount_le_iff hpos).mp hfew
        omega

/-- The digits of a number are its numeral. -/
theorem isNumeral_digits (n : Nat) : IsNumeral (digits n) n := by
  refine ⟨digits_ne_nil n, isDigit_of_mem_digits, ofDigits_digits n, fun hhead => ?_⟩
  by_cases hn : n = 0
  · rw [hn]
    rfl
  · obtain ⟨cs, hcs⟩ := List.head?_eq_some_iff.mp hhead
    have hdigit := isDigit_of_mem_digits (n := n)
    have hvalue := ofDigits_digits n
    have hlength := length_digits n
    rw [hcs] at hdigit hvalue hlength
    -- a zero in front would leave too few digits for the number
    have hbelow := ofDigits_lt (List.forall_mem_cons.mp hdigit).2
    have hleast := pow_le_of_digitCount hn
    rw [← hlength, List.length_cons, Nat.add_sub_cancel] at hleast
    have hrest : ofDigits ('0' :: cs) = ofDigits cs := ofDigits_zeros_append 1 cs
    omega

/-- **A number has one numeral.** -/
theorem IsNumeral.eq_digits (h : IsNumeral ds n) : ds = digits n :=
  eq_of_ofDigits h.digit isDigit_of_mem_digits (h.length_eq.trans (length_digits n).symm)
    (h.value.trans (ofDigits_digits n).symm)

/-! ## Cutting -/

/-- Digits behind the numeral of a number that is not zero are a numeral with it. -/
theorem IsNumeral.append (h : IsNumeral ds m) (hm : m ≠ 0) (hcs : ∀ c ∈ cs, Text.isDigit c = true) :
    IsNumeral (ds ++ cs) (m * 10 ^ cs.length + ofDigits cs) where
  ne_nil := List.append_ne_nil_of_left_ne_nil h.ne_nil cs
  digit := List.forall_mem_append.mpr ⟨h.digit, hcs⟩
  value := by rw [ofDigits, ofDigitsFrom_append, ← ofDigits, h.value, ofDigitsFrom_eq]
  leading hhead := by
    have hfirst : ds.head? = some '0' := by
      cases ds with
      | nil => exact absurd rfl h.ne_nil
      | cons d ds => exact hhead
    have hvalue := h.value
    rw [h.leading hfirst] at hvalue
    exact absurd hvalue.symm hm

/-- The numeral of a number of so many digits at most, filled up with zeros, has that many digits and is read as
    the number. -/
theorem zeroFilled_spec {width : Nat} (h : IsNumeral ds n) (hlength : ds.length ≤ width) :
    (∀ c ∈ zeroFilled width ds, Text.isDigit c = true) ∧ (zeroFilled width ds).length = width ∧
      ofDigits (zeroFilled width ds) = n := by
  refine ⟨List.forall_mem_append.mpr ⟨fun c hc => ?_, h.digit⟩, ?_, ?_⟩
  · rw [List.eq_of_mem_replicate hc]
    rfl
  · rw [zeroFilled, List.length_append, List.length_replicate]
    omega
  · rw [zeroFilled, ofDigits_zeros_append, h.value]

/-- A number that is written at once has no more digits than are allowed. -/
theorem directDigits_eq (h : n < directBound) : directDigits n = .ok (digits n) := by
  have hcount : digitCount n ≤ directCount := (digitCount_le_iff (by decide +kernel)).mpr h
  exact if_neg (Nat.not_lt.mpr (Nat.le_trans hcount (by decide +kernel)))

/-- **The numeral of a number that is cut** is that of its front part, which is not zero, with as many digits
    behind it as are cut off; the part that is cut off never takes more. -/
theorem IsNumeral.cut {fs bs : List Char} (front : IsNumeral fs (n / 10 ^ cutCount n)) (h : directBound ≤ n)
    (back : IsNumeral bs (n % 10 ^ cutCount n)) :
    bs.length ≤ cutCount n ∧ IsNumeral (fs ++ zeroFilled (cutCount n) bs) n := by
  have hpos : 0 < 10 ^ cutCount n := Nat.pow_pos (by omega)
  have hlength : bs.length ≤ cutCount n := by
    rw [back.length_eq]
    exact (digitCount_le_iff (cutCount_spec h).1).mpr (Nat.mod_lt n hpos)
  obtain ⟨hdigit, hwidth, hvalue⟩ := zeroFilled_spec back hlength
  have hfront : n / 10 ^ cutCount n ≠ 0 := Nat.ne_of_gt (Nat.div_pos (pow_cutCount_le h) hpos)
  have hnumeral := front.append hfront hdigit
  rw [hwidth, hvalue, Nat.div_add_mod'] at hnumeral
  exact ⟨hlength, hnumeral⟩

/-! ## Theorem -/

/-- **A natural number of any size is written as its numeral.** -/
theorem exists_writtenDigits (n : Nat) : ∃ ds, writtenDigits n = .ok ds ∧ IsNumeral ds n := by
  induction n using Nat.strongRecOn with
  | ind n ih =>
    rw [writtenDigits]
    split
    · rename_i hsmall
      exact ⟨_, directDigits_eq hsmall, isNumeral_digits n⟩
    · rename_i hlarge
      have hle := Nat.not_lt.mp hlarge
      obtain ⟨fs, hfs, front⟩ := ih _ (parts_lt hle).1
      obtain ⟨bs, hbs, back⟩ := ih _ (parts_lt hle).2
      simp only [hfs, hbs]
      exact ⟨_, rfl, (front.cut hle back).2⟩

/-- What is written is the row of digits. -/
theorem writtenDigits_eq (n : Nat) : writtenDigits n = .ok (digits n) := by
  obtain ⟨ds, hwritten, hnumeral⟩ := exists_writtenDigits n
  rw [hwritten, hnumeral.eq_digits]

end Number

namespace Value

/-- An integer is shown by its sign and its digits. -/
theorem format_integer (digits : Nat) (n : Int) : (integer n).format digits = .ok (Number.intText n) := by
  rw [format, Number.writtenDigits_eq]
  rfl

/-- **Every integer is shown by its numeral**, however large it is: a minus sign exactly if it is negative, and the
    one row of digits without zeros in front that is read as its magnitude.  For this the digits of a large number
    are cut in two as long as there are more than can be written at once.  Both parts are smaller than the number
    and are written; the front part is not zero, and the part that is cut off takes no more digits than its place
    has, which it fills up with zeros. -/
theorem format_integer_numeral (digits : Nat) (n : Int) :
    (∃ ds, Number.writtenDigits n.natAbs = .ok ds ∧
      (integer n).format digits = .ok (String.ofList ((if n < 0 then ['-'] else []) ++ ds)) ∧
      (∀ c ∈ ds, Text.isDigit c = true) ∧ Number.ofDigits ds = n.natAbs ∧
      (ds.head? = some '0' → n = 0 ∧ ds = ['0']) ∧ ∀ es, Number.IsNumeral es n.natAbs ↔ es = ds) ∧
    ∀ m, Number.directBound ≤ m →
      let count := Number.cutCount m
      0 < m / 10 ^ count ∧ m / 10 ^ count < m ∧ m % 10 ^ count < m ∧
        ∃ front back, Number.writtenDigits (m / 10 ^ count) = .ok front ∧
          Number.writtenDigits (m % 10 ^ count) = .ok back ∧ back.length ≤ count ∧
          (Number.zeroFilled count back).length = count ∧
          Number.writtenDigits m = .ok (front ++ Number.zeroFilled count back) := by
  constructor
  · have hnumeral := Number.isNumeral_digits n.natAbs
    refine ⟨Number.digits n.natAbs, Number.writtenDigits_eq _, ?_, hnumeral.digit, hnumeral.value, fun hzero => ?_,
      fun es => ⟨Number.IsNumeral.eq_digits, fun h => h ▸ hnumeral⟩⟩
    · rw [format_integer, Number.intText, Number.intChars]
      split <;> rfl
    · have hvalue := hnumeral.value
      rw [hnumeral.leading hzero] at hvalue
      exact ⟨Int.natAbs_eq_zero.mp hvalue.symm, hnumeral.leading hzero⟩
  · intro m hm count
    have hpos : 0 < 10 ^ count := Nat.pow_pos (by omega)
    obtain ⟨fs, hfs, front⟩ := Number.exists_writtenDigits (m / 10 ^ count)
    obtain ⟨bs, hbs, back⟩ := Number.exists_writtenDigits (m % 10 ^ count)
    obtain ⟨hlength, hnumeral⟩ := front.cut hm back
    refine ⟨Nat.div_pos (Number.pow_cutCount_le hm) hpos, (Number.parts_lt hm).1, (Number.parts_lt hm).2, fs, bs,
      hfs, hbs, hlength, (Number.zeroFilled_spec back hlength).2.1, ?_⟩
    rw [Number.writtenDigits_eq, hnumeral.eq_digits]

end Value

end SciCalc
