/-
  The first token of a text.

  1. **Numbers** (`numberPart_append_iff`) — a numeral is all that is taken from a text as a number exactly if
     what follows it neither continues it nor begins with an exponent (`Ends`).

  2. **Tokens** (`Reads`) — one rule for each kind of token says which characters it may have in front of
     which rest.  The first token of a text follows the rules (`exists_reads_of_lexeme`), and what follows them is
     the first token of the text (`Reads.lexeme_eq_ok`).

  3. **What stands behind a token** (`Reads.closes`) — a token is read in the same way if the text ends somewhere
     behind it, and if a blank comes to stand directly behind it.
-/
import SciCalc.Proofs.Operator.Symbol
import SciCalc.Proofs.Text.Character
import SciCalc.Proofs.Text.Numeral
import SciCalc.Token.Lexer

namespace SciCalc.Token

open Text

/-! ## Characters -/

variable {c : Char}

theorem isNumberPart_of_isDigit (h : isDigit c = true) : isNumberPart c = true := by
  rw [isNumberPart, h, Bool.true_or]

/-- No name begins with a character of a number. -/
theorem isNameStart_of_isNumberPart (h : isNumberPart c = true) : isNameStart c = false := by
  rcases Bool.or_eq_true_iff.mp h with hdigit | hpoint
  · exact of_isDigit (p := fun c => isNameStart c = false) (by decide +kernel) hdigit
  · rw [of_decide_eq_true hpoint]
    decide

theorem isNumberPart_of_isNameStart (h : isNameStart c = true) : isNumberPart c = false := by
  rw [← Bool.not_eq_true]
  intro hnumber
  rw [isNameStart_of_isNumberPart hnumber] at h
  cases h

theorem isNumberPart_of_isBlank (h : isBlank c = true) : isNumberPart c = false :=
  of_isBlank (p := fun c => isNumberPart c = false) (by decide +kernel) h

theorem isNamePart_of_isBlank (h : isBlank c = true) : isNamePart c = false :=
  of_isBlank (p := fun c => isNamePart c = false) (by decide +kernel) h

/-- A character of a class without blanks is no blank. -/
theorem isBlank_eq_false_of {p : Char → Bool} (hp : ∀ {b : Char}, isBlank b = true → p b = false)
    (h : p c = true) : isBlank c = false := by
  rw [← Bool.not_eq_true]
  intro hblank
  rw [hp hblank] at h
  cases h

/-- A character of a name is no blank. -/
theorem isBlank_of_isNamePart (h : isNamePart c = true) : isBlank c = false :=
  isBlank_eq_false_of isNamePart_of_isBlank h

theorem not_isMark_of_isBlank (h : isBlank c = true) : ¬ IsMark c :=
  of_isBlank (p := fun c => ¬ IsMark c) (by decide +kernel) h

/-! ## Numbers -/

/-- An exponent goes as far as its digits. -/
theorem exponentPart_marked {mark : Char} {sign ds : List Char} {negative : Bool} (hmark : IsMark mark)
    (hsign : Sign sign negative) (hds : ds.head?.any isDigit = true) :
    exponentPart (mark :: (sign ++ ds)) = mark :: (sign ++ ds.takeWhile isDigit) := by
  cases ds with
  | nil => cases hds
  | cons d ds =>
    have hd : isDigit d = true := hds
    have hrun : (d :: ds).takeWhile isDigit = d :: ds.takeWhile isDigit := List.takeWhile_cons_of_pos hd
    have hletter : (decide (mark = 'e') || decide (mark = 'E')) = true := by
      rw [Bool.or_eq_true, decide_eq_true_eq, decide_eq_true_eq]
      exact hmark
    cases hsign with
    | none =>
      have hnone : ¬ (decide (d = '+') || decide (d = '-')) = true := by
        rw [Bool.or_eq_true, decide_eq_true_eq, decide_eq_true_eq]
        rintro (rfl | rfl) <;> exact absurd hd (by decide)
      rw [List.nil_append, exponentPart, if_pos hletter, if_neg hnone, hrun]
      rfl
    | plus =>
      rw [List.singleton_append, exponentPart, if_pos hletter, if_pos (by decide), hrun]
      rfl
    | minus =>
      rw [List.singleton_append, exponentPart, if_pos hletter, if_pos (by decide), hrun]
      rfl

/-- A text that begins with an exponent begins with a mark, perhaps a sign, and a digit. -/
theorem exists_of_exponentPart_ne_nil {cs : List Char} (h : exponentPart cs ≠ []) :
    ∃ mark sign negative ds, IsMark mark ∧ Sign sign negative ∧ ds.head?.any isDigit = true ∧
      cs = mark :: (sign ++ ds) := by
  have digit : ∀ {ds : List Char}, ds.takeWhile isDigit ≠ [] → ds.head?.any isDigit = true := by
    intro ds hds
    cases ds with
    | nil => exact absurd rfl hds
    | cons d ds =>
      cases hd : isDigit d with
      | true => exact hd
      | false => exact absurd (List.takeWhile_cons_of_neg (Bool.eq_false_iff.mp hd)) hds
  unfold exponentPart at h
  split at h
  · rename_i mark sign rest
    split at h
    · rename_i hmark
      rw [Bool.or_eq_true, decide_eq_true_eq, decide_eq_true_eq] at hmark
      split at h
      · rename_i hsign
        rw [Bool.or_eq_true, decide_eq_true_eq, decide_eq_true_eq] at hsign
        split at h
        · exact absurd rfl h
        · rename_i hrun
          have hdigits := digit hrun
          rcases hsign with rfl | rfl
          · exact ⟨mark, ['+'], false, rest, hmark, .plus, hdigits, rfl⟩
          · exact ⟨mark, ['-'], true, rest, hmark, .minus, hdigits, rfl⟩
      · split at h
        · exact absurd rfl h
        · rename_i hrun
          exact ⟨mark, [], false, sign :: rest, hmark, .none, digit hrun, rfl⟩
    · exact absurd rfl h
  · exact absurd rfl h

/-- An exponent at the beginning of a text is one of the text's characters in front of others. -/
theorem exponentPart_front (cs : List Char) : exponentPart cs <+: cs := by
  by_cases h : exponentPart cs = []
  · rw [h]
    exact List.nil_prefix
  · obtain ⟨mark, sign, negative, ds, hmark, hsign, hds, rfl⟩ := exists_of_exponentPart_ne_nil h
    rw [exponentPart_marked hmark hsign hds]
    refine List.cons_prefix_cons.mpr ⟨rfl, (List.prefix_append_right_inj sign).mpr ?_⟩
    exact List.takeWhile_prefix isDigit

/-- Where a text goes on after an exponent, it begins with one all the same. -/
theorem exponentPart_eq_nil_of_front {cs ds : List Char} (hfront : cs <+: ds) (h : exponentPart ds = []) :
    exponentPart cs = [] := by
  by_cases hnil : exponentPart cs = []
  · exact hnil
  obtain ⟨mark, sign, negative, run, hmark, hsign, hrun, rfl⟩ := exists_of_exponentPart_ne_nil hnil
  obtain ⟨rest, rfl⟩ := hfront
  have hlonger : (run ++ rest).head?.any isDigit = true := by
    cases run with
    | nil => cases hrun
    | cons d run => exact hrun
  rw [List.cons_append, List.append_assoc, exponentPart_marked hmark hsign hlonger] at h
  cases h

/-- No exponent begins with a blank. -/
theorem exponentPart_of_isBlank {b : Char} (hb : isBlank b = true) (cs : List Char) :
    exponentPart (b :: cs) = [] := by
  by_cases hnil : exponentPart (b :: cs) = []
  · exact hnil
  obtain ⟨mark, sign, negative, run, hmark, -, -, heq⟩ := exists_of_exponentPart_ne_nil hnil
  rw [(List.cons.inj heq).1] at hb
  exact absurd hmark (not_isMark_of_isBlank hb)

/-- A number is what the text has in front. -/
theorem numberPart_front (cs : List Char) : numberPart cs <+: cs := by
  have hsplit : cs.takeWhile isNumberPart ++ cs.dropWhile isNumberPart = cs := List.takeWhile_append_dropWhile
  conv => rhs; rw [← hsplit]
  exact (List.prefix_append_right_inj _).mpr (exponentPart_front _)

/-- The characters of a mantissa are those that a number without exponent is made of, and there are some. -/
theorem isNumberPart_of_mantissa {mantissa whole fraction : List Char} (h : Mantissa mantissa whole fraction) :
    mantissa ≠ [] ∧ ∀ c ∈ mantissa, isNumberPart c = true := by
  have digits : ∀ {ds : List Char}, Digits ds → ∀ c ∈ ds, isNumberPart c = true :=
    fun hds c hc => isNumberPart_of_isDigit (hds c hc)
  cases h with
  | whole hne hds => exact ⟨hne, digits hds⟩
  | point hne hds hfs =>
    refine ⟨List.append_ne_nil_of_left_ne_nil hne _, List.forall_mem_append.mpr ⟨digits hds, ?_⟩⟩
    exact List.forall_mem_cons.mpr ⟨rfl, digits hfs⟩
  | fraction hne hfs => exact ⟨List.cons_ne_nil _ _, List.forall_mem_cons.mpr ⟨rfl, digits hfs⟩⟩

/-- The rest does not continue a numeral that has the exponent. -/
def Ends : List Char → List Char → Prop
  | [], rest => rest.head?.any isNumberPart = false ∧ exponentPart rest = []
  | _ :: _, rest => rest.head?.any isDigit = false

/-- A row of digits is followed by digits exactly if the rest begins with one. -/
theorem takeWhile_eq_nil_iff {p : Char → Bool} {cs : List Char} :
    cs.takeWhile p = [] ↔ cs.head?.any p = false := by
  cases cs with
  | nil => exact iff_of_true rfl rfl
  | cons c cs =>
    show List.takeWhile p (c :: cs) = [] ↔ p c = false
    by_cases h : p c = true
    · rw [List.takeWhile_cons_of_pos h, h]
      exact iff_of_false (List.cons_ne_nil _ _) (by decide)
    · rw [List.takeWhile_cons_of_neg h]
      exact iff_of_true rfl (Bool.eq_false_iff.mpr h)

/-- **A numeral is all of the number that a text begins with** exactly if the rest does not continue it. -/
theorem numberPart_append_iff {mantissa whole fraction power : List Char} {k : Int}
    (hmantissa : Mantissa mantissa whole fraction) (hpower : Power power k) (rest : List Char) :
    numberPart (mantissa ++ power ++ rest) = mantissa ++ power ↔ Ends power rest := by
  obtain ⟨-, hnumber⟩ := isNumberPart_of_mantissa hmantissa
  rw [numberPart, List.append_assoc, List.takeWhile_append_of_pos hnumber, List.dropWhile_append_of_pos hnumber,
    List.append_assoc, List.append_cancel_left_eq]
  cases hpower with
  | none =>
    rw [List.nil_append, List.append_eq_nil_iff, takeWhile_eq_nil_iff]
    refine and_congr_right fun stops => ?_
    rw [dropWhile_of_stops stops]
  | @marked mark cs k hmark hwhole =>
    cases hwhole with
    | @intro sign ds negative hsign hne hds =>
      have hdue : ∀ more : List Char, (ds ++ more).head?.any isDigit = true := by
        intro more
        cases ds with
        | nil => exact absurd rfl hne
        | cons d ds => exact hds d List.mem_cons_self
      have hstop : isNumberPart mark = false := by
        rcases hmark with rfl | rfl <;> decide
      rw [List.cons_append, List.takeWhile_cons_of_neg (Bool.eq_false_iff.mp hstop),
        List.dropWhile_cons_of_neg (Bool.eq_false_iff.mp hstop), List.append_assoc,
        exponentPart_marked hmark hsign (hdue rest), List.takeWhile_append_of_pos hds, List.nil_append,
        List.cons_inj_right, List.append_cancel_left_eq, List.append_right_eq_self, takeWhile_eq_nil_iff]
      exact Iff.rfl

/-! ## Tokens -/

variable {v : Vocabulary} {complex due : Bool}

/-- **The characters are a token in front of the rest**: one of the kind begins with them, and it ends where the
    rest begins. -/
inductive Reads (v : Vocabulary) (complex due : Bool) : TokenKind → List Char → List Char → Prop where
  | number {ds rest : List Char} {n : Nat} {k : Int} : Numeral ds n k → numberPart (ds ++ rest) = ds →
      Reads v complex due .number ds rest
  /-- A number takes the minus sign in front of it where an operand is due. -/
  | negative {ds rest : List Char} {n : Nat} {k : Int} : due = true → Numeral ds n k →
      numberPart (ds ++ rest) = ds → Reads v complex due .number ('-' :: ds) rest
  | name {c : Char} {cs rest : List Char} : isNameStart c = true → (∀ d ∈ cs, isNamePart d = true) →
      rest.head?.any isNamePart = false →
      Reads v complex due (classify v complex (String.ofList (c :: cs))) (c :: cs) rest
  | leftParen {rest : List Char} : Reads v complex due .leftParen ['('] rest
  | rightParen {rest : List Char} : Reads v complex due .rightParen [')'] rest
  | comma {rest : List Char} : Reads v complex due .comma [','] rest
  /-- A symbol begins with a character that begins nothing else. -/
  | operator {symbol : String} {c : Char} {cs rest : List Char} : symbol.toList = c :: cs →
      v.operators.longestSymbol (symbol.toList ++ rest) = some symbol → isNumberPart c = false →
      isFolded due c (cs ++ rest) = false → isNameStart c = false → c ∉ ['(', ')', ','] →
      Reads v complex due .operator symbol.toList rest

theorem isFolded_of_ne (h : c ≠ '-') (due : Bool) (rest : List Char) : isFolded due c rest = false := by
  rw [isFolded, decide_eq_false h]
  rfl

theorem isFolded_of_isNameStart (h : isNameStart c = true) (due : Bool) (rest : List Char) :
    isFolded due c rest = false := by
  refine isFolded_of_ne ?_ due rest
  rintro rfl
  exact absurd h (by decide)

/-- A numeral is read as a number. -/
theorem readNumber_eq_ok_iff {position : Nat} {sign cs ds : List Char} {kind : TokenKind} :
    readNumber position sign cs = .ok (kind, ds) ↔
      kind = .number ∧ ds = sign ++ numberPart cs ∧ ∃ n k, Numeral (numberPart cs) n k := by
  unfold readNumber
  dsimp only
  split
  · rename_i number hread
    obtain ⟨n, k⟩ := number
    rw [Except.ok.injEq, Prod.mk.injEq, eq_comm, eq_comm (b := ds)]
    exact and_congr_right fun _ => (and_iff_left ⟨n, k, readUnsigned?_eq_some_iff.mp hread⟩).symm
  · rename_i hnone
    refine ⟨nofun, ?_⟩
    rintro ⟨-, -, n, k, hnumeral⟩
    rw [readUnsigned?_eq_some_iff.mpr hnumeral] at hnone
    cases hnone

/-- A numeral begins with a digit or a point. -/
theorem exists_cons_of_numeral {ds : List Char} {n : Nat} {k : Int} (h : Numeral ds n k) :
    ∃ c cs, ds = c :: cs ∧ isNumberPart c = true := by
  cases h with
  | @intro mantissa power _ _ _ hmantissa _ =>
    obtain ⟨hne, hnumber⟩ := isNumberPart_of_mantissa hmantissa
    cases mantissa with
    | nil => exact absurd rfl hne
    | cons c cs => exact ⟨c, cs ++ power, rfl, hnumber c List.mem_cons_self⟩

/-- The first token of a text is one in front of the rest. -/
theorem exists_reads_of_lexeme (separable : v.operators.Separable) {position : Nat} {rest cs : List Char}
    {kind : TokenKind} (h : lexeme v complex due position c rest = .ok (kind, cs)) :
    ∃ rest', c :: rest = cs ++ rest' ∧ Reads v complex due kind cs rest' := by
  unfold lexeme at h
  split at h
  · obtain ⟨rfl, rfl, n, k, hnumeral⟩ := readNumber_eq_ok_iff.mp h
    obtain ⟨rest', hrest⟩ := numberPart_front (c :: rest)
    refine ⟨rest', hrest.symm, .number hnumeral ?_⟩
    rw [List.nil_append, hrest]
  rename_i hnumber
  split at h
  · rename_i hfolded
    obtain ⟨hminus, -⟩ := Bool.and_eq_true_iff.mp hfolded
    obtain ⟨hminus, hdue⟩ := Bool.and_eq_true_iff.mp hminus
    obtain ⟨rfl, rfl, n, k, hnumeral⟩ := readNumber_eq_ok_iff.mp h
    obtain ⟨rest', hrest⟩ := numberPart_front rest
    rw [of_decide_eq_true hminus]
    refine ⟨rest', congrArg _ hrest.symm, .negative hdue hnumeral (congrArg numberPart hrest)⟩
  rename_i hfolded
  split at h
  · rename_i hname
    cases h
    refine ⟨rest.dropWhile isNamePart, congrArg _ List.takeWhile_append_dropWhile.symm, ?_⟩
    exact .name hname (forall_mem_takeWhile isNamePart rest) (stops_dropWhile isNamePart rest)
  rename_i hname
  split at h
  · rename_i hparen
    cases h
    exact ⟨rest, rfl, hparen ▸ .leftParen⟩
  rename_i hleft
  split at h
  · rename_i hparen
    cases h
    exact ⟨rest, rfl, hparen ▸ .rightParen⟩
  rename_i hright
  split at h
  · rename_i hcomma
    cases h
    exact ⟨rest, rfl, hcomma ▸ .comma⟩
  rename_i hcomma
  split at h
  · rename_i symbol hsymbol
    cases h
    obtain ⟨hbegins, -⟩ := separable.indexed.longest hsymbol
    obtain ⟨rest', hrest⟩ := hbegins.2
    obtain ⟨d, ds, hds⟩ := List.exists_cons_of_ne_nil (separable.ne_nil hbegins.1)
    rw [hds, List.cons_append, List.cons.injEq] at hrest
    obtain ⟨rfl, rfl⟩ := hrest
    have hthis : d :: (ds ++ rest') = symbol.toList ++ rest' := by rw [hds]; rfl
    refine ⟨rest', hthis, .operator hds (hthis ▸ hsymbol) ?_ ?_ ?_ ?_⟩
    · exact Bool.eq_false_iff.mpr hnumber
    · exact Bool.eq_false_iff.mpr hfolded
    · exact Bool.eq_false_iff.mpr hname
    · simp only [List.mem_cons, List.not_mem_nil, or_false, not_or]
      exact ⟨hleft, hright, hcomma⟩
  · cases h

/-- A token in front of the rest is the first token of the text. -/
theorem Reads.lexeme_eq_ok {kind : TokenKind} {cs rest : List Char} (h : Reads v complex due kind cs rest)
    (position : Nat) :
    ∃ c cs', cs = c :: cs' ∧ lexeme v complex due position c (cs' ++ rest) = .ok (kind, cs) := by
  cases h with
  | number hnumeral hpart =>
    obtain ⟨c, cs', rfl, hc⟩ := exists_cons_of_numeral hnumeral
    refine ⟨c, cs', rfl, ?_⟩
    rw [lexeme, if_pos hc, readNumber_eq_ok_iff, ← List.cons_append, hpart]
    exact ⟨rfl, rfl, _, _, hnumeral⟩
  | @negative ds rest n k hdue hnumeral hpart =>
    refine ⟨'-', ds, rfl, ?_⟩
    have hfolded : isFolded due '-' (ds ++ rest) = true := by
      obtain ⟨c, cs', rfl, hc⟩ := exists_cons_of_numeral hnumeral
      rw [isFolded, hdue]
      exact hc
    rw [lexeme, if_neg (by decide), if_pos hfolded, readNumber_eq_ok_iff, hpart]
    exact ⟨rfl, rfl, _, _, hnumeral⟩
  | @name c cs rest hstart hcs hrest =>
    refine ⟨c, cs, rfl, ?_⟩
    rw [lexeme, if_neg (Bool.eq_false_iff.mp (isNumberPart_of_isNameStart hstart)),
      if_neg (Bool.eq_false_iff.mp (isFolded_of_isNameStart hstart due _)), if_pos hstart,
      takeWhile_append_of_stops hcs hrest]
  | leftParen =>
    refine ⟨'(', [], rfl, ?_⟩
    rw [lexeme, if_neg (by decide), if_neg (Bool.eq_false_iff.mp (isFolded_of_ne (by decide) due _)),
      if_neg (by decide), if_pos rfl]
  | rightParen =>
    refine ⟨')', [], rfl, ?_⟩
    rw [lexeme, if_neg (by decide), if_neg (Bool.eq_false_iff.mp (isFolded_of_ne (by decide) due _)),
      if_neg (by decide), if_neg (by decide), if_pos rfl]
  | comma =>
    refine ⟨',', [], rfl, ?_⟩
    rw [lexeme, if_neg (by decide), if_neg (Bool.eq_false_iff.mp (isFolded_of_ne (by decide) due _)),
      if_neg (by decide), if_neg (by decide), if_neg (by decide), if_pos rfl]
  | @operator symbol c cs rest hcs hsymbol hnumber hfolded hname hother =>
    refine ⟨c, cs, hcs, ?_⟩
    simp only [List.mem_cons, List.not_mem_nil, or_false, not_or] at hother
    rw [hcs, List.cons_append] at hsymbol
    rw [lexeme, if_neg (Bool.eq_false_iff.mp hnumber), if_neg (Bool.eq_false_iff.mp hfolded),
      if_neg (Bool.eq_false_iff.mp hname), if_neg hother.1, if_neg hother.2.1, if_neg hother.2.2, hsymbol]

/-! ## What stands behind a token -/

/-- What stands behind a token can be replaced: the text ends somewhere there, or a blank comes first. -/
def Closes (rest rest' : List Char) : Prop := rest' <+: rest ∨ rest'.head?.any isBlank = true

section

variable {rest rest' : List Char}

/-- What does not go on behind a token does not go on behind a blank. -/
theorem Closes.stops {p : Char → Bool} (hp : ∀ {b : Char}, isBlank b = true → p b = false)
    (h : Closes rest rest') (stops : rest.head?.any p = false) : rest'.head?.any p = false := by
  cases rest' with
  | nil => rfl
  | cons c rest' =>
    rcases h with ⟨more, rfl⟩ | hblank
    · exact stops
    · exact hp hblank

/-- What follows a numeral can be replaced. -/
theorem Ends.closes {power : List Char} (h : Ends power rest) (hclose : Closes rest rest') : Ends power rest' := by
  cases power with
  | cons mark power => exact hclose.stops isDigit_of_isBlank h
  | nil =>
    refine ⟨hclose.stops isNumberPart_of_isBlank h.1, ?_⟩
    cases rest' with
    | nil => rfl
    | cons c rest' =>
      rcases hclose with hfront | hblank
      · exact exponentPart_eq_nil_of_front hfront h.2
      · exact exponentPart_of_isBlank hblank rest'

theorem numberPart_of_closes {ds : List Char} {n : Nat} {k : Int} (hnumeral : Numeral ds n k)
    (h : numberPart (ds ++ rest) = ds) (hclose : Closes rest rest') : numberPart (ds ++ rest') = ds := by
  obtain ⟨hmantissa, hpower⟩ := hnumeral
  exact (numberPart_append_iff hmantissa hpower rest').mpr
    (((numberPart_append_iff hmantissa hpower rest).mp h).closes hclose)

/-- Whether a minus sign belongs to a number behind it is the same. -/
theorem isFolded_of_closes {cs : List Char} (h : isFolded due c (cs ++ rest) = false)
    (hclose : Closes rest rest') : isFolded due c (cs ++ rest') = false := by
  cases cs with
  | cons d cs => exact h
  | nil =>
    rw [isFolded, Bool.and_eq_false_iff] at h ⊢
    exact h.imp_right (hclose.stops isNumberPart_of_isBlank)

/-- **A token is read in the same way if what stands behind it is replaced.** -/
theorem Reads.closes (separable : v.operators.Separable) {kind : TokenKind} {cs : List Char}
    (h : Reads v complex due kind cs rest) (hclose : Closes rest rest') : Reads v complex due kind cs rest' := by
  cases h with
  | number hnumeral hpart => exact .number hnumeral (numberPart_of_closes hnumeral hpart hclose)
  | negative hdue hnumeral hpart => exact .negative hdue hnumeral (numberPart_of_closes hnumeral hpart hclose)
  | name hstart hcs hrest => exact .name hstart hcs (hclose.stops isNamePart_of_isBlank hrest)
  | leftParen => exact .leftParen
  | rightParen => exact .rightParen
  | comma => exact .comma
  | @operator symbol c cs _ hcs hsymbol hnumber hfolded hname hother =>
    refine .operator hcs ?_ hnumber (isFolded_of_closes hfolded hclose) hname hother
    rcases hclose with hfront | hblank
    · exact Operators.longestSymbol_of_front separable.indexed hfront hsymbol
    · cases rest' with
      | nil => cases hblank
      | cons b rest' => exact Operators.longestSymbol_of_blank separable hblank hsymbol

end

end SciCalc.Token
