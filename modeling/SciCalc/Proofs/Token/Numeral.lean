/-
  The numerals of a text.

  A numeral begins with a digit or a point, perhaps behind a minus sign.  So it is not one of the words for
  the infinite and the undefined decimals: the decimal that is read is finite.
-/
import SciCalc.Proofs.Decimal.Finite
import SciCalc.Proofs.Text.Character
import SciCalc.Proofs.Token.Lexer

namespace SciCalc

open Attempt

/-! ## Characters -/

/-- The characters that a number without exponent is made of. -/
theorem Token.mem_of_isNumberPart {c : Char} (h : isNumberPart c = true) :
    c ∈ ['0', '1', '2', '3', '4', '5', '6', '7', '8', '9', '.'] := by
  rcases (Bool.or_eq_true_iff).mp h with hdigit | hpoint
  · exact Text.of_isDigit (p := (· ∈ ['0', '1', '2', '3', '4', '5', '6', '7', '8', '9', '.'])) (by decide +kernel)
      hdigit
  · rw [of_decide_eq_true hpoint]
    decide

/-- A sign or a character of a number is no blank and no underscore, and it is an ASCII character that stays
    as it is. -/
theorem Text.plain_of_mem {c : Char} (h : c ∈ ['-', '0', '1', '2', '3', '4', '5', '6', '7', '8', '9', '.']) :
    isBlank c = false ∧ c ≠ '_' ∧ asciiDigits [c] = [c] ∧ lowerChar c = [c] ∧ c ≠ capitalSigma := by
  have hall : ['-', '0', '1', '2', '3', '4', '5', '6', '7', '8', '9', '.'].all (fun c =>
      isBlank c = false ∧ c ≠ '_' ∧ asciiDigits [c] = [c] ∧ lowerChar c = [c] ∧ c ≠ capitalSigma) = true := by
    decide
  exact of_decide_eq_true (List.all_eq_true.mp hall c h)

namespace Text

/-- A number without a sign is left as it is. -/
theorem takeSign_of_isNumberPart {c : Char} (h : Token.isNumberPart c = true) (cs : List Char) :
    takeSign (c :: cs) = (false, c :: cs) := by
  unfold takeSign
  split
  · rename_i hminus
    rw [(List.cons.inj hminus).1] at h
    exact absurd h (by decide)
  · rename_i hplus
    rw [(List.cons.inj hplus).1] at h
    exact absurd h (by decide)
  · rfl

theorem takeSign_minus (cs : List Char) : takeSign ('-' :: cs) = (true, cs) := rfl

theorem trimRight_cons {c : Char} (h : isBlank c = false) (cs : List Char) :
    trimRight (c :: cs) = c :: trimRight cs := by
  rw [trimRight, trimRight, List.reverse_cons, List.dropWhile_append]
  split
  · rename_i hempty
    rw [List.isEmpty_iff.mp hempty, List.dropWhile_cons_of_neg (by rw [h]; exact Bool.false_ne_true)]
    rfl
  · rw [List.reverse_append]
    rfl

/-- Digits are made ASCII digits and underscores dropped behind a character that stays as it is. -/
theorem filter_asciiDigits_cons {c : Char} (hdigit : asciiDigits [c] = [c]) (hc : c ≠ '_') (cs : List Char) :
    (asciiDigits (c :: cs)).filter (· ≠ '_') = c :: (asciiDigits cs).filter (· ≠ '_') := by
  have hcons : asciiDigits (c :: cs) = c :: asciiDigits cs := congrArg (· ++ asciiDigits cs) hdigit
  rw [hcons]
  exact List.filter_cons_of_pos (decide_eq_true hc)

/-- What is lowered begins with the first character, if that stays as it is. -/
theorem exists_lower_cons {c : Char} (hlower : lowerChar c = [c]) (hc : c ≠ capitalSigma) (cs : List Char) :
    ∃ ds, (lower (String.ofList (c :: cs))).toList = c :: ds := by
  simp only [lower, String.toList_ofList]
  split
  · refine ⟨lowerFrom (if isCaseIgnorable c then false else isCased c) cs, ?_⟩
    simp [lowerFrom, hc, hlower]
  · refine ⟨cs.flatMap lowerChar, ?_⟩
    rw [List.flatMap_cons, hlower]
    rfl

end Text

/-! ## Numerals -/

namespace Decimal

/-- No word for a special decimal begins like a number, so what begins like one is read as one. -/
theorem readPlain_of_takeSign {cs : List Char} {negative : Bool} {c : Char} {rest : List Char}
    (hsign : Text.takeSign cs = (negative, c :: rest)) (hc : Token.isNumberPart c = true) :
    readPlain cs = match Text.readUnsigned? (c :: rest) with
      | some (k, e) => if readable k e then .ok (.finite negative k e) else .error (.undefined .operation)
      | none => .error (.undefined .conversion) := by
  have hmem := Token.mem_of_isNumberPart hc
  obtain ⟨-, -, -, hlower, hsigma⟩ := Text.plain_of_mem (List.mem_cons_of_mem _ hmem)
  obtain ⟨ds, hword⟩ := Text.exists_lower_cons hlower hsigma rest
  have hletters : c ≠ 'i' ∧ c ≠ 's' ∧ c ≠ 'n' := by
    refine ⟨?_, ?_, ?_⟩ <;> rintro rfl <;> exact absurd hmem (by decide)
  -- lowering keeps the first character
  unfold readPlain
  rw [hsign]
  dsimp only
  rw [hword]
  split
  · rename_i hinfinite
    rcases (Bool.or_eq_true_iff).mp hinfinite with h | h
    · exact absurd (List.cons.inj (of_decide_eq_true h)).1 hletters.1
    · exact absurd (List.cons.inj (of_decide_eq_true h)).1 hletters.1
  · split
    · rename_i h
      exact absurd (List.cons.inj h).1 hletters.2.1
    · rename_i h
      exact absurd (List.cons.inj h).1 hletters.2.2
    · rfl

theorem givesFinite_readPlain_of_takeSign {cs : List Char} {negative : Bool} {c : Char} {rest : List Char}
    (hsign : Text.takeSign cs = (negative, c :: rest)) (hc : Token.isNumberPart c = true) :
    GivesFinite (readPlain cs) := by
  rw [readPlain_of_takeSign hsign hc]
  split
  · split
    · exact gives_ok.mpr rfl
    · exact gives_error _
  · exact gives_error _

/-- **A numeral is read as a finite decimal**: it begins with a digit or a point, perhaps behind a minus sign. -/
theorem givesFinite_read {sign : List Char} (hs : sign = [] ∨ sign = ['-']) {c : Char}
    (hc : Token.isNumberPart c = true) (rest : List Char) :
    GivesFinite (read (String.ofList (sign ++ c :: rest))) := by
  have hmem := List.mem_cons_of_mem '-' (Token.mem_of_isNumberPart hc)
  obtain ⟨hblank, hunderscore, hdigit, -, -⟩ := Text.plain_of_mem hmem
  rw [read, String.toList_ofList]
  rcases hs with rfl | rfl
  · rw [List.nil_append, Text.trimChars, Text.trimLeft,
      List.dropWhile_cons_of_neg (by rw [hblank]; exact Bool.false_ne_true), Text.trimRight_cons hblank,
      Text.filter_asciiDigits_cons hdigit hunderscore]
    exact givesFinite_readPlain_of_takeSign (Text.takeSign_of_isNumberPart hc _) hc
  · rw [List.singleton_append, Text.trimChars, Text.trimLeft, List.dropWhile_cons_of_neg (by decide),
      Text.trimRight_cons (by decide), Text.trimRight_cons hblank, Text.filter_asciiDigits_cons (by decide) (by decide),
      Text.filter_asciiDigits_cons hdigit hunderscore]
    exact givesFinite_readPlain_of_takeSign (Text.takeSign_minus _) hc

end Decimal

/-! ## Tokens -/

namespace Token

/-- A token of a number is read as a finite decimal. -/
def NumeralFinite (t : Token) : Prop := t.kind = .number → GivesFinite (Decimal.read t.value)

theorem numberPart_cons {c : Char} (hc : isNumberPart c = true) (rest : List Char) :
    ∃ ds, numberPart (c :: rest) = c :: ds := by
  rw [numberPart, List.takeWhile_cons_of_pos hc]
  exact ⟨_, rfl⟩

/-- What is read as a number is read behind no sign or a minus sign, and begins like a number. -/
theorem exists_readNumber_of_lexeme {v : Vocabulary} {complex operandDue : Bool} {position : Nat} {c : Char}
    {rest : List Char} {cs : List Char} (h : lexeme v complex operandDue position c rest = .ok (.number, cs)) :
    ∃ sign ds, (sign = [] ∨ sign = ['-']) ∧ ds.head?.any isNumberPart = true ∧
      readNumber position sign ds = .ok (.number, cs) := by
  unfold lexeme at h
  split at h
  · rename_i hc
    exact ⟨[], c :: rest, Or.inl rfl, hc, h⟩
  split at h
  · rename_i hfolded
    obtain ⟨hsign, hrest⟩ := (Bool.and_eq_true_iff).mp hfolded
    have hminus : c = '-' := of_decide_eq_true ((Bool.and_eq_true_iff).mp hsign).1
    exact ⟨[c], rest, Or.inr (congrArg ([·]) hminus), hrest, h⟩
  split at h
  · rw [Except.ok.injEq, Prod.mk.injEq] at h
    exact absurd h.1 (classify_ne (by decide) _ _ _)
  split at h
  · cases h
  split at h
  · cases h
  split at h
  · cases h
  split at h <;> cases h

/-- The characters that are read as a number are those of a finite decimal. -/
theorem givesFinite_of_readNumber {position : Nat} {sign cs : List Char} {kind : TokenKind} {ds : List Char}
    (hs : sign = [] ∨ sign = ['-']) (hcs : cs.head?.any isNumberPart = true)
    (h : readNumber position sign cs = .ok (kind, ds)) : GivesFinite (Decimal.read (String.ofList ds)) := by
  cases cs with
  | nil => cases hcs
  | cons c rest =>
    have hc : isNumberPart c = true := hcs
    obtain ⟨digits, hdigits⟩ := numberPart_cons hc rest
    rw [readNumber, hdigits] at h
    split at h
    · cases h
      exact Decimal.givesFinite_read hs hc digits
    · cases h

/-- **The numbers of a text are finite decimals.** -/
theorem numeralFinite_of_tokenize {v : Vocabulary} {complex : Bool} {limit : Int} {text : String} {ts : List Token}
    (h : tokenize v complex limit text = .ok ts) : ∀ t ∈ ts, t.NumeralFinite := by
  intro t ht hkind
  have hbody : t.isFinish = false := by
    rw [isFinish, hkind]
    rfl
  obtain ⟨due, place, c, rest, cs, hlexeme, hvalue⟩ := exists_lexeme_of_tokenize h t ht hbody
  rw [hkind] at hlexeme
  obtain ⟨sign, ds, hsign, hds, hread⟩ := exists_readNumber_of_lexeme hlexeme
  rw [hvalue]
  exact givesFinite_of_readNumber hsign hds hread

end Token

end SciCalc
