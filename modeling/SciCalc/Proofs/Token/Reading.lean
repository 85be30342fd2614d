/-
  Texts as rows of tokens and blanks.

  1. **Relation** (`Lexes`) — a text is empty, or it begins with a blank, or it begins with a token
     (`Reads`), and what is left is such a text again.  The relation knows neither characters to skip nor
     failures.

  2. **Scanning** (`scan_eq_ok_iff`) — scanning follows the relation.  The characters to skip are those of the token
     before (`scan_skip`).

  3. **Failures** (`exists_scan_take`) — where scanning fails, the text in front of the failure has tokens: all
     tokens there are read again if the text ends behind them.
-/
import SciCalc.Proofs.Token.Lexeme
import SciCalc.Proofs.Token.Lexer

namespace SciCalc.Token

open Text

variable {v : Vocabulary} {complex due : Bool} {position : Nat}

/-! ## Tokens and ends -/

/-- A token begins with a character that is no blank. -/
theorem Reads.exists_cons (separable : v.operators.Separable) {kind : TokenKind} {cs rest : List Char}
    (h : Reads v complex due kind cs rest) : ∃ c cs', cs = c :: cs' ∧ isBlank c = false := by
  cases h with
  | number hnumeral _ =>
    obtain ⟨c, cs', rfl, hc⟩ := exists_cons_of_numeral hnumeral
    exact ⟨c, cs', rfl, isBlank_eq_false_of isNumberPart_of_isBlank hc⟩
  | negative _ _ _ => exact ⟨'-', _, rfl, by decide⟩
  | @name c cs _ hstart _ _ =>
    refine ⟨c, cs, rfl, isBlank_of_isNamePart ?_⟩
    rw [isNamePart, hstart, Bool.true_or]
  | leftParen => exact ⟨'(', [], rfl, by decide⟩
  | rightParen => exact ⟨')', [], rfl, by decide⟩
  | comma => exact ⟨',', [], rfl, by decide⟩
  | @operator symbol c cs _ hcs hsymbol _ _ _ _ =>
    refine ⟨c, cs, hcs, separable.isBlank_eq_false (separable.indexed.longest hsymbol).1.1 ?_⟩
    rw [hcs]
    exact List.mem_cons_self

/-- The first token of a text has its first character, and others that the rest begins with. -/
theorem exists_rest_of_lexeme (separable : v.operators.Separable) {c : Char} {rest cs : List Char}
    {kind : TokenKind} (h : lexeme v complex due position c rest = .ok (kind, cs)) :
    ∃ ds rest', cs = c :: ds ∧ rest = ds ++ rest' ∧ ds.length ≤ rest.length ∧
      Reads v complex due kind (c :: ds) rest' := by
  obtain ⟨rest', hsplit, hreads⟩ := exists_reads_of_lexeme separable h
  obtain ⟨d, ds, rfl, -⟩ := hreads.exists_cons separable
  rw [List.cons_append] at hsplit
  obtain ⟨rfl, rfl⟩ := List.cons.inj hsplit
  refine ⟨ds, rest', rfl, rfl, ?_, hreads⟩
  rw [List.length_append]
  exact Nat.le_add_right _ _

/-- No characters are read as an end. -/
theorem Reads.kind_ne_finish {kind : TokenKind} {cs rest : List Char} (h : Reads v complex due kind cs rest) :
    kind ≠ .finish := by
  cases h with
  | name _ _ _ => exact classify_ne (by decide) _ _ _
  | _ => decide

/-! ## Relation -/

/-- **The tokens of a text** from a position on. -/
inductive Lexes (v : Vocabulary) (complex : Bool) : Bool → Nat → List Char → List Token → Prop where
  | finish {due : Bool} {position : Nat} : Lexes v complex due position [] [⟨.finish, "", position, none⟩]
  | blank {due : Bool} {position : Nat} {b : Char} {cs : List Char} {ts : List Token} : isBlank b = true →
      Lexes v complex due (position + 1) cs ts → Lexes v complex due position (b :: cs) ts
  /-- Behind a token an operand is due or not, as the kind of the token says. -/
  | token {due : Bool} {position : Nat} {kind : TokenKind} {cs rest : List Char} {ts : List Token} :
      Reads v complex due kind cs rest →
      Lexes v complex (opensOperand kind) (position + cs.length) rest ts →
      Lexes v complex due position (cs ++ rest) (⟨kind, String.ofList cs, position, none⟩ :: ts)

/-! ## Scanning -/

/-- Characters that belong to the token before are skipped. -/
theorem scan_skip (cs rest : List Char) :
    ∀ {position : Nat}, scan v complex due position cs.length (cs ++ rest) =
      scan v complex due (position + cs.length) 0 rest := by
  induction cs with
  | nil => exact rfl
  | cons c cs ih =>
    intro position
    show scan v complex due (position + 1) cs.length (cs ++ rest) = _
    rw [ih, List.length_cons, Nat.add_assoc, Nat.add_comm 1]

/-- Behind the characters that are skipped, scanning finds a row of tokens and blanks. -/
theorem lexes_of_scan (separable : v.operators.Separable) (cs : List Char) :
    ∀ {due : Bool} {position skip : Nat} {ts : List Token}, skip ≤ cs.length →
      scan v complex due position skip cs = .ok ts →
      Lexes v complex due (position + skip) (cs.drop skip) ts := by
  induction cs with
  | nil =>
    intro due position skip ts hskip h
    rw [Nat.le_zero.mp hskip]
    rw [scan] at h
    cases h
    exact .finish
  | cons c cs ih =>
    intro due position skip ts hskip h
    cases skip with
    | succ skip =>
      have hrest := ih (Nat.le_of_succ_le_succ hskip) h
      rw [Nat.add_right_comm] at hrest
      exact hrest
    | zero =>
      rw [scan] at h
      split at h
      · rename_i hblank
        exact .blank hblank (ih (Nat.zero_le _) h)
      · split at h
        · cases h
        · rename_i kind ds hlexeme
          split at h
          · cases h
          · rename_i us hscan
            cases h
            obtain ⟨ds, rest, rfl, rfl, hlength, hreads⟩ := exists_rest_of_lexeme separable hlexeme
            -- the characters of the token but the first one are those that are skipped
            have hrest := ih hlength hscan
            rw [List.drop_left, Nat.add_assoc, Nat.add_comm 1] at hrest
            exact .token hreads hrest

/-- A row of tokens and blanks is scanned. -/
theorem Lexes.scan_eq_ok (separable : v.operators.Separable) {cs : List Char} {ts : List Token}
    (h : Lexes v complex due position cs ts) : scan v complex due position 0 cs = .ok ts := by
  induction h with
  | finish => rfl
  | blank hblank _ ih => rw [scan, if_pos hblank, ih]
  | @token due position kind cs rest ts hreads _ ih =>
    obtain ⟨c, cs, rfl, hc⟩ := hreads.exists_cons separable
    obtain ⟨c', cs', heq, hlexeme⟩ := hreads.lexeme_eq_ok position
    obtain ⟨rfl, rfl⟩ := List.cons.inj heq
    rw [List.length_cons, ← Nat.add_assoc, Nat.add_right_comm] at ih
    rw [List.cons_append, scan, if_neg (Bool.eq_false_iff.mp hc), hlexeme]
    dsimp only
    rw [List.length_cons, Nat.add_sub_cancel, scan_skip, ih]

/-- **Scanning finds the tokens of a text.** -/
theorem scan_eq_ok_iff (separable : v.operators.Separable) {cs : List Char} {ts : List Token} :
    scan v complex due position 0 cs = .ok ts ↔ Lexes v complex due position cs ts :=
  ⟨lexes_of_scan separable cs (Nat.zero_le _), Lexes.scan_eq_ok separable⟩

/-- A text has tokens exactly if it is not too long and is a row of tokens and blanks. -/
theorem tokenize_eq_ok_iff (separable : v.operators.Separable) {limit : Int} {text : String} {ts : List Token} :
    tokenize v complex limit text = .ok ts ↔ text.length ≤ limit ∧ Lexes v complex true 0 text.toList ts := by
  unfold tokenize
  split
  · rename_i hlong
    exact iff_of_false nofun fun h => absurd h.1 (Int.not_le.mpr hlong)
  · rename_i hlong
    rw [scan_eq_ok_iff separable]
    exact (and_iff_right (Int.not_lt.mp hlong)).symm

/-! ## Failures -/

/-- What is wrong with the first token of a text is wrong where the token begins. -/
theorem position_of_lexeme {c : Char} {rest : List Char} {cause : LexicalCause}
    (h : lexeme v complex due position c rest = .error cause) : cause.position = some (position : Int) := by
  have number : ∀ {sign cs : List Char}, readNumber position sign cs = .error cause →
      cause.position = some (position : Int) := by
    intro sign cs h
    unfold readNumber at h
    dsimp only at h
    split at h
    · cases h
    · cases h
      rfl
  unfold lexeme at h
  split at h
  · exact number h
  split at h
  · exact number h
  split at h
  · cases h
  split at h
  · cases h
  split at h
  · cases h
  split at h
  · cases h
  split at h
  · cases h
  · cases h
    rfl

/-- **In front of a failure everything is read.** -/
theorem exists_scan_take (separable : v.operators.Separable) {cause : LexicalCause} (cs : List Char) :
    ∀ {due : Bool} {position skip : Nat}, skip ≤ cs.length →
      scan v complex due position skip cs = .error cause →
      ∃ k, cause.position = some ((position + k : Nat) : Int) ∧ skip ≤ k ∧ k < cs.length ∧
        ∃ ts, scan v complex due position skip (cs.take k) = .ok ts := by
  induction cs with
  | nil =>
    intro due position skip _ h
    rw [scan] at h
    cases h
  | cons c cs ih =>
    intro due position skip hskip h
    cases skip with
    | succ skip =>
      obtain ⟨k, hposition, hle, hlt, ts, hscan⟩ := ih (Nat.le_of_succ_le_succ hskip) h
      refine ⟨k + 1, ?_, Nat.succ_le_succ hle, Nat.succ_lt_succ hlt, ts, hscan⟩
      rw [hposition, Nat.add_assoc, Nat.add_comm 1]
    | zero =>
      rw [scan] at h
      split at h
      · rename_i hblank
        obtain ⟨k, hposition, -, hlt, ts, hscan⟩ := ih (Nat.zero_le _) h
        refine ⟨k + 1, ?_, Nat.zero_le _, Nat.succ_lt_succ hlt, ts, ?_⟩
        · rw [hposition, Nat.add_assoc, Nat.add_comm 1]
        · rw [List.take_succ_cons, scan, if_pos hblank, hscan]
      · rename_i hblank
        split at h
        · rename_i cause' hlexeme
          cases h
          exact ⟨0, position_of_lexeme hlexeme, Nat.le_refl _, Nat.succ_pos _, _, rfl⟩
        · rename_i kind ds hlexeme
          split at h
          · rename_i cause' hfailed
            cases h
            obtain ⟨ds, rest, rfl, rfl, hlength, hreads⟩ := exists_rest_of_lexeme separable hlexeme
            obtain ⟨k, hposition, hle, hlt, ts, hscan⟩ := ih hlength hfailed
            have htake : (ds ++ rest).take k = ds ++ rest.take (k - ds.length) := by
              rw [List.take_append, List.take_of_length_le hle]
            -- the token is read all the same where the text ends at the failure
            have hcut := hreads.closes separable (Or.inl (List.take_prefix (k - ds.length) rest))
            obtain ⟨c', cs', heq, hlexeme'⟩ := hcut.lexeme_eq_ok position
            obtain ⟨rfl, rfl⟩ := List.cons.inj heq
            refine ⟨k + 1, ?_, Nat.zero_le _, Nat.succ_lt_succ hlt,
              ⟨kind, String.ofList (c :: ds), position, none⟩ :: ts, ?_⟩
            · rw [hposition, Nat.add_assoc, Nat.add_comm 1]
            · rw [List.take_succ_cons, htake, scan, if_neg hblank, hlexeme']
              dsimp only
              rw [List.length_cons, Nat.add_sub_cancel, ← htake, hscan]
          · cases h

end SciCalc.Token
