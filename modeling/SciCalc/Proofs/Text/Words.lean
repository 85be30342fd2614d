/-
  Words and margins of a line.

  1. **Margins** (`exists_margins`) — a text is what is left of it when it is trimmed, with blanks on both sides, and
     what is left neither begins nor ends with a blank.

  2. **Words** (`wordsFrom_word`, `words_trim`) — a run without blanks in front of a blank is the first word, and the
     words of a text are those of the trimmed text.
-/
import SciCalc.Proofs.Text.Numeral
import SciCalc.Text.Blank

namespace SciCalc.Text

variable {word run rest gap cs : List Char} {b : Char}

/-! ## Margins -/

/-- Blanks in front of a text are trimmed. -/
theorem trimLeft_append (hgap : ∀ c ∈ gap, isBlank c = true) (hcs : cs.head?.any isBlank = false) :
    trimLeft (gap ++ cs) = cs :=
  dropWhile_append_of_stops hgap hcs

/-- Blanks behind a text are trimmed. -/
theorem trimRight_append (hgap : ∀ c ∈ gap, isBlank c = true) (hcs : cs.getLast?.any isBlank = false) :
    trimRight (cs ++ gap) = cs := by
  have hgap' : ∀ c ∈ gap.reverse, isBlank c = true := fun c hc => hgap c (List.mem_reverse.mp hc)
  rw [← List.head?_reverse] at hcs
  rw [trimRight, List.reverse_append, dropWhile_append_of_stops hgap' hcs, List.reverse_reverse]

/-- A text has blanks behind what is left when these are trimmed. -/
theorem exists_trimRight (cs : List Char) :
    ∃ gap, cs = trimRight cs ++ gap ∧ (∀ c ∈ gap, isBlank c = true) ∧
      (trimRight cs).getLast?.any isBlank = false := by
  refine ⟨(cs.reverse.takeWhile isBlank).reverse, ?_, ?_, ?_⟩
  · rw [trimRight, ← List.reverse_append, List.takeWhile_append_dropWhile, List.reverse_reverse]
  · exact fun c hc => forall_mem_takeWhile isBlank _ c (List.mem_reverse.mp hc)
  · rw [trimRight, ← List.head?_reverse, List.reverse_reverse]
    exact stops_dropWhile isBlank cs.reverse

/-- **A text is its trimmed text between blanks.** -/
theorem exists_margins (cs : List Char) :
    ∃ gap gap', cs = gap ++ (trimChars cs ++ gap') ∧ (∀ c ∈ gap, isBlank c = true) ∧
      (∀ c ∈ gap', isBlank c = true) ∧ (trimChars cs).head?.any isBlank = false ∧
      (trimChars cs).getLast?.any isBlank = false := by
  obtain ⟨gap', hcore, hgap', hlast⟩ := exists_trimRight (trimLeft cs)
  refine ⟨cs.takeWhile isBlank, gap', ?_, forall_mem_takeWhile isBlank cs, hgap', ?_, hlast⟩
  · rw [trimChars, ← hcore]
    exact List.takeWhile_append_dropWhile.symm
  · have hfirst : (trimLeft cs).head?.any isBlank = false := stops_dropWhile isBlank cs
    rw [hcore] at hfirst
    rw [trimChars]
    cases hnil : trimRight (trimLeft cs) with
    | nil => rfl
    | cons c core =>
      rw [hnil] at hfirst
      exact hfirst

/-! ## Words -/

/-- A run without blanks goes on with the word that is being read. -/
theorem wordsFrom_append (hrun : ∀ c ∈ run, isBlank c = false) :
    wordsFrom word (run ++ rest) = wordsFrom (run.reverse ++ word) rest := by
  induction run generalizing word with
  | nil => rfl
  | cons c run ih =>
    obtain ⟨hc, hrun⟩ := List.forall_mem_cons.mp hrun
    rw [List.cons_append, wordsFrom, if_neg (Bool.eq_false_iff.mp hc), ih hrun, List.reverse_cons, List.append_assoc]
    rfl

/-- **A run without blanks in front of a blank is a word.** -/
theorem wordsFrom_word (hne : run ≠ []) (hrun : ∀ c ∈ run, isBlank c = false) (hb : isBlank b = true) :
    wordsFrom [] (run ++ b :: rest) = run :: wordsFrom [] rest := by
  have hword : ¬ run.reverse.isEmpty = true := by
    rw [List.isEmpty_iff, List.reverse_eq_nil_iff]
    exact hne
  rw [wordsFrom_append hrun, List.append_nil, wordsFrom, if_pos hb, if_neg hword, List.reverse_reverse]

/-- Blanks in front of a text are in no word. -/
theorem wordsFrom_blanks (hgap : ∀ c ∈ gap, isBlank c = true) (rest : List Char) :
    wordsFrom [] (gap ++ rest) = wordsFrom [] rest := by
  induction gap with
  | nil => rfl
  | cons b gap ih =>
    obtain ⟨hb, hgap⟩ := List.forall_mem_cons.mp hgap
    rw [List.cons_append, wordsFrom, if_pos hb, if_pos List.isEmpty_nil, ih hgap]

/-- Blanks behind a text are in no word. -/
theorem wordsFrom_append_blanks (hgap : ∀ c ∈ gap, isBlank c = true) (cs : List Char) :
    wordsFrom word (cs ++ gap) = wordsFrom word cs := by
  induction cs generalizing word with
  | nil =>
    cases gap with
    | nil => rfl
    | cons b gap =>
      obtain ⟨hb, hgap⟩ := List.forall_mem_cons.mp hgap
      have hnone : wordsFrom [] gap = [] := by
        rw [← List.append_nil gap, wordsFrom_blanks hgap]
        rfl
      have hfirst : wordsFrom word (b :: gap) =
          if word.isEmpty then wordsFrom [] gap else word.reverse :: wordsFrom [] gap := if_pos hb
      rw [List.nil_append, hfirst, hnone]
      rfl
  | cons c cs ih => simp only [List.cons_append, wordsFrom, ih]

/-- **A text has the words of the trimmed text.** -/
theorem words_trim (s : String) : words (trim s) = words s := by
  obtain ⟨gap, gap', hs, hgap, hgap', -, -⟩ := exists_margins s.toList
  have hsame : wordsFrom [] s.toList = wordsFrom [] (trimChars s.toList) := by
    conv => lhs; rw [hs]
    rw [wordsFrom_blanks hgap, wordsFrom_append_blanks hgap']
  rw [words, words, trim, String.toList_ofList, hsame]

/-- Only blanks have no words. -/
theorem wordsFrom_eq_nil_iff : wordsFrom word cs = [] ↔ word = [] ∧ ∀ c ∈ cs, isBlank c = true := by
  induction cs generalizing word with
  | nil => cases word <;> simp [wordsFrom]
  | cons c cs ih =>
    rw [wordsFrom, List.forall_mem_cons]
    by_cases hc : isBlank c = true
    · cases word <;> simp [hc, ih]
    · simp [hc, ih]

/-- A text that is not all blanks has words. -/
theorem words_ne_nil {s : String} (h : trimChars s.toList ≠ []) : words s ≠ [] := by
  obtain ⟨-, -, -, -, -, hfirst, -⟩ := exists_margins s.toList
  rw [← words_trim, words, trim, String.toList_ofList, ne_eq, List.map_eq_nil_iff, wordsFrom_eq_nil_iff]
  rintro ⟨-, hblank⟩
  obtain ⟨c, core, hcore⟩ := List.exists_cons_of_ne_nil h
  rw [hcore] at hfirst hblank
  have hc : isBlank c = false := hfirst
  rw [hblank c List.mem_cons_self] at hc
  cases hc

end SciCalc.Text
