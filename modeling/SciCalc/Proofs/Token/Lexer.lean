/-
  The shape of the tokens of a text.

  The tokens of a text end with the end of the expression, and no other token is the end.  Each of the others is read
  where it stands, and begins behind the one before it.  All this is one induction on what is scanned
  (`scan_induction`).
-/
import SciCalc.Token.Lexer

namespace SciCalc.Token

/-- A name is a function, a constant or a variable. -/
theorem classify_mem (v : Vocabulary) (complex : Bool) (name : String) :
    classify v complex name ∈ [TokenKind.function, .constant, .variable] := by
  unfold classify
  split
  · decide
  · split
    · split <;> decide
    · decide

/-- A name is of no other kind. -/
theorem classify_ne {kind : TokenKind} (hkind : kind ∉ [TokenKind.function, .constant, .variable])
    (v : Vocabulary) (complex : Bool) (name : String) : classify v complex name ≠ kind := by
  rintro rfl
  exact hkind (classify_mem v complex name)

theorem kind_of_readNumber {position : Nat} {sign cs : List Char} {kind : TokenKind} {ds : List Char}
    (h : readNumber position sign cs = .ok (kind, ds)) : kind = .number := by
  unfold readNumber at h
  simp only at h
  split at h
  · cases h
    rfl
  · cases h

/-- No characters are read as an end. -/
theorem kind_of_lexeme {v : Vocabulary} {complex operandDue : Bool} {position : Nat} {c : Char}
    {rest : List Char} {kind : TokenKind} {cs : List Char}
    (h : lexeme v complex operandDue position c rest = .ok (kind, cs)) : kind ≠ .finish := by
  unfold lexeme at h
  split at h
  · rw [kind_of_readNumber h]
    decide
  split at h
  · rw [kind_of_readNumber h]
    decide
  split at h
  · cases h
    exact classify_ne (by decide) _ _ _
  split at h
  · cases h
    decide
  split at h
  · cases h
    decide
  split at h
  · cases h
    decide
  split at h
  · cases h
    decide
  · cases h

/-! ## Scanning -/

section

variable {v : Vocabulary} {complex : Bool}

/-- **What holds of the end, does not mind characters in front, and is kept by a token in front that is read where it
    stands, holds of the tokens from any position on.**  The end stands at `stop`, behind all characters. -/
theorem scan_induction {p : Nat → List Token → Prop} {stop : Nat}
    (finish : p stop [⟨.finish, "", stop, none⟩])
    (skipped : ∀ {position : Nat} {ts : List Token}, p (position + 1) ts → p position ts)
    (token : ∀ {operandDue : Bool} {position : Nat} {c : Char} {cs ds : List Char} {kind : TokenKind}
      {ts : List Token}, lexeme v complex operandDue position c cs = .ok (kind, ds) → p (position + 1) ts →
        p position (⟨kind, String.ofList ds, position, none⟩ :: ts)) (cs : List Char) :
    ∀ {operandDue : Bool} {position skip : Nat} {ts : List Token},
      scan v complex operandDue position skip cs = .ok ts → position + cs.length = stop → p position ts := by
  induction cs with
  | nil =>
    intro operandDue position skip ts h hstop
    rw [scan] at h
    cases h
    obtain rfl : position = stop := hstop
    exact finish
  | cons c cs ih =>
    intro operandDue position skip ts h hstop
    have hmore : position + 1 + cs.length = stop := by
      rw [← hstop, List.length_cons]
      omega
    cases skip with
    -- the character belongs to a token that has been read
    | succ skip => exact skipped (ih h hmore)
    | zero =>
      rw [scan] at h
      split at h
      · exact skipped (ih h hmore)
      · split at h
        · cases h
        · rename_i kind ds hlexeme
          split at h
          · cases h
          · rename_i us hscan
            cases h
            exact token hlexeme (ih hscan hmore)

/-- The tokens of a text are those that scanning finds. -/
theorem scan_of_tokenize {limit : Int} {text : String} {ts : List Token}
    (h : tokenize v complex limit text = .ok ts) : scan v complex true 0 0 text.toList = .ok ts := by
  unfold tokenize at h
  split at h
  · cases h
  · exact h

/-- A text with tokens is not longer than the limit. -/
theorem length_le_of_tokenize {limit : Int} {text : String} {ts : List Token}
    (h : tokenize v complex limit text = .ok ts) : (text.length : Int) ≤ limit := by
  unfold tokenize at h
  split at h
  · cases h
  · exact Int.not_lt.mp ‹_›

/-- **The tokens of a text end with the only end.** -/
theorem exists_body_of_tokenize {limit : Int} {text : String} {ts : List Token}
    (h : tokenize v complex limit text = .ok ts) :
    ∃ body e, ts = body ++ [e] ∧ e.isFinish = true ∧ ∀ t ∈ body, t.isFinish = false := by
  refine scan_induction (p := fun _ ts => ∃ (body : List Token) (e : Token), ts = body ++ [e] ∧
    e.isFinish = true ∧ ∀ t ∈ body, t.isFinish = false) ?_ (fun h => h) ?_ _ (scan_of_tokenize h) rfl
  · exact ⟨[], _, rfl, rfl, fun t ht => absurd ht List.not_mem_nil⟩
  · rintro operandDue position c cs ds kind _ hlexeme ⟨body, e, rfl, he, hbody⟩
    exact ⟨_ :: body, e, rfl, he, List.forall_mem_cons.mpr ⟨decide_eq_false (kind_of_lexeme hlexeme), hbody⟩⟩

/-- The last token of a text is the only end. -/
theorem isFinish_of_tokenize {limit : Int} {text : String} {body : List Token} {fin : Token}
    (h : tokenize v complex limit text = .ok (body ++ [fin])) :
    fin.isFinish = true ∧ ∀ t ∈ body, t.isFinish = false := by
  obtain ⟨body', fin', heq, hfin, hbody⟩ := exists_body_of_tokenize h
  obtain ⟨rfl, hlast⟩ := List.append_inj' heq rfl
  obtain rfl := List.singleton_inj.mp hlast
  exact ⟨hfin, hbody⟩

/-- **Every token of a text is read where it stands.** -/
theorem exists_lexeme_of_tokenize {limit : Int} {text : String} {ts : List Token}
    (h : tokenize v complex limit text = .ok ts) :
    ∀ t ∈ ts, t.isFinish = false →
      ∃ due place c rest ds, lexeme v complex due place c rest = .ok (t.kind, ds) ∧ t.value = String.ofList ds := by
  refine scan_induction (p := fun _ ts => ∀ t ∈ ts, t.isFinish = false →
    ∃ due place c rest ds, lexeme v complex due place c rest = .ok (t.kind, ds) ∧ t.value = String.ofList ds)
    ?_ (fun h => h) ?_ _ (scan_of_tokenize h) rfl
  · refine List.forall_mem_singleton.mpr fun hbody => ?_
    cases hbody
  · intro operandDue position c cs ds kind ts hlexeme hts
    exact List.forall_mem_cons.mpr ⟨fun _ => ⟨_, _, _, _, ds, hlexeme, rfl⟩, hts⟩

/-- **The tokens of a text begin one behind the other.** -/
theorem increasing_of_tokenize {limit : Int} {text : String} {ts : List Token}
    (h : tokenize v complex limit text = .ok ts) : ts.Pairwise fun t u => t.position < u.position := by
  have behind : ∀ {position : Nat} {us : List Token}, (∀ t ∈ us, ((position + 1 : Nat) : Int) ≤ t.position) →
      ∀ t ∈ us, (position : Int) < t.position := by
    intro position us hus t ht
    have := hus t ht
    omega
  refine (scan_induction (p := fun position ts => (∀ t ∈ ts, (position : Int) ≤ t.position) ∧
    ts.Pairwise fun t u => t.position < u.position) ?_ ?_ ?_ _ (scan_of_tokenize h) rfl).2
  · exact ⟨List.forall_mem_singleton.mpr (Int.le_refl _), List.pairwise_singleton _ _⟩
  · rintro position ts ⟨hle, hpairs⟩
    exact ⟨fun t ht => Int.le_of_lt (behind hle t ht), hpairs⟩
  · rintro operandDue position c cs ds kind ts - ⟨hle, hpairs⟩
    have hlater := behind hle
    exact ⟨List.forall_mem_cons.mpr ⟨Int.le_refl _, fun t ht => Int.le_of_lt (hlater t ht)⟩,
      List.pairwise_cons.mpr ⟨hlater, hpairs⟩⟩

/-- **The tokens of a text begin in it or at its end**, and there is at most one more than there are characters. -/
theorem within_of_tokenize {limit : Int} {text : String} {ts : List Token}
    (h : tokenize v complex limit text = .ok ts) :
    ts.length ≤ text.length + 1 ∧ ∀ t ∈ ts, ∃ p : Nat, t.position = p ∧ p ≤ text.length := by
  have hall := scan_induction (p := fun position ts => position + ts.length ≤ text.length + 1 ∧
    ∀ t ∈ ts, ∃ p : Nat, t.position = p ∧ p ≤ text.length) ?_ ?_ ?_ _ (scan_of_tokenize h)
    (by rw [Nat.zero_add, String.length_toList])
  · rwa [Nat.zero_add] at hall
  · exact ⟨Nat.le_refl _, List.forall_mem_singleton.mpr ⟨_, rfl, Nat.le_refl _⟩⟩
  · exact fun ⟨hlength, hts⟩ => ⟨by omega, hts⟩
  · rintro operandDue position c cs ds kind ts - ⟨hlength, hts⟩
    refine ⟨?_, List.forall_mem_cons.mpr ⟨⟨position, rfl, by omega⟩, hts⟩⟩
    rw [List.length_cons]
    omega

end

end SciCalc.Token
