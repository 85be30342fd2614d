/-
  Blanks between the tokens of a text.

  1. **Spelling** (`Spaced`) — the values of tokens in order, with at least one blank between two of them and
     with any blanks around them.

  2. **Reading it again** (`Lexes.spaced`) — by induction on how the text was read: each token is read in the
     same way in front of a blank or of nothing (`Reads.closes`), so that what follows it is due as before.

  3. **Theorem** (`tokenize_spaced`) — every spelling of the tokens of a text is read as tokens of the same kinds
     and values, `render` gives such a spelling, and rendering what is read from it changes nothing.
-/
import SciCalc.Proofs.Token.Reading

namespace SciCalc.Token

open Text

variable {v : Vocabulary} {complex due : Bool} {position : Nat} {cs : List Char} {ts : List Token}

/-! ## Spelling -/

/-- A row of blanks. -/
def Blanks (cs : List Char) : Prop := ∀ c ∈ cs, isBlank c = true

/-- The texts in order with blanks in front of each of them, and perhaps behind the last one. -/
inductive Spread : List String → List Char → Prop where
  | nil {gap : List Char} : Blanks gap → Spread [] gap
  | cons {gap : List Char} {s : String} {ss : List String} {rest : List Char} : gap ≠ [] → Blanks gap →
      Spread ss rest → Spread (s :: ss) (gap ++ (s.toList ++ rest))

/-- **The texts in order, separated by blanks**, perhaps with blanks in front of the first and behind the last
    one. -/
inductive Spaced : List String → List Char → Prop where
  | nil {gap : List Char} : Blanks gap → Spaced [] gap
  | cons {gap : List Char} {s : String} {ss : List String} {rest : List Char} : Blanks gap → Spread ss rest →
      Spaced (s :: ss) (gap ++ (s.toList ++ rest))

theorem Spread.spaced {ss : List String} (h : Spread ss cs) : Spaced ss cs := by
  cases h with
  | nil hgap => exact .nil hgap
  | cons _ hgap hrest => exact .cons hgap hrest

/-- What is spread behind a token does not continue it. -/
theorem Spread.closes {ss : List String} {rest' : List Char} (h : Spread ss rest') (rest : List Char) :
    Closes rest rest' := by
  have front : ∀ {gap : List Char}, Blanks gap → ∀ more, gap ≠ [] → Closes rest (gap ++ more) := by
    intro gap hgap more hne
    obtain ⟨b, gap, rfl⟩ := List.exists_cons_of_ne_nil hne
    exact Or.inr (hgap b List.mem_cons_self)
  cases h with
  | cons hne hgap _ => exact front hgap _ hne
  | nil hgap =>
    by_cases hne : rest' = []
    · rw [hne]
      exact Or.inl List.nil_prefix
    · have hclose := front hgap [] hne
      rwa [List.append_nil] at hclose

/-- The values of the tokens in front of the end. -/
def values (ts : List Token) : List String := (ts.filter (!·.isFinish)).map (·.value)

/-- What tokens are, wherever they stand. -/
def kindsAndValues (ts : List Token) : List (TokenKind × String) := ts.map fun t => (t.kind, t.value)

/-- Tokens of the same kinds and values have the same values in front of the end. -/
theorem values_eq_of_kindsAndValues {ts us : List Token} (h : kindsAndValues us = kindsAndValues ts) :
    values us = values ts := by
  have through : ∀ ts : List Token,
      values ts = ((kindsAndValues ts).filter fun kv => !decide (kv.1 = .finish)).map (·.2) := by
    intro ts
    rw [kindsAndValues, List.filter_map, List.map_map]
    rfl
  rw [through, through, h]

theorem values_cons {t : Token} (ht : t.isFinish = false) (ts : List Token) :
    values (t :: ts) = t.value :: values ts := by
  rw [values, List.filter_cons_of_pos (by rw [ht]; rfl), List.map_cons]
  rfl

/-! ## Reading it again -/

/-- There are tokens of the kinds and values of these, wherever the text begins. -/
def ReadsAs (v : Vocabulary) (complex due : Bool) (cs : List Char) (ts : List Token) : Prop :=
  ∀ position, ∃ us, Lexes v complex due position cs us ∧ kindsAndValues us = kindsAndValues ts

/-- Blanks in front of a text are no tokens. -/
theorem ReadsAs.blanks {gap : List Char} (h : ReadsAs v complex due cs ts) (hgap : Blanks gap) :
    ReadsAs v complex due (gap ++ cs) ts := by
  induction gap with
  | nil => exact h
  | cons b gap ih =>
    intro position
    obtain ⟨hb, hgap⟩ := List.forall_mem_cons.mp hgap
    obtain ⟨us, hus, hsame⟩ := ih hgap (position + 1)
    exact ⟨us, .blank hb hus, hsame⟩

/-- **The values of tokens with blanks between them are read as the same tokens.** -/
theorem Lexes.spaced (separable : v.operators.Separable) (h : Lexes v complex due position cs ts) :
    ∀ {ds : List Char}, Spaced (values ts) ds → ReadsAs v complex due ds ts := by
  induction h with
  | @finish due place =>
    intro ds hds
    cases hds with
    | nil hgap =>
      have hend : ReadsAs v complex due [] [⟨.finish, "", place, none⟩] := fun position => ⟨_, .finish, rfl⟩
      have hread := hend.blanks hgap
      rwa [List.append_nil] at hread
  | blank _ _ ih => exact ih
  | @token due position kind cs rest ts hreads _ ih =>
    intro ds hds
    rw [values_cons (decide_eq_false hreads.kind_ne_finish)] at hds
    cases hds with
    | @cons gap _ _ rest' hgap hspread =>
      refine ReadsAs.blanks (fun position => ?_) hgap
      rw [String.toList_ofList]
      obtain ⟨us, hus, hsame⟩ := ih hspread.spaced (position + cs.length)
      exact ⟨_, .token (hreads.closes separable (hspread.closes rest)) hus, congrArg (_ :: ·) hsame⟩

/-! ## Rendering -/

/-- Texts with single blanks between them are separated by blanks. -/
theorem spaced_join : ∀ ss : List String, Spaced ss (join " " ss).toList := by
  have none : Blanks [] := nofun
  have single : Blanks [' '] := List.forall_mem_singleton.mpr (by decide)
  have spread : ∀ (ss : List String) (s : String), Spread (s :: ss) (' ' :: (join " " (s :: ss)).toList) := by
    intro ss
    induction ss with
    | nil =>
      intro s
      have hspread := Spread.cons (List.cons_ne_nil ' ' []) single (s := s) (.nil none)
      rwa [List.append_nil] at hspread
    | cons t ss ih =>
      intro s
      have hspread := Spread.cons (List.cons_ne_nil ' ' []) single (s := s) (ih t)
      rw [join, String.toList_append, String.toList_append, List.append_assoc]
      exact hspread
  intro ss
  match ss with
  | [] => exact .nil none
  | [s] =>
    have hspaced := Spaced.cons none (s := s) (.nil none)
    rwa [List.append_nil] at hspaced
  | s :: t :: ss =>
    have hspaced := Spaced.cons none (s := s) (spread ss t)
    rw [join, String.toList_append, String.toList_append, List.append_assoc]
    exact hspaced

/-- **The tokens of a text are read again from their values, however many blanks separate them.** -/
theorem tokenize_spaced {v : Vocabulary} (table : v.operators = .basic ∨ v.operators = .calculator)
    {complex : Bool} {limit : Int} {text : String} {ts : List Token}
    (lexed : tokenize v complex limit text = .ok ts) :
    (∀ spelling : String, Spaced (values ts) spelling.toList → spelling.length ≤ limit →
      ∃ us, tokenize v complex limit spelling = .ok us ∧ kindsAndValues us = kindsAndValues ts) ∧
    ((render ts).length ≤ limit →
      ∃ us, tokenize v complex limit (render ts) = .ok us ∧ kindsAndValues us = kindsAndValues ts ∧
        render us = render ts) := by
  have separable := Operators.separable_of_table table
  obtain ⟨-, hlexes⟩ := (tokenize_eq_ok_iff separable).mp lexed
  have again : ∀ spelling : String, Spaced (values ts) spelling.toList → spelling.length ≤ limit →
      ∃ us, tokenize v complex limit spelling = .ok us ∧ kindsAndValues us = kindsAndValues ts := by
    intro spelling hspaced hlength
    obtain ⟨us, hus, hsame⟩ := hlexes.spaced separable hspaced 0
    exact ⟨us, (tokenize_eq_ok_iff separable).mpr ⟨hlength, hus⟩, hsame⟩
  refine ⟨again, fun hlength => ?_⟩
  obtain ⟨us, hus, hsame⟩ := again (render ts) (spaced_join (values ts)) hlength
  exact ⟨us, hus, hsame, congrArg (join " ") (values_eq_of_kindsAndValues hsame)⟩

/-- The signs of `2*-3-e` stay what they are between blanks and tabs and in what is rendered. -/
theorem tokenize_spaced_signs :
    let v : Vocabulary := ⟨.calculator, none⟩
    let ts : List Token := [⟨.number, "2", 0, none⟩, ⟨.operator, "*", 1, none⟩, ⟨.number, "-3", 2, none⟩,
      ⟨.operator, "-", 4, none⟩, ⟨.constant, "e", 5, none⟩, ⟨.finish, "", 6, none⟩]
    tokenize v false 100 "2*-3-e" = .ok ts ∧
      (∃ us, tokenize v false 100 "2\t* -3 - \te " = .ok us ∧ kindsAndValues us = kindsAndValues ts) ∧
      render ts = "2 * -3 - e" ∧
      ∃ us, tokenize v false 100 "2 * -3 - e" = .ok us ∧ kindsAndValues us = kindsAndValues ts ∧
        render us = "2 * -3 - e" := by
  intro v ts
  have lexed : tokenize v false 100 "2*-3-e" = .ok ts := by rfl
  have rendered : render ts = "2 * -3 - e" := by rfl
  have spaced : Spaced (values ts) ([] ++ ("2".toList ++ (['\t'] ++ ("*".toList ++ ([' '] ++ ("-3".toList ++
      ([' '] ++ ("-".toList ++ ([' ', '\t'] ++ ("e".toList ++ [' '])))))))))) := by
    have tab : Blanks ['\t'] := List.forall_mem_singleton.mpr (by decide)
    have one : Blanks [' '] := List.forall_mem_singleton.mpr (by decide)
    have two : Blanks [' ', '\t'] := List.forall_mem_cons.mpr ⟨by decide, tab⟩
    refine .cons nofun (.cons (by decide) tab (.cons (by decide) one ?_))
    exact .cons (by decide) one (.cons (by decide) two (.nil one))
  obtain ⟨hspaced, hrender⟩ := tokenize_spaced (v := v) (Or.inr rfl) lexed
  rw [rendered] at hrender
  exact ⟨lexed, hspaced "2\t* -3 - \te " spaced (by decide), rendered, hrender (by decide)⟩

end SciCalc.Token
