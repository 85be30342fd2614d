/-
  Blanks around an expression.

  1. **Tokens** (`Token.Lexes.between`) — no token has a blank in it, so what is read of a text between blanks is read
     of the text alone, with its tokens not so far along (`Token.shift`).

  2. **Postfix order** (`exists_ofTokens_of_shift`) — whether tokens are accepted does not depend on where they stand
     (`accepted_shift`), and neither does the tree that is read from them.

  3. **Values** (`Evaluation.evaluateWith_shift`) — the place of a token is told by failures and is nothing to values,
     those of random draws included: one step, and from it the run.

  4. **Theorem** (`Calculator.value_trim`) — a trimmed expression has the value of the expression.
-/
import SciCalc.Proofs.Calculator.Display
import SciCalc.Proofs.Decimal.Text
import SciCalc.Proofs.Postfix.Argument
import SciCalc.Proofs.Postfix.Parsing
import SciCalc.Proofs.Postfix.Sign
import SciCalc.Proofs.Text.Words
import SciCalc.Proofs.Token.Spacing

namespace SciCalc

open Attempt

/-! ## Tokens -/

namespace Token

open Text

variable {v : Vocabulary} {complex due : Bool} {position k : Nat} {cs rest gap : List Char}

/-- A token has no blanks. -/
theorem Reads.solid (separable : v.operators.Separable) {kind : TokenKind} (h : Reads v complex due kind cs rest) :
    ∀ c ∈ cs, isBlank c = false := by
  have numeral : ∀ {ds : List Char} {n : Nat} {k : Int}, Numeral ds n k → ∀ c ∈ ds, isBlank c = false :=
    fun hnumeral c hc => (hnumeral.isNumeric c hc).plain.1
  cases h with
  | number hnumeral _ => exact numeral hnumeral
  | negative _ hnumeral _ => exact List.forall_mem_cons.mpr ⟨by decide, numeral hnumeral⟩
  | @name c cs _ hstart hcs _ =>
    have hfirst : isNamePart c = true := by
      rw [isNamePart, hstart, Bool.true_or]
    exact List.forall_mem_cons.mpr ⟨isBlank_of_isNamePart hfirst, fun d hd => isBlank_of_isNamePart (hcs d hd)⟩
  | leftParen => exact List.forall_mem_singleton.mpr (by decide)
  | rightParen => exact List.forall_mem_singleton.mpr (by decide)
  | comma => exact List.forall_mem_singleton.mpr (by decide)
  | operator _ hsymbol _ _ _ _ =>
    exact fun c hc => separable.isBlank_eq_false (separable.indexed.longest hsymbol).1.1 hc

/-- Characters without blanks in front of a text with blanks behind it stand in the text. -/
theorem exists_of_append_blanks {front : List Char} (hsolid : ∀ c ∈ front, isBlank c = false) (hgap : Blanks gap)
    (h : front ++ rest = cs ++ gap) : ∃ rest', cs = front ++ rest' ∧ rest = rest' ++ gap := by
  rcases List.append_eq_append_iff.mp h with ⟨rest', hcs, hrest⟩ | ⟨tail, hfront, hgap'⟩
  · exact ⟨rest', hcs, hrest⟩
  · cases tail with
    | nil => exact ⟨[], by simpa using hfront.symm, by simpa using hgap'.symm⟩
    | cons b tail =>
      -- the characters would go on into the blanks
      have hb : isBlank b = true := hgap b (by rw [hgap']; exact List.mem_cons_self)
      rw [hsolid b (by rw [hfront]; exact List.mem_append_right _ List.mem_cons_self)] at hb
      cases hb

/-- Blanks in front of a text are passed over. -/
theorem Lexes.behind_blanks (separable : v.operators.Separable) {ts : List Token} (hgap : Blanks gap) :
    ∀ {position : Nat}, Lexes v complex due position (gap ++ cs) ts →
      Lexes v complex due (position + gap.length) cs ts := by
  induction gap with
  | nil => exact fun h => h
  | cons b gap ih =>
    intro position h
    obtain ⟨hb, hgap⟩ := List.forall_mem_cons.mp hgap
    rw [← scan_eq_ok_iff separable, List.cons_append, scan, if_pos hb, scan_eq_ok_iff separable] at h
    have hrest := ih hgap h
    rwa [Nat.add_right_comm] at hrest

/-- Where there is no text, the end is the only token. -/
theorem Lexes.eq_nil (separable : v.operators.Separable) {body : List Token} {fin : Token}
    (h : Lexes v complex due position [] (body ++ [fin])) : body = [] := by
  have hscan := h.scan_eq_ok separable
  rw [scan] at hscan
  have hone : [] ++ [_] = body ++ [fin] := Except.ok.inj hscan
  exact (List.append_inj' hone rfl).1.symm

/-- A text in front of blanks has the tokens that it has alone, further on. -/
theorem Lexes.before_blanks (separable : v.operators.Separable) {place : Nat} {ds : List Char} {ts : List Token}
    (h : Lexes v complex due place ds ts) :
    ∀ {position : Nat} {cs gap : List Char} {body : List Token} {fin : Token}, Blanks gap → place = position + k →
      ds = cs ++ gap → ts = body ++ [fin] →
      ∃ us fin', body = us.map (shift k) ∧ Lexes v complex due position cs (us ++ [fin']) := by
  induction h with
  | finish =>
    intro position cs gap body fin _ _ hds hts
    obtain ⟨rfl, -⟩ := List.append_eq_nil_iff.mp hds.symm
    cases body with
    | nil => exact ⟨[], _, rfl, .finish⟩
    | cons t body => exact absurd (List.cons.inj hts).2.symm (List.concat_ne_nil fin body)
  | @blank due place b ds ts hb _ ih =>
    intro position cs gap body fin hgap hplace hds hts
    have hnext : place + 1 = position + 1 + k := by omega
    cases cs with
    | cons c cs =>
      obtain ⟨rfl, rfl⟩ := List.cons.inj hds
      obtain ⟨us, fin', hbody, hlexes⟩ := ih hgap hnext rfl hts
      exact ⟨us, fin', hbody, .blank hb hlexes⟩
    | nil =>
      -- only blanks are left, in which there is no token
      obtain rfl : b :: ds = gap := hds
      obtain ⟨us, fin', rfl, hlexes⟩ := ih (List.forall_mem_cons.mp hgap).2 hnext (List.nil_append ds).symm hts
      obtain rfl := hlexes.eq_nil separable
      exact ⟨[], _, rfl, .finish⟩
  | @token due place kind ds rest ts hreads hrest ih =>
    intro position cs gap body fin hgap hplace hds hts
    cases body with
    | nil => exact absurd (List.cons.inj hts).2 hrest.ne_nil
    | cons t body =>
      obtain ⟨rfl, rfl⟩ := List.cons.inj hts
      obtain ⟨rest', rfl, rfl⟩ := exists_of_append_blanks (hreads.solid separable) hgap hds
      have hnext : place + ds.length = position + ds.length + k := by omega
      obtain ⟨us, fin', rfl, hlexes⟩ := ih hgap hnext rfl rfl
      have hclosed := hreads.closes separable (Or.inl (List.prefix_append rest' gap))
      refine ⟨⟨kind, String.ofList ds, position, none⟩ :: us, fin', ?_, .token hclosed hlexes⟩
      rw [List.map_cons, shift, hplace]
      rfl

/-- **A text between blanks has the tokens that it has alone**, further on. -/
theorem Lexes.between (separable : v.operators.Separable) {gap' : List Char} (hgap : Blanks gap)
    (hgap' : Blanks gap') {body : List Token} {fin : Token}
    (h : Lexes v complex due 0 (gap ++ (cs ++ gap')) (body ++ [fin])) :
    ∃ us fin', body = us.map (shift gap.length) ∧ Lexes v complex due 0 cs (us ++ [fin']) :=
  (h.behind_blanks separable hgap).before_blanks separable hgap' rfl rfl rfl

/-- **A trimmed text has the tokens of the text**, not so far along. -/
theorem exists_tokenize_trim (separable : v.operators.Separable) {limit : Int} {text : String} {body : List Token}
    {fin : Token} (lexed : tokenize v complex limit text = .ok (body ++ [fin])) :
    ∃ k us fin', body = us.map (shift k) ∧ tokenize v complex limit (trim text) = .ok (us ++ [fin']) := by
  obtain ⟨hlength, hlexes⟩ := (tokenize_eq_ok_iff separable).mp lexed
  obtain ⟨gap, gap', hsplit, hgap, hgap', -, -⟩ := exists_margins text.toList
  have hshorter : ((trim text).length : Int) ≤ limit := by
    have hwhole := congrArg List.length hsplit
    rw [String.length_toList, List.length_append, List.length_append] at hwhole
    rw [← String.length_toList, trim, String.toList_ofList]
    omega
  rw [hsplit] at hlexes
  obtain ⟨us, fin', hbody, hlexes'⟩ := hlexes.between separable hgap hgap'
  refine ⟨gap.length, us, fin', hbody, (tokenize_eq_ok_iff separable).mpr ⟨hshorter, ?_⟩⟩
  rw [trim, String.toList_ofList]
  exact hlexes'

end Token

/-! ## Postfix order -/

namespace Postfix

variable {ops : Operators} {d : Int} {k : Nat}

/-- Whether tokens are accepted does not depend on where they stand. -/
theorem accepted_shift {ts : List Token} : ∀ {a : Shape},
    Accepted ops d a (ts.map (Token.shift k)) ↔ Accepted ops d a ts := by
  induction ts with
  | nil => exact Iff.rfl
  | cons t ts ih =>
    intro a
    have hopens : opensNext (ts.map (Token.shift k)).head? = opensNext ts.head? := by
      cases ts <;> rfl
    have haccepts : a.Accepts ops d (t.shift k) (opensNext ts.head?) ↔ a.Accepts ops d t (opensNext ts.head?) :=
      Iff.rfl
    have hbehind : a.behind (t.shift k) = a.behind t := rfl
    rw [List.map_cons, Accepted, Accepted, hopens, haccepts, hbehind, ih]

/-- **The postfix order of tokens that stand further on** is that of the tokens, further on. -/
theorem exists_completes_of_shift (r : ops.Ranked) {ts out : List Token} (body : ∀ t ∈ ts, t.isFinish = false)
    (h : Completes ops d .initial (ts.map (Token.shift k)) out) :
    ∃ ps, Completes ops d .initial ts ps ∧ out = ps.map (Token.shift k) := by
  have body' : ∀ t ∈ ts.map (Token.shift k), t.isFinish = false := List.forall_mem_map.mpr body
  have haccepted : Accepted ops d (shape .initial) ts :=
    accepted_shift.mp ((exists_completes_iff body').mp ⟨out, h⟩)
  obtain ⟨ps, hps⟩ := (exists_completes_iff body).mpr haccepted
  -- both rows are read as trees, and the tree of the one is that of the other further on
  obtain ⟨x, hx, -, rfl⟩ := (completes_iff_climbs r body).mp hps
  obtain ⟨y, hy, -, rfl⟩ := (completes_iff_climbs r body').mp h
  obtain ⟨rfl, -⟩ := hy.unique (hx.shift k)
  exact ⟨x.postorder, hps, x.postorder_shift k⟩

end Postfix

/-! ## Values -/

namespace Evaluation

variable {call : Caller} {env : Environment} {k : Nat}

/-- A function is applied wherever its token stands. -/
theorem applyFunction_shift {s s' : Machine} {t : Token} (h : applyFunction call env s (t.shift k) = .ok s') :
    applyFunction call env s t = .ok s' := by
  unfold applyFunction at h ⊢
  dsimp only [Token.shift] at h
  split at h
  · cases h
  · obtain ⟨n, hn, h⟩ := bind_eq_ok.mp h
    rw [hn, ok_bind]
    split at h
    · cases h
    · split at h
      · cases h
      · rename_i hcount
        rw [if_neg hcount]
        exact h

theorem applyOperator_shift {s s' : Machine} {t : Token} (h : applyOperator env s (t.shift k) = .ok s') :
    applyOperator env s t = .ok s' := by
  unfold applyOperator at h ⊢
  dsimp only [Token.shift] at h
  split at h
  · cases h
  · split at h
    · exact h
    · exact h
    · cases h

/-- **A step that succeeds does not depend on where its token stands.** -/
theorem step_shift {s s' : Machine} {t : Token} (h : step call env s (t.shift k) = .ok s') :
    step call env s t = .ok s' := by
  have hkind : (t.shift k).kind = t.kind := rfl
  unfold step at h ⊢
  rw [hkind] at h
  split at h
  · exact h
  · exact h
  · exact h
  · exact applyFunction_shift h
  · exact applyOperator_shift h
  · cases h

/-- A run that succeeds does not depend on where its tokens stand. -/
theorem run_shift {ts : List Token} :
    ∀ {s s' : Machine}, run call env s (ts.map (Token.shift k)) = .ok s' → run call env s ts = .ok s' := by
  induction ts with
  | nil => exact fun h => h
  | cons t ts ih =>
    intro s s' h
    rw [List.map_cons, run_cons] at h
    obtain ⟨next, hstep, hrun⟩ := bind_eq_ok.mp h
    rw [run_cons, step_shift hstep, ok_bind]
    exact ih hrun

/-- **What tokens are evaluated to does not depend on where they stand.** -/
theorem evaluateWith_shift {ts : List Token} {outcome : Outcome}
    (h : evaluateWith call env (ts.map (Token.shift k)) = .ok outcome) : evaluateWith call env ts = .ok outcome := by
  obtain ⟨s, hrun, hfinish⟩ := evaluateWith_eq_ok.mp h
  exact evaluateWith_eq_ok.mpr ⟨s, run_shift hrun, hfinish⟩

end Evaluation

/-! ## Theorem -/

namespace Calculator

variable {c : Calculator} {v : Value}

/-- **A trimmed expression has the value of the expression.** -/
theorem value_trim (reached : Reachable c) {e : String} (h : (c.calculate (.text e)).1.value = some v) :
    (c.calculate (.text (Text.trim e))).1.value = some v := by
  have table : c.operators = .basic ∨ c.operators = .calculator := Or.inr reached.coherent.operators
  have separable : c.vocabulary.operators.Separable := Operators.separable_of_table table
  obtain ⟨ts, ps, outcome, shown, htokens, hordered, heval, rfl, hshown, -⟩ := exists_stages_of_calculate h
  -- the tokens of the trimmed text
  have lexed : Token.tokenize c.vocabulary c.modes.complexEnabled Limit.inputLength e = .ok ts := htokens
  obtain ⟨body, fin, rfl, hfin, hbody⟩ := Token.exists_body_of_tokenize lexed
  obtain ⟨k, us, fin', rfl, lexed'⟩ := Token.exists_tokenize_trim separable lexed
  have htokens' : c.tokens (.text (Text.trim e)) = .ok (us ++ [fin']) := lexed'
  -- their postfix order
  obtain ⟨hfin', hus⟩ := Token.isFinish_of_tokenize lexed'
  obtain ⟨qs, hqs, rfl⟩ := Postfix.exists_completes_of_shift (ranked_of_table table) hus
    ((Postfix.ofTokens_eq_ok_iff hfin hbody).mp hordered)
  have hordered' : c.rearrange (us ++ [fin']) = .ok qs := (Postfix.ofTokens_eq_ok_iff hfin' hus).mpr hqs
  exact (calculate_of_stages htokens' hordered' (Evaluation.evaluateWith_shift heval) hshown).2

/-- No expression is calculated that is all blanks. -/
theorem trimChars_ne_nil_of_value (reached : Reachable c) {e : String}
    (h : (c.calculate (.text e)).1.value = some v) : Text.trimChars e.toList ≠ [] := by
  have hvalue := value_trim reached h
  intro hnil
  have hnone : (c.calculate (.text "")).1.value = none := rfl
  rw [Text.trim, hnil, String.ofList_nil, hnone] at hvalue
  cases hvalue

end Calculator

end SciCalc
