/-
  Signs of numbers as operators.

  A minus sign in front of a number belongs to it where an operand is due.  The lexer and the run tell by different
  means where that is: the lexer by the kind of the token before, the run by what it has done so far.

  1. **Shapes** (`minded_step`) — whether a step finds a problem, and what later steps see of it, depends on three
     things alone: whether an operand is due, the kind of the token before, and which of the open parentheses belong
     to calls.

  2. **Accepting** (`exists_completes_iff`) — so a machine with these three things, and without output, tells whether
     tokens can be put into postfix order.

  3. **Splitting** (`accepted_splitSigns`) — where the lexer takes an operand to be due, one is due in the machine.
     There a sign as an operator and the number behind it lead where the number with its sign does.

  4. **Theorem** (`sign_keeps_wellFormed`).
-/
import SciCalc.Proofs.Postfix.Passing
import SciCalc.Proofs.Postfix.Simulation
import SciCalc.Proofs.Token.Tiling

namespace SciCalc.Postfix

open Tree

/-! ## Shapes -/

/-- What later steps find problems by. -/
structure Shape where
  /-- The next token has to begin an operand. -/
  due : Bool
  /-- The kind of the token before. -/
  previous : Option TokenKind
  /-- Of each open parenthesis, the innermost first, whether it belongs to a call. -/
  calls : List Bool

/-- The shape of a state. -/
def shape (s : State) : Shape := ⟨s.operandDue, s.previous.map (·.kind), (framesOf s.pending).map (·.isCall)⟩

/-- The token may follow in the shape; `opens` tells whether a left parenthesis stands behind it. -/
def Shape.Accepts (ops : Operators) (d : Int) (a : Shape) (t : Token) (opens : Bool) : Prop :=
  match t.kind with
  | .function => a.due = true ∧ opens = true
  | .leftParen => a.due = true ∧ (a.calls.length : Int) < d
  | .rightParen => ∃ call calls, a.calls = call :: calls ∧
      (a.due = true → call = true ∧ a.previous = some .leftParen)
  | .comma => a.due = false ∧ ∃ calls, a.calls = true :: calls
  | .operator => if a.due then (ops.unary? t.value).isSome else (ops.binary? t.value).isSome
  | _ => a.due = true

/-- The shape behind a token that may follow. -/
def Shape.behind (a : Shape) (t : Token) : Shape :=
  match t.kind with
  | .function => ⟨true, some .function, a.calls⟩
  | .leftParen => ⟨true, some .leftParen, decide (a.previous = some .function) :: a.calls⟩
  | .rightParen => ⟨false, some .rightParen, a.calls.tail⟩
  | .comma => ⟨true, some .comma, a.calls⟩
  | .operator => ⟨true, some .operator, a.calls⟩
  | kind => ⟨false, some kind, a.calls⟩

/-- A left parenthesis is next. -/
def opensNext (next : Option Token) : Bool := next.any (·.kind = .leftParen)

variable {ops : Operators} {d : Int}

/-- The step finds no problem exactly if the shape accepts the token, and then it leads to the shape behind it. -/
def Minded (ops : Operators) (d : Int) (s : State) (t : Token) (next : Option Token) : Prop :=
  (Faultless (step ops d s t next).1 ↔ (shape s).Accepts ops d t (opensNext next)) ∧
    (Faultless (step ops d s t next).1 → shape (advance ops d s t next) = (shape s).behind t)

section

variable {s : State} {t : Token} {next : Option Token}

theorem follows_iff {kind : TokenKind} : s.follows kind = true ↔ (shape s).previous = some kind := by
  unfold State.follows shape
  cases s.previous with
  | none => simp
  | some u => simp

theorem length_calls : (shape s).calls.length = depth s.pending :=
  (List.length_map _).trans (length_framesOf s.pending)

/-- The operators that wait inside a parenthesis do not matter to the shape. -/
theorem calls_release : (framesOf (release s.output s.pending).2).map (·.isCall) = (shape s).calls :=
  congrArg (List.map (·.isCall)) (framesOf_release s.output s.pending)

theorem calls_of_release {out : List Token} {p : Token} {call : Option Token} {commas : Nat} {rest : List Pending}
    (h : release s.output s.pending = (out, .paren p call commas :: rest)) :
    (shape s).calls = call.isSome :: (framesOf rest).map (·.isCall) := by
  rw [← calls_release, h]
  rfl

theorem calls_of_release_eq_nil (h : (release s.output s.pending).2 = []) : (shape s).calls = [] := by
  rw [← calls_release, h]
  rfl

theorem minded_operand (ht : isOperand t) : Minded ops d s t next := by
  unfold Minded advance Shape.Accepts Shape.behind
  rcases ht with ht | ht | ht
  all_goals
    simp only [ht, step, onOperand, faultless_problemIf, Bool.not_eq_false']
    exact ⟨Iff.rfl, fun _ => by simp [shape, ht]⟩

theorem minded_function (ht : t.kind = .function) : Minded ops d s t next := by
  unfold Minded advance Shape.Accepts Shape.behind
  simp only [ht, step, onFunction, faultless_append, faultless_problemIf, Bool.not_eq_false']
  refine ⟨Iff.rfl, fun ⟨_, opens⟩ => ?_⟩
  simp [shape, ht, opens]

theorem minded_leftParen (ht : t.kind = .leftParen) : Minded ops d s t next := by
  unfold Minded advance Shape.Accepts Shape.behind
  simp only [ht, step, onLeftParen, faultless_append, faultless_problemIf, Bool.not_eq_false', length_calls,
    decide_eq_false_iff_not, Int.not_le]
  refine ⟨Iff.rfl, fun _ => ?_⟩
  cases hprevious : s.previous with
  | none => simp [shape, framesOf, ht, hprevious]
  | some u =>
    by_cases hu : u.kind = .function
    · simp [shape, framesOf, ht, hprevious, hu]
    · simp [shape, framesOf, ht, hprevious, hu]

theorem minded_rightParen (ht : t.kind = .rightParen) : Minded ops d s t next := by
  unfold Minded advance Shape.Accepts Shape.behind
  simp only [ht, step]
  unfold onRightParen
  split
  · rename_i out p call commas rest hrelease
    rw [calls_of_release hrelease]
    cases call with
    | none => simp [shape, ht]
    | some f => simp [shape, ht, follows_iff]
  · rename_i hnone
    rcases release_cases s.output s.pending with hnil | ⟨p, call, commas, rest, hparen⟩
    · simp [calls_of_release_eq_nil hnil]
    · exact (hnone _ p call commas rest (Prod.ext rfl hparen)).elim

theorem minded_comma (ht : t.kind = .comma) : Minded ops d s t next := by
  unfold Minded advance Shape.Accepts Shape.behind
  simp only [ht, step]
  unfold onComma
  split
  · rename_i out p f commas rest hrelease
    rw [calls_of_release hrelease]
    simp [shape, ht, framesOf]
  · rename_i hnone
    rcases release_cases s.output s.pending with hnil | ⟨p, call, commas, rest, hparen⟩
    · simp [calls_of_release_eq_nil hnil]
    · cases call with
      | none =>
        -- a parenthesis that belongs to no call has no commas
        rw [calls_of_release (Prod.ext rfl hparen)]
        simp
      | some f => exact (hnone _ p f commas rest (Prod.ext rfl hparen)).elim

theorem minded_operator (ht : t.kind = .operator) : Minded ops d s t next := by
  unfold Minded advance Shape.Accepts Shape.behind
  simp only [ht, step]
  cases due : s.operandDue with
  | true =>
    simp only [shape, due, if_true, onPrefix]
    cases ops.unary? t.value with
    | none => simp
    | some o => simp [ht, framesOf]
  | false =>
    simp only [shape, due, Bool.false_eq_true, if_false, onBinary]
    cases ops.binary? t.value with
    | none => simp
    | some o => simp [ht, framesOf, framesOf_releaseStronger]

/-- **A step does what its token does to the shape.** -/
theorem minded_step (ht : t.isFinish = false) : Minded ops d s t next := by
  cases hkind : t.kind with
  | number => exact minded_operand (.inl hkind)
  | constant => exact minded_operand (.inr (.inl hkind))
  | «variable» => exact minded_operand (.inr (.inr hkind))
  | function => exact minded_function hkind
  | leftParen => exact minded_leftParen hkind
  | rightParen => exact minded_rightParen hkind
  | comma => exact minded_comma hkind
  | operator => exact minded_operator hkind
  | finish => exact absurd hkind (of_decide_eq_false ht)

end

/-! ## Accepting -/

/-- From a shape on every token may follow, and behind them nothing is due or open. -/
def Accepted (ops : Operators) (d : Int) : Shape → List Token → Prop
  | a, [] => a.due = false ∧ a.calls = []
  | a, t :: ts => a.Accepts ops d t (opensNext ts.head?) ∧ Accepted ops d (a.behind t) ts

/-- The end finds no problem exactly if no parenthesis is open. -/
theorem exists_finish_iff {out : List Token} {pending : List Pending} :
    (∃ tokens, finish out pending = ([], tokens)) ↔ framesOf pending = [] := by
  induction pending generalizing out with
  | nil => exact iff_of_true ⟨_, rfl⟩ rfl
  | cons p rest ih =>
    cases p with
    | operator t => exact ih
    | paren t call commas => exact iff_of_false (fun ⟨_, h⟩ => nomatch congrArg Prod.fst h) (List.cons_ne_nil _ _)

/-- **The run completes an expression exactly if the shape accepts its tokens.** -/
theorem exists_completes_iff {ts : List Token} (body : ∀ t ∈ ts, t.isFinish = false) {s : State} :
    (∃ out, Completes ops d s ts out) ↔ Accepted ops d (shape s) ts := by
  induction ts generalizing s with
  | nil =>
    simp only [completes_nil, exists_and_left, exists_finish_iff]
    rw [Accepted, shape, List.map_eq_nil_iff]
  | cons t ts ih =>
    obtain ⟨ht, hts⟩ := List.forall_mem_cons.mp body
    have hstep : Minded ops d s t ts.head? := minded_step ht
    obtain ⟨haccepts, hbehind⟩ := hstep
    simp only [completes_cons, exists_and_left, ih hts]
    rw [Accepted, ← haccepts]
    exact and_congr_right fun faultless => by rw [hbehind faultless]

/-! ## Splitting -/

/-- The token is a number with a minus sign in front. -/
def Signed (t : Token) : Prop := t.kind = .number ∧ t.value.toList.head? = some '-'

instance (t : Token) : Decidable (Signed t) := inferInstanceAs (Decidable (_ ∧ _))

theorem Signed.isFinish {t : Token} (h : Signed t) : t.isFinish = false := by
  rw [Token.isFinish, h.1]
  rfl

/-- A number with a sign as an operator and the number behind it. -/
def splitSign (t : Token) : List Token :=
  if Signed t then
    [⟨.operator, "-", t.position, none⟩,
      { t with value := String.ofList (t.value.toList.drop 1), position := t.position + 1 }]
  else [t]

/-- All numbers with signs as operators and the numbers behind them. -/
def splitSigns (ts : List Token) : List Token := ts.flatMap splitSign

theorem splitSigns_cons (t : Token) (ts : List Token) : splitSigns (t :: ts) = splitSign t ++ splitSigns ts :=
  List.flatMap_cons

theorem opensNext_splitSigns (ts : List Token) : opensNext (splitSigns ts).head? = opensNext ts.head? := by
  cases ts with
  | nil => rfl
  | cons t ts =>
    rw [splitSigns_cons, splitSign]
    split
    · rename_i hsigned
      simp [opensNext, hsigned.1]
    · rfl

/-- Behind a token that the lexer takes to open an operand one is due. -/
theorem due_behind {a : Shape} {t : Token} (h : Token.opensOperand t.kind = true) : (a.behind t).due = true := by
  unfold Shape.behind
  cases hkind : t.kind with
  | leftParen => rfl
  | comma => rfl
  | operator => rfl
  | function => rfl
  | _ =>
    rw [hkind] at h
    cases h

/-- A sign that may be an operator leads with the number behind it where the number with its sign does. -/
theorem accepted_splitSign (minus : (ops.unary? "-").isSome = true) {a : Shape} (due : a.due = true) {t : Token}
    (ht : Signed t) (ts : List Token) :
    Accepted ops d a (splitSign t ++ ts) ↔ Accepted ops d (a.behind t) ts := by
  rw [splitSign, if_pos ht]
  simp only [List.cons_append, List.nil_append, Accepted, Shape.Accepts, Shape.behind, ht.1, due, minus, if_true,
    true_and]

/-- **Splitting the signs changes nothing**, where they stand where the lexer takes an operand to be due. -/
theorem accepted_splitSigns (minus : (ops.unary? "-").isSome = true) {ts : List Token} {a : Shape} {due : Bool}
    (hdue : due = true → a.due = true)
    (signs : ∀ before t after, ts = before ++ t :: after → Signed t → Token.dueBehind due before = true) :
    Accepted ops d a (splitSigns ts) ↔ Accepted ops d a ts := by
  induction ts generalizing a due with
  | nil => exact Iff.rfl
  | cons t ts ih =>
    have hrest : Accepted ops d (a.behind t) (splitSigns ts) ↔ Accepted ops d (a.behind t) ts := by
      refine ih due_behind ?_
      intro before u after heq hu
      exact signs (t :: before) u after (congrArg (t :: ·) heq) hu
    rw [splitSigns_cons]
    by_cases ht : Signed t
    · have hopen : a.due = true := hdue (signs [] t ts rfl ht)
      rw [accepted_splitSign minus hopen ht, hrest, Accepted]
      simp only [Shape.Accepts, ht.1, hopen, true_and]
    · rw [splitSign, if_neg ht, List.singleton_append, Accepted, Accepted, hrest, opensNext_splitSigns]

/-! ## Passing -/

/-- Steps in front of the end are steps of the whole row. -/
theorem Passes.append_finish {s s' : State} {ts rest : List Token} {e : Token} (he : e.isFinish = true)
    (h : Passes ops d s ts s' rest) : Passes ops d s (ts ++ [e]) s' (rest ++ [e]) := by
  induction h with
  | refl => exact .refl
  | @step s t ts s' rest faultless _ ih =>
    rw [← step_head?_append he] at faultless
    rw [advance, ← step_head?_append he] at ih
    exact .step faultless ih

/-- What completes an expression passes all of its tokens. -/
theorem Completes.exists_passes {before rest out : List Token} {s : State}
    (h : Completes ops d s (before ++ rest) out) :
    ∃ s', Passes ops d s (before ++ rest) s' rest ∧ Completes ops d s' rest out := by
  induction before generalizing s with
  | nil => exact ⟨s, .refl, h⟩
  | cons t before ih =>
    obtain ⟨faultless, hcompletes⟩ := completes_cons.mp h
    obtain ⟨s', passes, hrest⟩ := ih hcompletes
    exact ⟨s', .step faultless passes, hrest⟩

/-! ## The theorem -/

/-- In both tables a minus sign may stand in front of an operand. -/
theorem isSome_unary_minus {v : Vocabulary} (table : v.operators = .basic ∨ v.operators = .calculator) :
    (v.operators.unary? "-").isSome = true := by
  rcases table with h | h
  · rw [h]
    decide
  · rw [h]
    decide

/-- A number has its sign where the lexer takes an operand to be due. -/
theorem dueBehind_of_signed {v : Vocabulary} (table : v.operators = .basic ∨ v.operators = .calculator)
    {complex : Bool} {limit : Int} {text : String} {ts : List Token}
    (lexed : Token.tokenize v complex limit text = .ok ts) {before after : List Token} {t : Token}
    (hsplit : ts = before ++ t :: after) (ht : Signed t) : Token.dueBehind true before = true := by
  obtain ⟨-, hlexes⟩ := (Token.tokenize_eq_ok_iff (Operators.separable_of_table table)).mp lexed
  obtain ⟨front, rest, -, -, hreads⟩ := hlexes.exists_split hsplit ht.isFinish
  obtain ⟨sign, ds, n, k, hvalue, hnumeral, rfl | ⟨-, hdue⟩⟩ := hreads.numeral ht.1
  · -- a numeral has no sign of its own
    obtain ⟨c, cs, rfl, hc⟩ := Token.exists_cons_of_numeral hnumeral
    have hminus : c = '-' := by
      have hhead := ht.2
      rw [hvalue] at hhead
      exact Option.some.inj hhead
    rw [hminus] at hc
    exact absurd hc (by decide)
  · exact hdue

theorem splitSigns_append_finish (ts : List Token) {e : Token} (he : e.isFinish = true) :
    splitSigns (ts ++ [e]) = splitSigns ts ++ [e] := by
  have hunsigned : ¬ Signed e := fun h => by
    have hkind : e.kind = .finish := of_decide_eq_true he
    rw [h.1] at hkind
    cases hkind
  rw [splitSigns, List.flatMap_append, List.flatMap_singleton, splitSign, if_neg hunsigned]
  rfl

/-- A token that is not the end stands in front of it. -/
theorem exists_body_of_split {body before after : List Token} {e t : Token} (he : e.isFinish = true)
    (ht : t.isFinish = false) (h : body ++ [e] = before ++ t :: after) :
    ∃ rest, body = before ++ t :: rest ∧ after = rest ++ [e] := by
  rcases List.eq_nil_or_concat after with rfl | ⟨rest, u, rfl⟩
  · obtain ⟨-, hlast⟩ := List.append_inj' h rfl
    obtain ⟨rfl, -⟩ := List.cons.inj hlast
    rw [he] at ht
    cases ht
  · rw [List.concat_eq_append, ← List.cons_append, ← List.append_assoc] at h
    obtain ⟨hbody, hlast⟩ := List.append_inj' h rfl
    rw [List.concat_eq_append, hlast]
    exact ⟨rest, hbody, rfl⟩

/-- The tokens that a sign is split into are not the end. -/
theorem isFinish_of_mem_splitSigns {ts : List Token} (body : ∀ t ∈ ts, t.isFinish = false) :
    ∀ t ∈ splitSigns ts, t.isFinish = false := by
  intro u hu
  obtain ⟨t, ht, hmem⟩ := List.mem_flatMap.mp hu
  have hbody := body t ht
  rw [splitSign] at hmem
  split at hmem
  · rcases List.mem_cons.mp hmem with rfl | hmem
    · rfl
    · rw [List.mem_singleton.mp hmem]
      exact hbody
  · rw [List.mem_singleton.mp hmem]
    exact hbody

/-- **A sign as an operator leaves an expression well formed, and makes none well formed.**  For the tokens of every
    text, those with the signs of the numbers as operators can be put into postfix order exactly if the tokens
    themselves can.  Where they can, the lexer and the run agree about every number with a sign: it stands at the
    start or behind a left parenthesis, a comma or an operator, and the run reaches it with an operand due. -/
theorem sign_keeps_wellFormed {v : Vocabulary} (table : v.operators = .basic ∨ v.operators = .calculator)
    {complex : Bool} {limit : Int} {text : String} {ts : List Token}
    (lexed : Token.tokenize v complex limit text = .ok ts) (maxDepth : Int) :
    ((∃ out, ofTokens v.operators maxDepth ts = .ok out) ↔
      ∃ out, ofTokens v.operators maxDepth (splitSigns ts) = .ok out) ∧
    ∀ {out : List Token}, ofTokens v.operators maxDepth ts = .ok out →
      ∀ before t after, ts = before ++ t :: after → Signed t →
        Token.OperandDue before ∧
          ∃ s, Passes v.operators maxDepth .initial ts s (t :: after) ∧ s.operandDue = true := by
  obtain ⟨body, e, hts, he, hbody⟩ := Token.exists_body_of_tokenize lexed
  constructor
  · have hsigns : ∀ before t after, body = before ++ t :: after → Signed t → Token.dueBehind true before = true := by
      intro before t after hsplit ht
      have hrow : ts = before ++ t :: (after ++ [e]) := by
        rw [hts, hsplit, List.append_assoc, List.cons_append]
      exact dueBehind_of_signed table lexed hrow ht
    rw [hts, splitSigns_append_finish body he]
    simp only [ofTokens_eq_ok_iff he hbody, ofTokens_eq_ok_iff he (isFinish_of_mem_splitSigns hbody)]
    rw [exists_completes_iff hbody, exists_completes_iff (isFinish_of_mem_splitSigns hbody)]
    exact (accepted_splitSigns (isSome_unary_minus table) (fun _ => rfl) hsigns).symm
  · intro out hout before t after hsplit ht
    refine ⟨Token.operandDue_of_dueBehind (dueBehind_of_signed table lexed hsplit ht), ?_⟩
    rw [hts] at hsplit
    obtain ⟨rest, rfl, rfl⟩ := exists_body_of_split he ht.isFinish hsplit
    rw [hts, ofTokens_eq_ok_iff he hbody] at hout
    obtain ⟨s, passes, hrest⟩ := hout.exists_passes
    have hpasses := passes.append_finish he
    rw [List.cons_append, ← hts] at hpasses
    exact ⟨s, hpasses, due_of_operand (.inl ht.1) (completes_cons.mp hrest).1⟩

/-- In `2^-3*(-.5e1-1)` there are two numbers with signs and a minus sign between numbers.  With the signs as
    operators the tokens are well formed, so they are as they stand, and an operand is due at the second sign. -/
theorem sign_keeps_wellFormed_nested :
    let v : Vocabulary := ⟨.calculator, none⟩
    let before : List Token := [⟨.number, "2", 0, none⟩, ⟨.operator, "^", 1, none⟩, ⟨.number, "-3", 2, none⟩,
      ⟨.operator, "*", 4, none⟩, ⟨.leftParen, "(", 5, none⟩]
    let signed : Token := ⟨.number, "-.5e1", 6, none⟩
    let after : List Token := [⟨.operator, "-", 11, none⟩, ⟨.number, "1", 12, none⟩, ⟨.rightParen, ")", 13, none⟩,
      ⟨.finish, "", 14, none⟩]
    Token.tokenize v false 100 "2^-3*(-.5e1-1)" = .ok (before ++ signed :: after) ∧
      splitSigns (before ++ signed :: after) =
        [⟨.number, "2", 0, none⟩, ⟨.operator, "^", 1, none⟩, ⟨.operator, "-", 2, none⟩, ⟨.number, "3", 3, none⟩,
          ⟨.operator, "*", 4, none⟩, ⟨.leftParen, "(", 5, none⟩, ⟨.operator, "-", 6, none⟩,
          ⟨.number, ".5e1", 7, none⟩] ++ after ∧
      (∃ out, ofTokens v.operators 100 (before ++ signed :: after) = .ok out) ∧
      ∃ s, Passes v.operators 100 .initial (before ++ signed :: after) s (signed :: after) ∧ s.operandDue = true := by
  intro v before signed after
  have lexed : Token.tokenize v false 100 "2^-3*(-.5e1-1)" = .ok (before ++ signed :: after) := by rfl
  have split : splitSigns (before ++ signed :: after) =
      [⟨.number, "2", 0, none⟩, ⟨.operator, "^", 1, none⟩, ⟨.operator, "-", 2, none⟩, ⟨.number, "3", 3, none⟩,
        ⟨.operator, "*", 4, none⟩, ⟨.leftParen, "(", 5, none⟩, ⟨.operator, "-", 6, none⟩,
        ⟨.number, ".5e1", 7, none⟩] ++ after := by decide
  obtain ⟨hiff, hsigns⟩ := sign_keeps_wellFormed (v := v) (Or.inr rfl) lexed 100
  obtain ⟨out, hout⟩ := hiff.mpr ⟨_, by rw [split]; rfl⟩
  exact ⟨lexed, split, ⟨out, hout⟩, (hsigns hout before signed after rfl ⟨rfl, by decide⟩).2⟩

end SciCalc.Postfix
