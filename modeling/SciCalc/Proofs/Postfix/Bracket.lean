/-
  Unmatched parentheses.

  A left and a right parenthesis match if the tokens between them are balanced.  Two checks look for those that
  match none: the first one counts open parentheses, the run keeps them among what waits, together with operators
  and calls, and goes on after every other problem.

  1. **Matching** (`openBehind_eq`) — what a row of tokens does to the parentheses that are open in front of it: it
     closes some of them (`closing`) and leaves parentheses of its own open (`leftOpen`).  So a right parenthesis
     is unmatched exactly if nothing is open in front of it (`mem_strays`), and a left one exactly if what follows
     closes nothing (`mem_leftOpen`).

  2. **The run** (`found_runFrom`) — every step does to the parentheses that wait what its token does to those that
     are open (`minds_step`), whatever else it finds.

  3. **The first check** (`found_problemsFrom`) — its count is the number of those that are open.

  4. **Theorem** (`validators_match`) — both tell exactly of the parentheses that match none.
-/
import SciCalc.Proofs.Postfix.Checking
import SciCalc.Proofs.Token.Lexer
import SciCalc.Token.Check

namespace SciCalc.Postfix

open Number (isTellable)
open Token (followsOperator problemsFrom problems CheckCause)

/-! ## Matching -/

/-- The token is a right parenthesis of the row, and no left one in front of it matches it. -/
def UnmatchedRight (ts : List Token) (t : Token) : Prop :=
  t.kind = .rightParen ∧ ∃ before after, ts = before ++ t :: after ∧
    ¬ ∃ pre p inner, before = pre ++ p :: inner ∧ p.kind = .leftParen ∧ Balanced inner

/-- The token is a left parenthesis of the row, and no right one behind it matches it. -/
def UnmatchedLeft (ts : List Token) (t : Token) : Prop :=
  t.kind = .leftParen ∧ ∃ before after, ts = before ++ t :: after ∧
    ¬ ∃ inner q rest, after = inner ++ q :: rest ∧ q.kind = .rightParen ∧ Balanced inner

/-- How many of the parentheses that are open in front of the tokens they close. -/
def closing : List Token → Nat
  | [] => 0
  | t :: ts =>
    if t.kind = .leftParen then closing ts - 1
    else if t.kind = .rightParen then closing ts + 1
    else closing ts

/-- The left parentheses that the tokens leave open. -/
def leftOpen : List Token → List Token
  | [] => []
  | t :: ts => if t.kind = .leftParen ∧ closing ts = 0 then t :: leftOpen ts else leftOpen ts

/-- The right parentheses that find nothing open, where so many parentheses are open in front of the tokens. -/
def strays : Nat → List Token → List Token
  | _, [] => []
  | n, t :: ts =>
    if t.kind = .leftParen then strays (n + 1) ts
    else if t.kind = .rightParen then if n = 0 then t :: strays 0 ts else strays (n - 1) ts
    else strays n ts

section

variable {t : Token} {ts : List Token} {n : Nat}

theorem openAfter_left (ht : t.kind = .leftParen) : openAfter n t = some (n + 1) := by
  simp only [openAfter, ht]

theorem openAfter_right (ht : t.kind = .rightParen) :
    openAfter n t = if n = 0 then none else some (n - 1) := by
  simp only [openAfter, ht]

theorem openAfter_other (hleft : t.kind ≠ .leftParen) (hright : t.kind ≠ .rightParen) :
    openAfter n t = some n := by
  rw [openAfter]
  split
  · exact absurd ‹_› hleft
  · exact absurd ‹_› hright
  · rfl

theorem leftOpen_of_ne (ht : t.kind ≠ .leftParen) : leftOpen (t :: ts) = leftOpen ts :=
  if_neg fun h => ht h.1

/-- **What a row of tokens does to the number of open parentheses.** -/
theorem openBehind_eq (ts : List Token) : ∀ n, openBehind n ts =
    if n < closing ts then none else some (n - closing ts + (leftOpen ts).length) := by
  induction ts with
  | nil => exact fun n => rfl
  | cons t ts ih =>
    intro n
    rw [openBehind]
    by_cases hleft : t.kind = .leftParen
    · rw [openAfter_left hleft, Option.bind_some, ih, closing, if_pos hleft]
      by_cases hopen : closing ts = 0
      · have hmore : leftOpen (t :: ts) = t :: leftOpen ts := if_pos ⟨hleft, hopen⟩
        rw [hmore, hopen, List.length_cons]
        exact congrArg some (by omega)
      · have hsame : leftOpen (t :: ts) = leftOpen ts := if_neg fun h => hopen h.2
        rw [hsame]
        grind
    rw [leftOpen_of_ne hleft, closing, if_neg hleft]
    by_cases hright : t.kind = .rightParen
    · rw [openAfter_right hright, if_pos hright]
      cases n with
      | zero => rfl
      | succ n =>
        rw [if_neg (Nat.succ_ne_zero n), Option.bind_some, ih]
        grind
    · rw [openAfter_other hleft hright, if_neg hright, Option.bind_some, ih]

/-- Tokens are balanced exactly if they close nothing in front of them and leave nothing open. -/
theorem balanced_iff : Balanced ts ↔ closing ts = 0 ∧ leftOpen ts = [] := by
  rw [Balanced, openBehind_eq]
  by_cases hclosing : closing ts = 0
  · simp [hclosing]
  · simp [hclosing, Nat.pos_of_ne_zero hclosing]

/-- A row that is split at a token is split at its first one, or its rest is split. -/
theorem exists_split_cons {u : Token} {p : List Token → Token → List Token → Prop} :
    (∃ before t after, u :: ts = before ++ t :: after ∧ p before t after) ↔
      p [] u ts ∨ ∃ before t after, ts = before ++ t :: after ∧ p (u :: before) t after := by
  constructor
  · rintro ⟨before, t, after, heq, hp⟩
    cases before with
    | nil =>
      obtain ⟨rfl, rfl⟩ := List.cons.inj heq
      exact Or.inl hp
    | cons v before =>
      obtain ⟨rfl, rfl⟩ := List.cons.inj heq
      exact Or.inr ⟨before, t, after, rfl, hp⟩
  · rintro (hp | ⟨before, t, after, rfl, hp⟩)
    · exact ⟨[], u, ts, rfl, hp⟩
    · exact ⟨u :: before, t, after, rfl, hp⟩

/-- No row without tokens is split at one. -/
theorem not_exists_split_nil {p : List Token → Token → List Token → Prop} :
    ¬ ∃ before t after, ([] : List Token) = before ++ t :: after ∧ p before t after := by
  rintro ⟨before, t, after, heq, -⟩
  exact absurd heq.symm (List.append_ne_nil_of_right_ne_nil before (List.cons_ne_nil t after))

/-- **Tokens close more than `n` of the parentheses that are open** exactly if, behind a row that closes these
    `n` and its own, one of them closes another one. -/
theorem lt_closing_iff (ts : List Token) : ∀ n, n < closing ts ↔
    ∃ inner q rest, ts = inner ++ q :: rest ∧ q.kind = .rightParen ∧ openBehind n inner = some 0 := by
  induction ts with
  | nil => exact fun n => iff_of_false (Nat.not_lt_zero n) not_exists_split_nil
  | cons t ts ih =>
    intro n
    -- the token itself closes one, or one is closed behind it
    have hsplit : (∃ inner q rest, t :: ts = inner ++ q :: rest ∧ q.kind = .rightParen ∧
        openBehind n inner = some 0) ↔
        t.kind = .rightParen ∧ n = 0 ∨ ∃ m, openAfter n t = some m ∧ m < closing ts := by
      simp only [exists_split_cons, openBehind, Option.bind_eq_some_iff, Option.some.injEq, ih]
      grind
    rw [hsplit, closing]
    by_cases hleft : t.kind = .leftParen
    · rw [if_pos hleft, openAfter_left hleft, hleft]
      simp
      omega
    rw [if_neg hleft]
    by_cases hright : t.kind = .rightParen
    · rw [if_pos hright, openAfter_right hright]
      cases n with
      | zero => simp [hright]
      | succ n => simp
    · rw [if_neg hright, openAfter_other hleft hright]
      simp [hright]

/-- The tokens leave nothing open exactly if none of them is matched by a right parenthesis behind them. -/
theorem leftOpen_eq_nil_iff (ts : List Token) : leftOpen ts = [] ↔
    ¬ ∃ pre p inner, ts = pre ++ p :: inner ∧ p.kind = .leftParen ∧ Balanced inner := by
  induction ts with
  | nil => exact iff_of_true rfl not_exists_split_nil
  | cons t ts ih =>
    rw [exists_split_cons, not_or, ← ih, balanced_iff, leftOpen]
    split
    · rename_i h
      exact iff_of_false (List.cons_ne_nil _ _) fun hnot => hnot.1 ⟨h.1, h.2, hnot.2⟩
    · rename_i h
      exact (and_iff_right_of_imp fun hnil hopen => h ⟨hopen.1, hopen.2.1⟩).symm

/-- **The left parentheses that tokens leave open are those that match none.** -/
theorem mem_leftOpen (t : Token) (ts : List Token) : t ∈ leftOpen ts ↔ UnmatchedLeft ts t := by
  have hopen : t ∈ leftOpen ts ↔
      ∃ before u after, ts = before ++ u :: after ∧ (u = t ∧ t.kind = .leftParen ∧ closing after = 0) := by
    induction ts with
    | nil => exact iff_of_false List.not_mem_nil not_exists_split_nil
    | cons u ts ih =>
      rw [exists_split_cons, ← ih, leftOpen]
      split
      · grind
      · grind
  have hclosing : ∀ after, closing after = 0 ↔
      ¬ ∃ inner q rest, after = inner ++ q :: rest ∧ q.kind = .rightParen ∧ Balanced inner := by
    intro after
    exact Nat.le_zero.symm.trans (Nat.not_lt.symm.trans (not_congr (lt_closing_iff after 0)))
  rw [hopen, UnmatchedLeft]
  simp only [← hclosing]
  grind

/-- **The right parentheses that find nothing open are those that match none.** -/
theorem mem_strays (t : Token) (ts : List Token) : t ∈ strays 0 ts ↔ UnmatchedRight ts t := by
  have hstray : ∀ n, t ∈ strays n ts ↔ ∃ before u after, ts = before ++ u :: after ∧
      (u = t ∧ t.kind = .rightParen ∧ n ≤ closing before ∧ leftOpen before = []) := by
    induction ts with
    | nil => exact fun n => iff_of_false List.not_mem_nil not_exists_split_nil
    | cons u ts ih =>
      intro n
      rw [exists_split_cons, strays]
      by_cases hleft : u.kind = .leftParen
      · rw [if_pos hleft, ih]
        simp only [closing, leftOpen, hleft]
        grind
      · rw [if_neg hleft]
        simp only [closing, leftOpen, hleft]
        split
        · split
          · grind
          · grind
        · grind
  rw [hstray, UnmatchedRight]
  simp only [← leftOpen_eq_nil_iff]
  grind

end

/-- The unmatched parentheses stand in the order of the row. -/
theorem strays_sublist (ts : List Token) : ∀ n, (strays n ts).Sublist ts := by
  induction ts with
  | nil => exact fun n => .slnil
  | cons t ts ih =>
    intro n
    rw [strays]
    split
    · exact (ih _).cons t
    split
    · split
      · exact (ih _).cons_cons t
      · exact (ih _).cons t
    · exact (ih _).cons t

theorem leftOpen_sublist (ts : List Token) : (leftOpen ts).Sublist ts := by
  induction ts with
  | nil => exact .slnil
  | cons t ts ih =>
    rw [leftOpen]
    split
    · exact ih.cons_cons t
    · exact ih.cons t

/-- The parentheses that are open behind a token, the innermost first. -/
def openedBy (opened : List Token) (t : Token) : List Token :=
  if t.kind = .leftParen then t :: opened else if t.kind = .rightParen then opened.tail else opened

/-- What is open behind a row of tokens, through the first of them. -/
theorem leftOpen_openedBy (opened : List Token) (t : Token) (ts : List Token) :
    (leftOpen ts).reverse ++ (openedBy opened t).drop (closing ts) =
      (leftOpen (t :: ts)).reverse ++ opened.drop (closing (t :: ts)) := by
  rw [openedBy, leftOpen, closing]
  by_cases hleft : t.kind = .leftParen
  · cases hclosing : closing ts with
    | zero => simp [hleft]
    | succ n => simp [hleft]
  · by_cases hright : t.kind = .rightParen
    · simp [hright]
    · simp [hleft, hright]

/-- What closes nothing in a row of tokens, through the first of them. -/
theorem strays_openedBy (opened : List Token) (t : Token) (ts : List Token) :
    strays opened.length (t :: ts) =
      (if t.kind = .rightParen ∧ opened = [] then [t] else []) ++ strays (openedBy opened t).length ts := by
  rw [strays, openedBy]
  by_cases hleft : t.kind = .leftParen
  · simp [hleft]
  · by_cases hright : t.kind = .rightParen
    · cases opened with
      | nil => simp [hright]
      | cons p opened => simp [hright]
    · simp [hleft, hright]

/-! ## The run -/

/-- The place of a right parenthesis that closes nothing. -/
def Finding.right? : Finding → Option Int
  | .problem (.unmatchedRight position) => some position
  | _ => none

/-- The place of a left parenthesis that is not closed. -/
def Finding.left? : Finding → Option Int
  | .problem (.unmatchedLeft position) => some position
  | _ => none

/-- The parentheses that wait, the innermost first. -/
def parens (pending : List Pending) : List Token := (framesOf pending).map (·.paren)

section

variable {ops : Operators} {d : Int} {s : State} {t : Token} {next : Option Token}

theorem parens_release (out : List Token) (pending : List Pending) :
    parens (release out pending).2 = parens pending :=
  congrArg (List.map Frame.paren) (framesOf_release out pending)

/-- Nothing found is about parentheses that match none. -/
def Quiet (found : List Finding) : Prop := ∀ f ∈ found, f.right? = none ∧ f.left? = none

theorem quiet_nil : Quiet [] := nofun

theorem quiet_append {found more : List Finding} (h : Quiet found) (h' : Quiet more) : Quiet (found ++ more) :=
  List.forall_mem_append.mpr ⟨h, h'⟩

theorem quiet_problemIf {b : Bool} {cause : StructuralCause}
    (h : (Finding.problem cause).right? = none ∧ (Finding.problem cause).left? = none) :
    Quiet (problemIf b cause) := by
  cases b with
  | true => exact List.forall_mem_singleton.mpr h
  | false => exact quiet_nil

theorem Quiet.right?_eq {found : List Finding} (h : Quiet found) : found.filterMap Finding.right? = [] :=
  List.filterMap_eq_nil_iff.mpr fun f hf => (h f hf).1

theorem Quiet.left?_eq {found : List Finding} (h : Quiet found) : found.filterMap Finding.left? = [] :=
  List.filterMap_eq_nil_iff.mpr fun f hf => (h f hf).2

/-- A step does to the parentheses that wait what its token does to those that are open, and finds the token to
    close nothing exactly if there is none. -/
structure Minds (s : State) (t : Token) (r : Step) : Prop where
  pending : parens r.2.pending = openedBy (parens s.pending) t
  right : r.1.filterMap Finding.right? =
    if t.kind = .rightParen ∧ parens s.pending = [] then [t.position] else []
  left : r.1.filterMap Finding.left? = []

theorem Minds.of_quiet {r : Step} (pending : parens r.2.pending = openedBy (parens s.pending) t)
    (closes : ¬ (t.kind = .rightParen ∧ parens s.pending = [])) (quiet : Quiet r.1) : Minds s t r where
  pending := pending
  right := by
    rw [if_neg closes]
    exact quiet.right?_eq
  left := quiet.left?_eq

/-- A token that is no parenthesis opens and closes none. -/
theorem Minds.of_other {r : Step} (hleft : t.kind ≠ .leftParen) (hright : t.kind ≠ .rightParen)
    (pending : parens r.2.pending = parens s.pending) (quiet : Quiet r.1) : Minds s t r :=
  .of_quiet (by rw [pending, openedBy, if_neg hleft, if_neg hright]) (fun h => hright h.1) quiet

theorem minds_onLeftParen (ht : t.kind = .leftParen) : Minds s t (onLeftParen d s t) := by
  refine .of_quiet (if_pos ht).symm ?_ (quiet_append (quiet_problemIf ⟨rfl, rfl⟩) (quiet_problemIf ⟨rfl, rfl⟩))
  rw [ht]
  exact fun h => by cases h.1

/-- A right parenthesis closes the innermost one that waits, whether that opens a call or not. -/
theorem minds_onRightParen (ht : t.kind = .rightParen) : Minds s t (onRightParen s t) := by
  have hparens := parens_release s.output s.pending
  have hopened : openedBy (parens s.pending) t = (parens s.pending).tail := by
    rw [openedBy, if_neg (by rw [ht]; decide), if_pos ht]
  unfold onRightParen
  split
  · rename_i out p call commas rest hrelease
    rw [hrelease] at hparens
    have hsome : ¬ (t.kind = .rightParen ∧ parens s.pending = []) := by
      rw [← hparens]
      exact fun h => List.cons_ne_nil _ _ h.2
    have hquiet : Quiet (problemIf (s.operandDue && !(call.isSome && s.follows .leftParen))
        (missingBeforeRight s t)) := by
      refine quiet_problemIf ?_
      unfold missingBeforeRight
      split
      · exact ⟨rfl, rfl⟩
      · split <;> exact ⟨rfl, rfl⟩
    have htail : parens rest = openedBy (parens s.pending) t := by
      rw [hopened, ← hparens]
      rfl
    cases call with
    | none => exact .of_quiet htail hsome hquiet
    | some f => exact .of_quiet htail hsome (quiet_append hquiet (List.forall_mem_singleton.mpr ⟨rfl, rfl⟩))
  · rename_i hopen
    have hnone : parens s.pending = [] := by
      rw [← hparens]
      rcases release_cases s.output s.pending with h | ⟨p, call, commas, rest, h⟩
      · rw [h]
        rfl
      · exact (hopen _ p call commas rest (Prod.ext rfl h)).elim
    refine ⟨?_, ?_, rfl⟩
    · rw [hopened, hnone]
      rfl
    · rw [if_pos ⟨ht, hnone⟩]
      rfl

/-- A comma counts one argument more for the innermost parenthesis, which goes on to wait. -/
theorem parens_onComma : parens (onComma s t).2.pending = parens s.pending ∧ Quiet (onComma s t).1 := by
  have hparens := parens_release s.output s.pending
  unfold onComma
  split
  · rename_i out p f commas rest hrelease
    rw [hrelease] at hparens
    exact ⟨hparens, quiet_problemIf ⟨rfl, rfl⟩⟩
  · exact ⟨rfl, List.forall_mem_singleton.mpr ⟨rfl, rfl⟩⟩

theorem parens_onPrefix : parens (onPrefix ops s t).2.pending = parens s.pending ∧ Quiet (onPrefix ops s t).1 := by
  unfold onPrefix
  split
  · exact ⟨rfl, quiet_nil⟩
  · split <;> exact ⟨rfl, List.forall_mem_singleton.mpr ⟨rfl, rfl⟩⟩

theorem parens_onBinary : parens (onBinary ops s t).2.pending = parens s.pending ∧ Quiet (onBinary ops s t).1 := by
  unfold onBinary
  split
  · exact ⟨congrArg (List.map Frame.paren) (framesOf_releaseStronger _ s.output s.pending), quiet_nil⟩
  · exact ⟨rfl, List.forall_mem_singleton.mpr ⟨rfl, rfl⟩⟩

/-- **Every step does to the parentheses that wait what its token does to those that are open**, whatever other
    problems it finds. -/
theorem minds_step (ops : Operators) (d : Int) (s : State) (t : Token) (next : Option Token) :
    Minds s t (step ops d s t next) := by
  by_cases hleft : t.kind = .leftParen
  · simp only [step, hleft]
    exact minds_onLeftParen hleft
  by_cases hright : t.kind = .rightParen
  · simp only [step, hright]
    exact minds_onRightParen hright
  unfold step
  split
  · exact .of_other hleft hright rfl (quiet_append (quiet_problemIf ⟨rfl, rfl⟩) (quiet_problemIf ⟨rfl, rfl⟩))
  · exact absurd ‹_› hleft
  · exact absurd ‹_› hright
  · exact .of_other hleft hright parens_onComma.1 parens_onComma.2
  · split
    · exact .of_other hleft hright parens_onPrefix.1 parens_onPrefix.2
    · exact .of_other hleft hright parens_onBinary.1 parens_onBinary.2
  · exact .of_other hleft hright rfl (quiet_problemIf ⟨rfl, rfl⟩)

end

section

variable {ops : Operators} {d : Int} {s : State} {e : Token}

/-- At the end the parentheses that wait are found, and no others. -/
theorem found_finish (pending : List Pending) : ∀ out,
    (finish out pending).1.filterMap Finding.left? = (parens pending).map (·.position) ∧
      (finish out pending).1.filterMap Finding.right? = [] := by
  induction pending with
  | nil => exact fun out => ⟨rfl, rfl⟩
  | cons p rest ih =>
    intro out
    cases p with
    | operator t => exact ih (t :: out)
    | paren t call commas =>
      obtain ⟨hleft, hright⟩ := ih out
      exact ⟨congrArg (t.position :: ·) hleft, hright⟩

theorem quiet_onFinish : Quiet (onFinish s e) := by
  refine quiet_problemIf ?_
  split <;> exact ⟨rfl, rfl⟩

/-- **What a run finds about parentheses**: of the tokens to come, the right ones that close none that waits or
    is opened, and the left ones left open; and those left that wait. -/
theorem found_runFrom (he : e.isFinish = true) {ts : List Token} : ∀ {s : State}, (∀ t ∈ ts, t.isFinish = false) →
    (runFrom ops d s (ts ++ [e])).1.filterMap Finding.right? =
        (strays (parens s.pending).length (ts ++ [e])).map (·.position) ∧
      (runFrom ops d s (ts ++ [e])).1.filterMap Finding.left? =
        ((leftOpen (ts ++ [e])).reverse ++ (parens s.pending).drop (closing (ts ++ [e]))).map (·.position) := by
  induction ts with
  | nil =>
    intro s _
    obtain ⟨hleft, hright⟩ := found_finish s.pending s.output
    have hquiet : Quiet (onFinish s e) := quiet_onFinish
    have hkind : e.kind = .finish := of_decide_eq_true he
    rw [List.nil_append, runFrom, if_pos he]
    simp only [List.filterMap_append, hleft, hright, hquiet.right?_eq, hquiet.left?_eq, strays, leftOpen, closing,
      hkind]
    exact ⟨rfl, rfl⟩
  | cons t ts ih =>
    intro s hbody
    obtain ⟨ht, hbody⟩ := List.forall_mem_cons.mp hbody
    have minds := minds_step ops d s t (ts ++ [e]).head?
    obtain ⟨hright, hleft⟩ := ih (s := { (step ops d s t (ts ++ [e]).head?).2 with previous := some t }) hbody
    rw [List.cons_append, runFrom, if_neg (by rw [ht]; decide)]
    simp only [List.filterMap_append]
    rw [hright, hleft, minds.right, minds.left, minds.pending, leftOpen_openedBy, strays_openedBy]
    refine ⟨?_, rfl⟩
    split <;> rfl

end

/-! ## The first check -/

/-- The place of a right parenthesis that closes nothing. -/
def rightOf? : CheckCause → Option Int
  | .unmatchedRight position => some position
  | _ => none

/-- How many left parentheses are not closed. -/
def leftCount? : CheckCause → Option Nat
  | .unmatchedLeft count => some count
  | _ => none

/-- A token opens and closes for the first check what it opens and closes for the run. -/
theorem exists_problemsFrom (ops : Operators) (opened : List Token) (previous : Option Token) (t : Token)
    (rest : List Token) :
    ∃ found, problemsFrom ops opened.length previous (t :: rest) =
        found ++ problemsFrom ops (openedBy opened t).length (some t) rest ∧
      found.filterMap rightOf? = (if t.kind = .rightParen ∧ opened = [] then [t.position] else []) ∧
      found.filterMap leftCount? = [] := by
  generalize hmore : problemsFrom ops (openedBy opened t).length (some t) rest = more
  unfold openedBy at hmore
  unfold problemsFrom
  split
  · rename_i hleft
    rw [if_pos hleft] at hmore
    exact ⟨[], hmore, by simp [hleft], rfl⟩
  · rename_i hright hnone
    obtain rfl := List.length_eq_zero_iff.mp hnone
    rw [if_neg (by rw [hright]; decide), if_pos hright] at hmore
    exact ⟨[.unmatchedRight t.position], by rw [← hmore]; rfl, by rw [if_pos ⟨hright, rfl⟩]; rfl, rfl⟩
  · rename_i n hright hsome
    have hopened : opened ≠ [] := by
      rintro rfl
      cases hsome
    rw [if_neg (by rw [hright]; decide), if_pos hright, List.length_tail, hsome] at hmore
    exact ⟨[], hmore, by rw [if_neg fun h => hopened h.2]; rfl, rfl⟩
  · rename_i hleft hzero hsucc
    have hright : t.kind ≠ .rightParen := by
      intro hright
      cases hlength : opened.length with
      | zero => exact hzero hright hlength
      | succ n => exact hsucc n hright hlength
    have hfollows : (followsOperator ops previous t).toList.filterMap rightOf? = [] ∧
        (followsOperator ops previous t).toList.filterMap leftCount? = [] := by
      unfold followsOperator
      split
      · split <;> exact ⟨rfl, rfl⟩
      · exact ⟨rfl, rfl⟩
    rw [if_neg hleft, if_neg hright] at hmore
    refine ⟨(followsOperator ops previous t).toList, by rw [hmore], ?_, hfollows.2⟩
    rw [if_neg fun h => hright h.1, hfollows.1]

/-- **What the first check finds about parentheses**, where some are open in front. -/
theorem found_problemsFrom (ops : Operators) (ts : List Token) : ∀ (opened : List Token) previous,
    (problemsFrom ops opened.length previous (ts.filter (!·.isFinish))).filterMap rightOf? =
        (strays opened.length ts).map (·.position) ∧
      (problemsFrom ops opened.length previous (ts.filter (!·.isFinish))).filterMap leftCount? =
        [((leftOpen ts).reverse ++ opened.drop (closing ts)).length].filter (0 < ·) := by
  induction ts with
  | nil =>
    intro opened previous
    rw [List.filter_nil, problemsFrom]
    cases opened with
    | nil => exact ⟨rfl, rfl⟩
    | cons p opened => exact ⟨rfl, rfl⟩
  | cons t ts ih =>
    intro opened previous
    rw [strays_openedBy, ← leftOpen_openedBy]
    by_cases hend : t.isFinish = true
    · have hkind : t.kind = .finish := of_decide_eq_true hend
      have hopened : openedBy opened t = opened := by simp [openedBy, hkind]
      rw [List.filter_cons_of_neg (by rw [hend]; decide), hopened, hkind]
      exact ih opened previous
    · rw [List.filter_cons_of_pos (by rw [Bool.eq_false_iff.mpr hend]; rfl)]
      obtain ⟨found, hproblems, hright, hleft⟩ :=
        exists_problemsFrom ops opened previous t (ts.filter (!·.isFinish))
      obtain ⟨hrights, hlefts⟩ := ih (openedBy opened t) (some t)
      rw [hproblems, List.filterMap_append, List.filterMap_append, hright, hleft, hrights, hlefts]
      refine ⟨?_, rfl⟩
      split <;> rfl

/-! ## Issues -/

/-- What passes a filter is told of what the filter is about. -/
theorem filter_filterMap_eq {α β : Type} {tell : α → Option Issue} {place? : α → Option β} {issue : β → Issue}
    {keep : Issue → Bool} (h : ∀ a, (tell a).filter keep = (place? a).map issue) (found : List α) :
    (found.filterMap tell).filter keep = (found.filterMap place?).map issue := by
  rw [List.filter_filterMap, List.map_filterMap]
  exact congrArg (List.filterMap · found) (funext h)

/-- An issue about a call is none about parentheses. -/
theorem filter_call {functions : Option Registry} {name : String} {count : Nat} {position : Int} {code : String}
    (h : code ≠ "ARITY_ERROR" ∧ code ≠ "UNKNOWN_IDENTIFIER") :
    (Finding.issue? functions (.call name count position)).filter (·.code = code) = none := by
  rw [Option.filter_eq_none_iff]
  intro i hi hcode
  have hcall := isStructural_call hi
  rw [isStructural, of_decide_eq_true hcode, decide_eq_true h.1, decide_eq_true h.2] at hcall
  cases hcall

/-- Of all that a run finds, a code that is not about calls tells what is read of it, if it tells so of each
    problem and nothing is read of calls. -/
theorem filter_issues (code : String) (read? : Finding → Option Int) (told : Int → Issue)
    (functions : Option Registry) (hcode : code ≠ "ARITY_ERROR" ∧ code ≠ "UNKNOWN_IDENTIFIER")
    (hproblem : ∀ cause : StructuralCause,
      (some cause.issue).filter (·.code = code) = (read? (.problem cause)).map told)
    (hcall : ∀ name count position, read? (.call name count position) = none) (found : List Finding) :
    (found.filterMap (Finding.issue? functions)).filter (·.code = code) = (found.filterMap read?).map told := by
  refine filter_filterMap_eq (fun f => ?_) found
  cases f with
  | problem cause => exact hproblem cause
  | call name count position =>
    rw [hcall]
    exact filter_call hcode

/-- The same of all that the first check finds. -/
theorem filter_problems {β : Type} (code : String) (read? : CheckCause → Option β) (told : β → Issue)
    (hcause : ∀ cause : CheckCause, (some cause.issue).filter (·.code = code) = (read? cause).map told)
    (causes : List CheckCause) :
    (causes.map CheckCause.issue).filter (·.code = code) = (causes.filterMap read?).map told := by
  rw [← List.filterMap_eq_map]
  exact filter_filterMap_eq hcause causes

/-! ## Theorem -/

/-- What the run over a text finds about parentheses. -/
theorem found_run (ops : Operators) (d : Int) {ts : List Token} (h : ∃ body e, ts = body ++ [e] ∧
    e.isFinish = true ∧ ∀ t ∈ body, t.isFinish = false) :
    (run ops d ts).1.filterMap Finding.right? = (strays 0 ts).map (·.position) ∧
      (run ops d ts).1.filterMap Finding.left? = (leftOpen ts).reverse.map (·.position) := by
  obtain ⟨body, e, rfl, he, hbody⟩ := h
  cases body with
  | nil =>
    have hkind : e.kind = .finish := of_decide_eq_true he
    rw [run, List.nil_append, List.head?_cons, Option.all_some, if_pos he]
    simp only [strays, leftOpen, hkind]
    exact ⟨rfl, rfl⟩
  | cons t body =>
    have hrun : run ops d (t :: body ++ [e]) = runFrom ops d .initial (t :: body ++ [e]) := by
      rw [run, List.cons_append, List.head?_cons, Option.all_some, if_neg]
      rw [hbody t List.mem_cons_self]
      decide
    rw [hrun]
    refine (found_runFrom he hbody).imp_right fun hleft => hleft.trans ?_
    rw [show parens State.initial.pending = [] from rfl, List.drop_nil, List.append_nil]

/-- What the first check finds about parentheses in a text. -/
theorem found_problems (ops : Operators) (ts : List Token) :
    (problems ops ts).filterMap rightOf? = (strays 0 ts).map (·.position) ∧
      (problems ops ts).filterMap leftCount? = [(leftOpen ts).length].filter (0 < ·) := by
  have hfound := found_problemsFrom ops ts [] none
  rw [List.drop_nil, List.append_nil, List.length_reverse] at hfound
  unfold problems
  split
  · rename_i hnone
    rw [hnone] at hfound
    exact hfound
  · exact hfound

/-- **Both checks find the parentheses that match none**, whatever else is wrong.  The right ones are told in the
    order of the text by both; the left ones one by one by the run, the last one first, and with their number by
    the first check.  The issues of the run are those that the check ends with, where the depth, the length of the
    text and the numbers of arguments that functions take can be told. -/
theorem validators_match {v : Vocabulary} {complex : Bool} {limit : Int} {text : String} {ts : List Token}
    (lexed : Token.tokenize v complex limit text = .ok ts) (maxDepth : Int) :
    ∃ rights lefts : List Token,
      (∀ t, t ∈ rights ↔ UnmatchedRight ts t) ∧ (∀ t, t ∈ lefts ↔ UnmatchedLeft ts t) ∧
      rights.Sublist ts ∧ lefts.Sublist ts ∧ ts.Pairwise (fun t u => t.position < u.position) ∧
      (issues v maxDepth ts).filter (·.code = "UNMATCHED_RIGHT_PAREN") = rights.map (fun t =>
        ⟨"Unmatched right parenthesis at position " ++ Number.intText t.position, "UNMATCHED_RIGHT_PAREN",
          some t.position⟩) ∧
      (issues v maxDepth ts).filter (·.code = "UNMATCHED_LEFT_PAREN") = lefts.reverse.map (fun t =>
        ⟨"Unmatched left parenthesis at position " ++ Number.intText t.position, "UNMATCHED_LEFT_PAREN",
          some t.position⟩) ∧
      ((problems v.operators ts).map CheckCause.issue).filter (·.code = "UNMATCHED_RIGHT_PAREN") =
        (issues v maxDepth ts).filter (·.code = "UNMATCHED_RIGHT_PAREN") ∧
      (((problems v.operators ts).map CheckCause.issue).filter (·.code = "UNMATCHED_LEFT_PAREN") =
        if lefts = [] then []
        else [⟨"Unmatched left parenthesis (" ++ Number.natText lefts.length ++ " unclosed)",
          "UNMATCHED_LEFT_PAREN", none⟩]) ∧
      (isTellable maxDepth = true → isTellable (text.length + 1 : Nat) = true →
        (∀ r name f n, v.functions = some r → r.find? name = some f → f.arity = .exactly n →
          isTellable n = true) →
        validate v maxDepth ts = .ok (issues v maxDepth ts)) := by
  obtain ⟨hright, hleft⟩ := found_run v.operators maxDepth (Token.exists_body_of_tokenize lexed)
  obtain ⟨hright', hleft'⟩ := found_problems v.operators ts
  have hrights : (issues v maxDepth ts).filter (·.code = "UNMATCHED_RIGHT_PAREN") =
      (strays 0 ts).map fun t => (StructuralCause.unmatchedRight t.position).issue := by
    rw [issues, filter_issues _ Finding.right? (fun p => (StructuralCause.unmatchedRight p).issue) _ (by decide)
      (fun cause => by cases cause <;> rfl) (fun _ _ _ => rfl), hright, List.map_map]
    rfl
  refine ⟨strays 0 ts, leftOpen ts, fun t => mem_strays t ts, fun t => mem_leftOpen t ts, strays_sublist ts 0,
    leftOpen_sublist ts, Token.increasing_of_tokenize lexed, hrights, ?_, ?_, ?_, ?_⟩
  · rw [issues, filter_issues _ Finding.left? (fun p => (StructuralCause.unmatchedLeft p).issue) _ (by decide)
      (fun cause => by cases cause <;> rfl) (fun _ _ _ => rfl), hleft, List.map_map]
    rfl
  · rw [hrights, filter_problems _ rightOf? (fun p => (StructuralCause.unmatchedRight p).issue)
      (fun cause => by cases cause <;> rfl), hright', List.map_map]
    rfl
  · rw [filter_problems _ leftCount? (fun n => (CheckCause.unmatchedLeft n).issue)
      (fun cause => by cases cause <;> rfl), hleft']
    cases leftOpen ts with
    | nil => rfl
    | cons t lefts => rfl
  · exact fun hdepth htext arities => validate_of_tokenize lexed htext hdepth arities

/-- In `2)+((3 4,)` the first right and the first left parenthesis match none, although an operator is missing and
    a comma stands outside of a call. -/
theorem validators_match_misplaced :
    let v : Vocabulary := ⟨.calculator, none⟩
    let ts : List Token := [⟨.number, "2", 0, none⟩, ⟨.rightParen, ")", 1, none⟩, ⟨.operator, "+", 2, none⟩,
      ⟨.leftParen, "(", 3, none⟩, ⟨.leftParen, "(", 4, none⟩, ⟨.number, "3", 5, none⟩, ⟨.number, "4", 7, none⟩,
      ⟨.comma, ",", 8, none⟩, ⟨.rightParen, ")", 9, none⟩, ⟨.finish, "", 10, none⟩]
    Token.tokenize v false 100 "2)+((3 4,)" = .ok ts ∧
      ∃ rights lefts : List Token, (∀ t, t ∈ rights ↔ UnmatchedRight ts t) ∧
        (∀ t, t ∈ lefts ↔ UnmatchedLeft ts t) ∧ rights.map (fun t => some t.position) = [some 1] ∧
        lefts.reverse.map (fun t => some t.position) = [some 3] := by
  intro v ts
  have lexed : Token.tokenize v false 100 "2)+((3 4,)" = .ok ts := by rfl
  have hrights : ((issues v 100 ts).filter (·.code = "UNMATCHED_RIGHT_PAREN")).map (·.position) = [some 1] := by
    decide +kernel
  have hlefts : ((issues v 100 ts).filter (·.code = "UNMATCHED_LEFT_PAREN")).map (·.position) = [some 3] := by
    decide +kernel
  obtain ⟨rights, lefts, hright, hleft, -, -, -, hri, hli, -⟩ := validators_match lexed 100
  rw [hri, List.map_map] at hrights
  rw [hli, List.map_map] at hlefts
  exact ⟨lexed, rights, lefts, hright, hleft, hrights, hlefts⟩

end SciCalc.Postfix
