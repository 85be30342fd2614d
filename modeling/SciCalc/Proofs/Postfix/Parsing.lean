/-
  Rearranging by precedence is reading by climbing.

  1. **Completeness** (`Climbs.passes`) — where a tree is read, the steps over its tokens find no problem.
     Behind them the post-order of the tree is complete up to some operators that still wait; each of them
     yields to whatever operator comes next.  What waited before is untouched: it is guarded against every
     operator that belongs to the tree.

  2. **Soundness** (`exists_climbs`) — where the steps find no problem up to the end, a tree is read.  The
     steps settle which rule of the reading applies, and completeness tells the state behind each part.

  3. **The conversion** (`ofTokens_eq_ok_iff_climbs`).
-/
import SciCalc.Proofs.Postfix.Passing
import SciCalc.Proofs.Token.Lexer

namespace SciCalc

open Tree Postfix

variable {ops : Operators} {d : Int}

/-! ## States around an operand -/

namespace Postfix

/-- An operand can begin, and no function name stands in front of it. -/
structure Ready (s : State) : Prop where
  due : s.operandDue = true
  fresh : s.follows .function = false

theorem ready_of_kind {t : Token} {k : TokenKind} (ht : t.kind = k) (hk : k ≠ .function)
    {out : List Token} {pending : List Pending} : Ready ⟨out, pending, true, some t⟩ where
  due := rfl
  fresh := by
    rw [← ht] at hk
    exact decide_eq_false hk

/-- The state behind a left parenthesis. -/
def opened (s : State) (p : Token) (call : Option Token) : State :=
  ⟨s.output, .paren p call 0 :: s.pending, true, some p⟩

theorem ready_opened {s : State} {p : Token} (hp : p.kind = .leftParen) (call : Option Token) :
    Ready (opened s p call) :=
  ready_of_kind hp (by decide)

/-- A parenthesis where an operand can begin opens a group. -/
theorem passes_group {s : State} {p : Token} {ts : List Token} (hp : p.kind = .leftParen)
    (ready : Ready s) (hd : (depth s.pending : Int) < d) :
    Passes ops d s (p :: ts) (opened s p none) ts := by
  have hcall : s.previous.filter (·.kind = .function) = none := by
    have fresh := ready.fresh
    unfold State.follows at fresh
    cases hprevious : s.previous with
    | none => rfl
    | some t =>
      simp only [hprevious] at fresh
      rw [Option.filter_some, fresh]
      rfl
  have hopen : Passes ops d s (p :: ts) _ ts := passes_leftParen hp ready.due hd
  rw [hcall] at hopen
  exact hopen

/-- A parenthesis behind a function name opens a call. -/
theorem passes_call {s : State} {f p : Token} {ts : List Token} (hf : f.kind = .function)
    (hp : p.kind = .leftParen) (due : s.operandDue = true) (hd : (depth s.pending : Int) < d) :
    Passes ops d s (f :: p :: ts) (opened s p (some f)) ts := by
  have hname : Passes ops d s (f :: p :: ts) ⟨s.output, s.pending, true, some f⟩ (p :: ts) :=
    passes_function hf hp due
  have hopen : Passes ops d ⟨s.output, s.pending, true, some f⟩ (p :: ts) _ ts :=
    passes_leftParen hp rfl hd
  simp only [Option.filter_some, hf, decide_true, if_true] at hopen
  exact hname.trans hopen

theorem lt_of_opensWithin {n : Nat} {p : Token} {ts : List Token} (hp : p.kind = .leftParen)
    (h : opensWithin d n (p :: ts)) : (n : Int) < d := by
  rw [opensWithin, hp] at h
  exact h.1

theorem lt_of_opensWithin_call {n : Nat} {f p : Token} {ts : List Token} (hf : f.kind = .function)
    (hp : p.kind = .leftParen) (h : opensWithin d n (f :: p :: ts)) : (n : Int) < d := by
  rw [opensWithin, hf] at h
  exact lt_of_opensWithin hp h

/-- Between the states a tree has been read.  The operators `ws` of the tree still wait; they leave before
    any binary operator that follows. -/
structure Finished (ops : Operators) (s s' : State) (x : Tree) (rest ws : List Token) : Prop where
  done : s'.operandDue = false
  closed : s'.follows .leftParen = false
  pending : s'.pending = ws.map .operator ++ s.pending
  output : ws.reverse ++ s'.output = x.postorder.reverse ++ s.output
  yields : ∀ t o, rest.head? = some t → t.kind = .operator → ops.binary? t.value = some o →
    ∀ w ∈ ws, Yields ops o w

/-- Nothing waits behind an operand that is complete with its last token. -/
theorem Finished.of_complete {s : State} {x : Tree} {out rest : List Token} {t : Token}
    (ht : t.kind ≠ .leftParen) (hout : out = x.postorder.reverse ++ s.output) :
    Finished ops s ⟨out, s.pending, false, some t⟩ x rest [] where
  done := rfl
  closed := decide_eq_false ht
  pending := rfl
  output := hout
  yields := fun _ _ _ _ _ _ hw => absurd hw List.not_mem_nil

/-- A state in front of an operand, behind an operator that waits. -/
theorem guarded_operator {least : Int} {w : Token} {top : Operator} {base : List Pending}
    (hw : ops.find? w.value = some top)
    (h : ∀ key o, ops.binary? key = some o → least ≤ o.precedence → bindsFirst top o = false) :
    Guarded ops least (.operator w :: base) := by
  rintro key o ho hle ⟨top', hw', hb⟩
  rw [hw] at hw'
  cases hw'
  rw [h key o ho hle] at hb
  cases hb

end Postfix

/-! ## How operators bind -/

/-- A prefix operator stays before the operators of its operand. -/
theorem bindsFirst_sign_false {top o : Operator} (hle : top.precedence + 1 ≤ o.precedence) :
    bindsFirst top o = false := by
  have h₁ : ¬ o.precedence < top.precedence := by omega
  have h₂ : top.precedence ≠ o.precedence := by omega
  simp [bindsFirst, h₁, h₂]

/-- A prefix operator leaves before the operators behind its operand. -/
theorem bindsFirst_sign_true (r : ops.Ranked) {symbol key : String} {top o : Operator}
    (htop : ops.unary? symbol = some top) (ho : ops.binary? key = some o)
    (hlt : o.precedence < top.precedence + 1) : bindsFirst top o = true := by
  by_cases h : o.precedence < top.precedence
  · simp [bindsFirst, h]
  · have same : top.precedence = o.precedence := by omega
    simp [bindsFirst, same, r.grouping_eq_left htop ho same]

/-- A binary operator stays before the operators of its right operand. -/
theorem bindsFirst_binary_false (r : ops.Ranked) {key key' : String} {top o : Operator}
    (htop : ops.binary? key = some top) (ho : ops.binary? key' = some o)
    (hle : top.rightBound ≤ o.precedence) : bindsFirst top o = false := by
  unfold Operator.rightBound at hle
  split at hle
  · exact bindsFirst_sign_false hle
  · rename_i hright
    have h₁ : ¬ o.precedence < top.precedence := by omega
    by_cases same : top.precedence = o.precedence
    · have hgroup := r.grouping_eq htop ho same
      rw [hright] at hgroup
      simp [bindsFirst, h₁, ← hgroup]
    · simp [bindsFirst, h₁, same]

/-- A binary operator leaves before the operators behind its right operand. -/
theorem bindsFirst_binary_true (r : ops.Ranked) {key key' : String} {top o : Operator}
    (htop : ops.binary? key = some top) (ho : ops.binary? key' = some o)
    (hlt : o.precedence < top.rightBound) : bindsFirst top o = true := by
  unfold Operator.rightBound at hlt
  split at hlt
  · rename_i hleft
    by_cases h : o.precedence < top.precedence
    · simp [bindsFirst, h]
    · have same : top.precedence = o.precedence := by omega
      have hgroup := r.grouping_eq htop ho same
      rw [hleft] at hgroup
      simp [bindsFirst, same, ← hgroup]
  · simp [bindsFirst, hlt]

/-! ## Completeness -/

/-- Behind a tree no operator follows that would belong to it. -/
theorem Extends.stops {least : Int} {x y : Tree} {ts rest : List Token} :
    Extends ops least x ts y rest → ∀ t, rest.head? = some t → ¬ Continues ops least t
  | .stop h => h
  | .step _ _ _ _ hz => Extends.stops hz
termination_by structural h => h

theorem Climbs.stops {least : Int} {x : Tree} {ts rest : List Token} (h : Climbs ops least ts x rest) :
    ∀ t, rest.head? = some t → ¬ Continues ops least t := by
  cases h with
  | intro _ hext => exact hext.stops

/-- A binary operator behind a tree binds less strongly than its operators. -/
theorem Climbs.precedence_lt {least : Int} {x : Tree} {ts rest : List Token}
    (h : Climbs ops least ts x rest) {t : Token} {o : Operator} (hrest : rest.head? = some t)
    (ht : t.kind = .operator) (ho : ops.binary? t.value = some o) : o.precedence < least := by
  by_cases hle : least ≤ o.precedence
  · exact absurd ⟨ht, o, ho, hle⟩ (h.stops t hrest)
  · omega

/-- The state behind a binary operator. -/
def operated (s s' : State) (ws : List Token) (t : Token) : State :=
  ⟨ws.reverse ++ s'.output, .operator t :: s.pending, true, some t⟩

/-- A binary operator behind a tree that has been read leaves the operators of the tree behind. -/
theorem Postfix.Finished.passes_operator {s s' : State} {x : Tree} {t : Token} {ts ws : List Token}
    (finished : Finished ops s s' x (t :: ts) ws) {o : Operator} (ht : t.kind = .operator)
    (ho : ops.binary? t.value = some o) {least : Int} (hle : least ≤ o.precedence)
    (guarded : Guarded ops least s.pending) : Passes ops d s' (t :: ts) (operated s s' ws t) ts :=
  passes_binary ht finished.done ho finished.pending (finished.yields t o rfl ht ho) hle guarded

/-- The right operand is guarded against by its operator. -/
theorem guarded_operated (r : ops.Ranked) {t : Token} {o : Operator} (ho : ops.binary? t.value = some o)
    (s s' : State) (ws : List Token) : Guarded ops o.rightBound (operated s s' ws t).pending :=
  guarded_operator (Operators.binary?_eq_some.mp ho).1 fun _ _ hp hle =>
    bindsFirst_binary_false r ho hp hle

/-- With the right operand of an operator the tree of the operator has been read. -/
theorem Postfix.Finished.operator (r : ops.Ranked) {s s' s₁ : State} {x y : Tree} {t : Token}
    {ts rest ws us : List Token} (finished : Finished ops s s' x (t :: ts) ws) {o : Operator}
    (ho : ops.binary? t.value = some o)
    (hy : Climbs ops o.rightBound ts y rest)
    (finished₁ : Finished ops (operated s s' ws t) s₁ y rest us) :
    Finished ops s s₁ (.node t [x, y]) rest (us ++ [t]) := by
  refine ⟨finished₁.done, finished₁.closed, ?_, ?_, ?_⟩
  · rw [finished₁.pending, List.map_append, List.append_assoc]
    rfl
  · have hx := finished.output
    have hy := finished₁.output
    rw [operated] at hy
    rw [List.reverse_append, List.append_assoc, hy, hx, postorder, postorders, postorders, postorders]
    simp
  · -- the operator itself waits behind those of its right operand
    intro u p hrest hu hp w hw
    rcases List.mem_append.mp hw with hw | hw
    · exact finished₁.yields u p hrest hu hp w hw
    · rw [List.mem_singleton.mp hw]
      exact ⟨o, (Operators.binary?_eq_some.mp ho).1,
        bindsFirst_binary_true r ho hp (hy.precedence_lt hrest hu hp)⟩

mutual

/-- **Where a tree is read, the steps find no problem.** -/
theorem Climbs.passes (r : ops.Ranked) {least : Int} {ts rest : List Token} {x : Tree} :
    Climbs ops least ts x rest → ∀ s : State, Ready s → Guarded ops least s.pending →
      opensWithin d (depth s.pending) ts →
      ∃ s' ws, Passes ops d s ts s' rest ∧ Finished ops s s' x rest ws
  | .intro hx hext, s, ready, guarded, within => by
    obtain ⟨s₁, ws, passes, finished⟩ := ReadsOperand.passes r hx s ready within
    obtain ⟨s₂, ws', passes', finished'⟩ := Extends.passes r hext s s₁ ws finished guarded
      (passes.opensWithin_iff.mp within)
    exact ⟨s₂, ws', passes.trans passes', finished'⟩
termination_by structural h => h

theorem ReadsOperand.passes (r : ops.Ranked) {ts rest : List Token} {x : Tree} :
    ReadsOperand ops ts x rest → ∀ s : State, Ready s → opensWithin d (depth s.pending) ts →
      ∃ s' ws, Passes ops d s ts s' rest ∧ Finished ops s s' x rest ws
  | .plain ht, s, ready, within => by
    refine ⟨_, [], passes_operand ht ready.due, .of_complete ?_ rfl⟩
    intro hk
    exact not_isOperand_of_kind hk (by decide) ht
  | @ReadsOperand.group _ p ts _ q _ hp hx hq, s, ready, within => by
    have hopen : Passes ops d s (p :: ts) (opened s p none) ts :=
      passes_group hp ready (lt_of_opensWithin hp within)
    obtain ⟨s', ws, passes, finished⟩ := Climbs.passes r hx (opened s p none) (ready_opened hp none)
      trivial (hopen.opensWithin_iff.mp within)
    have hclose : Passes ops d s' (q :: rest) _ rest := passes_rightParen_group hq finished.done finished.pending
    refine ⟨_, [], hopen.trans (passes.trans hclose), .of_complete ?_ finished.output⟩
    rw [hq]
    decide
  | @ReadsOperand.emptyCall _ f p q rest hf hp hq, s, ready, within => by
    have hopen : Passes ops d s (f :: p :: q :: rest) (opened s p (some f)) (q :: rest) :=
      passes_call hf hp ready.due (lt_of_opensWithin_call hf hp within)
    have hclose : Passes ops d (opened s p (some f)) (q :: rest) _ rest :=
      passes_rightParen_empty hq rfl (decide_eq_true hp)
    refine ⟨_, [], hopen.trans hclose, .of_complete ?_ rfl⟩
    rw [hq]
    decide
  | @ReadsOperand.call _ f p ts xs rest hf hp hxs, s, ready, within => by
    have hopen : Passes ops d s (f :: p :: ts) (opened s p (some f)) ts :=
      passes_call hf hp ready.due (lt_of_opensWithin_call hf hp within)
    obtain ⟨q, hq, passes⟩ := ReadsArguments.passes r hxs (opened s p (some f)) p f 0 s.pending
      (ready_opened hp (some f)) rfl (hopen.opensWithin_iff.mp within)
    refine ⟨_, [], hopen.trans passes, .of_complete ?_ ?_⟩
    · rw [hq]
      decide
    · rw [postorder, List.reverse_append, List.reverse_singleton, List.singleton_append, Nat.zero_add]
      rfl
  | @ReadsOperand.signed _ t o ts x rest ht ho hx, s, ready, within => by
    have hsign : Passes ops d s (t :: ts) _ ts := passes_prefix ht ready.due ho
    have hkey : ops.find? ("unary" ++ t.value) = some o := ho
    obtain ⟨s', ws, passes, finished⟩ := Climbs.passes r hx _ (ready_of_kind ht (by decide))
      (guarded_operator hkey fun _ _ _ hle => bindsFirst_sign_false hle)
      (hsign.opensWithin_iff.mp within)
    refine ⟨s', ws ++ [{ t with value := "unary" ++ t.value }], hsign.trans passes, ?_⟩
    refine ⟨finished.done, finished.closed, ?_, ?_, ?_⟩
    · rw [finished.pending, List.map_append, List.append_assoc]
      rfl
    · rw [List.reverse_append, List.append_assoc, finished.output, postorder, postorders, postorders]
      simp
    · -- the prefix operator waits behind those of its operand
      intro u p hrest hu hp w hw
      rcases List.mem_append.mp hw with hw | hw
      · exact finished.yields u p hrest hu hp w hw
      · rw [List.mem_singleton.mp hw]
        exact ⟨o, hkey, bindsFirst_sign_true r ho hp (hx.precedence_lt hrest hu hp)⟩
termination_by structural h => h

theorem ReadsArguments.passes (r : ops.Ranked) {ts rest : List Token} {xs : List Tree} :
    ReadsArguments ops ts xs rest → ∀ (s : State) (p f : Token) (commas : Nat) (base : List Pending),
      Ready s → s.pending = .paren p (some f) commas :: base → opensWithin d (depth s.pending) ts →
      ∃ q, q.kind = .rightParen ∧ Passes ops d s ts
        ⟨{ f with argumentCount := some ((commas + xs.length : Nat) : Int) } ::
          ((postorders xs).reverse ++ s.output), base, false, some q⟩ rest
  | @ReadsArguments.last _ ts x q rest hx hq, s, p, f, commas, base, ready, hs, within => by
    have guarded : Guarded ops 1 s.pending := by
      rw [hs]
      trivial
    obtain ⟨s', ws, passes, finished⟩ := Climbs.passes r hx s ready guarded within
    have hpending := finished.pending
    rw [hs] at hpending
    have hclose : Passes ops d s' (q :: rest) _ rest :=
      passes_rightParen_call hq finished.done finished.closed hpending
    refine ⟨q, hq, ?_⟩
    rw [finished.output] at hclose
    rw [postorders, postorders, List.append_nil]
    exact passes.trans hclose
  | @ReadsArguments.more _ ts x c ts' xs rest hx hc hxs, s, p, f, commas, base, ready, hs, within => by
    have guarded : Guarded ops 1 s.pending := by
      rw [hs]
      trivial
    obtain ⟨s', ws, passes, finished⟩ := Climbs.passes r hx s ready guarded within
    have hpending := finished.pending
    rw [hs] at hpending
    have hcomma : Passes ops d s' (c :: ts') _ ts' := passes_comma hc finished.done hpending
    have hwithin := passes.opensWithin_iff.mp within
    obtain ⟨q, hq, passes'⟩ := ReadsArguments.passes r hxs _ p f (commas + 1) base
      (ready_of_kind hc (by decide)) rfl (hcomma.opensWithin_iff.mp hwithin)
    refine ⟨q, hq, ?_⟩
    have hcount : commas + 1 + xs.length = commas + (x :: xs).length := by
      rw [List.length_cons]
      omega
    rw [finished.output, hcount, ← List.append_assoc, ← List.reverse_append] at passes'
    rw [finished.output] at hcomma
    rw [postorders]
    exact passes.trans (hcomma.trans passes')
termination_by structural h => h

theorem Extends.passes (r : ops.Ranked) {least : Int} {x y : Tree} {ts rest : List Token} :
    Extends ops least x ts y rest → ∀ (s s' : State) (ws : List Token),
      Finished ops s s' x ts ws → Guarded ops least s.pending → opensWithin d (depth s'.pending) ts →
      ∃ s'' ws', Passes ops d s' ts s'' rest ∧ Finished ops s s'' y rest ws'
  | .stop _, s, s', ws, finished, guarded, within => ⟨s', ws, .refl, finished⟩
  | @Extends.step _ _ x t o ts y ts' z rest ht ho hle hy hz, s, s', ws, finished, guarded, within => by
    have hop : Passes ops d s' (t :: ts) (operated s s' ws t) ts :=
      finished.passes_operator ht ho hle guarded
    have hwithin := hop.opensWithin_iff.mp within
    obtain ⟨s₁, us, passes, finished₁⟩ := Climbs.passes r hy (operated s s' ws t)
      (ready_of_kind ht (by decide)) (guarded_operated r ho s s' ws) hwithin
    obtain ⟨s₂, vs, passes', finished₂⟩ := Extends.passes r hz s s₁ (us ++ [t])
      (finished.operator r ho hy finished₁) guarded (passes.opensWithin_iff.mp hwithin)
    exact ⟨s₂, vs, hop.trans (passes.trans passes'), finished₂⟩
termination_by structural h => h

end

/-! ## Soundness -/

namespace Postfix

theorem Passes.suffix {s s' : State} {ts rest : List Token} (h : Passes ops d s ts s' rest) :
    rest <:+ ts := by
  induction h with
  | refl => exact List.suffix_rfl
  | step _ _ ih => exact ih.trans (List.suffix_cons _ _)

/-- Between states that wait for different things stands a token. -/
theorem Passes.length_lt {s s' : State} {ts rest : List Token} (h : Passes ops d s ts s' rest)
    (due : s.operandDue = true) (done : s'.operandDue = false) : rest.length < ts.length := by
  cases h with
  | refl =>
    rw [due] at done
    cases done
  | step _ passes => exact Nat.lt_succ_of_le passes.suffix.length_le

/-- What can follow a complete operand. -/
theorem kind_of_done {s : State} {t : Token} {next : Option Token} (done : s.operandDue = false)
    (body : t.isFinish = false) (h : Faultless (step ops d s t next).1) :
    t.kind = .rightParen ∨ t.kind = .comma ∨
      (t.kind = .operator ∧ ∃ o, ops.binary? t.value = some o) := by
  have hdue : s.operandDue ≠ true := by
    rw [done]
    decide
  cases hk : t.kind with
  | number => exact absurd (due_of_operand (Or.inl hk) h) hdue
  | constant => exact absurd (due_of_operand (Or.inr (Or.inl hk)) h) hdue
  | «variable» => exact absurd (due_of_operand (Or.inr (Or.inr hk)) h) hdue
  | function => exact absurd (due_of_function hk h).1 hdue
  | leftParen => exact absurd (due_of_leftParen hk h).1 hdue
  | rightParen => exact Or.inl rfl
  | comma => exact Or.inr (Or.inl rfl)
  | operator => exact Or.inr (Or.inr ⟨rfl, binary_of_operator hk done h⟩)
  | finish => exact absurd hk (of_decide_eq_false body)

end Postfix

/-- Fewer tokens than so many are read where they complete an expression. -/
def ReadsBelow (ops : Operators) (d : Int) (n : Nat) : Prop :=
  ∀ {least : Int} {s : State} {ts out : List Token}, ts.length < n → (∀ t ∈ ts, t.isFinish = false) →
    Ready s → Guarded ops least s.pending →
    (s.follows .leftParen = true → ∀ q, ts.head? = some q → q.kind ≠ .rightParen) →
    Completes ops d s ts out → ∃ x rest, Climbs ops least ts x rest

/-- What follows a whole operand inside a parenthesis: the parenthesis is closed, or an argument ends. -/
theorem closes_of_completes (r : ops.Ranked) {s s' : State} {x : Tree} {p : Token} {call : Option Token}
    {commas : Nat} {base : List Pending} {ts rest ws out : List Token} (hx : Climbs ops 1 ts x rest)
    (hs : s.pending = .paren p call commas :: base) (finished : Finished ops s s' x rest ws)
    (body : ∀ t ∈ rest, t.isFinish = false) (h : Completes ops d s' rest out) :
    ∃ q rest', rest = q :: rest' ∧
      (q.kind = .rightParen ∨ (q.kind = .comma ∧ call.isSome = true)) := by
  have hrelease : ∀ out, release out s'.pending = (ws.reverse ++ out, .paren p call commas :: base) := by
    intro out
    rw [finished.pending, hs, release_paren]
  cases rest with
  | nil =>
    obtain ⟨-, hfinish⟩ := completes_nil.mp h
    rw [finished.pending, hs] at hfinish
    exact absurd (congrArg Prod.fst hfinish) (finish_paren_ne_nil _ _ _ _ _ _)
  | cons q rest' =>
    obtain ⟨faultless, -⟩ := completes_cons.mp h
    refine ⟨q, rest', rfl, ?_⟩
    rcases kind_of_done finished.done (body q List.mem_cons_self) faultless with hk | hk | ⟨hk, o, ho⟩
    · exact Or.inl hk
    · obtain ⟨-, out', p', f, commas', rest', hr⟩ := called_of_comma hk faultless
      rw [hrelease] at hr
      cases hr
      exact Or.inr ⟨hk, rfl⟩
    · exact absurd ⟨hk, o, ho, r.one_le ho⟩ (hx.stops q rfl)

/-- Outside all parentheses nothing follows a whole operand. -/
theorem nothing_follows (r : ops.Ranked) {s' : State} {x : Tree} {t : Token} {ts rest ws : List Token}
    {next : Option Token} (hx : Climbs ops 1 ts x (t :: rest))
    (finished : Finished ops .initial s' x (t :: rest) ws) (body : t.isFinish = false) :
    ¬ Faultless (step ops d s' t next).1 := by
  intro faultless
  have hrelease : release s'.output s'.pending = (ws.reverse ++ s'.output, []) := by
    have hpending := finished.pending
    simp only [State.initial, List.append_nil] at hpending
    rw [hpending, release_operators]
  rcases kind_of_done finished.done body faultless with hk | hk | ⟨hk, o, ho⟩
  · obtain ⟨_, _, _, _, _, hr, -⟩ := opened_of_rightParen hk faultless
    rw [hrelease] at hr
    cases hr
  · obtain ⟨-, _, _, _, _, _, hr⟩ := called_of_comma hk faultless
    rw [hrelease] at hr
    cases hr
  · exact hx.stops t rfl ⟨hk, o, ho, r.one_le ho⟩

/-- The arguments of a call are read, the first one not being missing. -/
theorem exists_arguments (r : ops.Ranked) {n : Nat} (ih : ReadsBelow ops d n) (m : Nat) :
    ∀ {s : State} {p f : Token} {commas : Nat} {base : List Pending} {ts out : List Token},
      ts.length < m → m ≤ n → (∀ t ∈ ts, t.isFinish = false) → Ready s →
      s.pending = .paren p (some f) commas :: base →
      (s.follows .leftParen = true → ∀ q, ts.head? = some q → q.kind ≠ .rightParen) →
      Completes ops d s ts out → ∃ xs rest, ReadsArguments ops ts xs rest := by
  induction m with
  | zero =>
    intro s p f commas base ts out hlt
    exact absurd hlt (Nat.not_lt_zero _)
  | succ m ihm =>
    intro s p f commas base ts out hlt hle body ready hs head h
    have guarded : Guarded ops 1 s.pending := by
      rw [hs]
      trivial
    obtain ⟨x, rest, hx⟩ := ih (by omega) body ready guarded head h
    obtain ⟨s', ws, passes, finished⟩ := hx.passes r s ready guarded h.opensWithin
    have hrest : ∀ t ∈ rest, t.isFinish = false := fun t ht => body t (passes.suffix.mem ht)
    have h' := h.of_passes passes
    obtain ⟨q, rest', rfl, hq | ⟨hq, -⟩⟩ := closes_of_completes r hx hs finished hrest h'
    · exact ⟨[x], rest', .last hx hq⟩
    · -- behind a comma comes the next argument
      have hpending := finished.pending
      rw [hs] at hpending
      have hcomma : Passes ops d s' (q :: rest') _ rest' := passes_comma hq finished.done hpending
      have hlt' := passes.length_lt ready.due finished.done
      rw [List.length_cons] at hlt'
      obtain ⟨xs, rest'', hxs⟩ := ihm (by omega) (by omega)
        (fun t ht => hrest t (List.mem_cons_of_mem q ht)) (ready_of_kind hq (by decide)) rfl
        (fun follows => by simp [State.follows, hq] at follows) (h'.of_passes hcomma)
      exact ⟨x :: xs, rest'', .more hx hq hxs⟩

/-- The binary operators behind a tree are read. -/
theorem exists_extends (r : ops.Ranked) {n : Nat} (ih : ReadsBelow ops d n) (m : Nat) :
    ∀ {least : Int} {s s' : State} {x : Tree} {ts ws out : List Token}, ts.length < m → m ≤ n →
      (∀ t ∈ ts, t.isFinish = false) → Guarded ops least s.pending → Finished ops s s' x ts ws →
      Completes ops d s' ts out → ∃ y rest, Extends ops least x ts y rest := by
  induction m with
  | zero =>
    intro least s s' x ts ws out hlt
    exact absurd hlt (Nat.not_lt_zero _)
  | succ m ihm =>
    intro least s s' x ts ws out hlt hle body guarded finished h
    -- whether the next token belongs to the tree is settled by its precedence alone
    by_cases hcont : ∃ t, ts.head? = some t ∧ Continues ops least t
    · obtain ⟨t, hhead, ht, o, ho, hprec⟩ := hcont
      obtain ⟨ts, rfl⟩ := List.head?_eq_some_iff.mp hhead
      rw [List.length_cons] at hlt
      have hop : Passes ops d s' (t :: ts) (operated s s' ws t) ts :=
        finished.passes_operator ht ho hprec guarded
      have body' : ∀ u ∈ ts, u.isFinish = false := fun u hu => body u (List.mem_cons_of_mem t hu)
      have ready : Ready (operated s s' ws t) := ready_of_kind ht (by decide)
      have guarded' := guarded_operated r ho s s' ws
      have h' := h.of_passes hop
      obtain ⟨y, rest, hy⟩ := ih (by omega) body' ready guarded'
        (fun follows => by simp [State.follows, operated, ht] at follows) h'
      obtain ⟨s₁, us, passes, finished₁⟩ := hy.passes r _ ready guarded' h'.opensWithin
      have hlt' := passes.length_lt ready.due finished₁.done
      obtain ⟨z, rest', hz⟩ := ihm (by omega) (by omega) (fun u hu => body' u (passes.suffix.mem hu))
        guarded (finished.operator r ho hy finished₁) (h'.of_passes passes)
      exact ⟨z, rest', .step ht ho hprec hy hz⟩
    · exact ⟨x, ts, .stop fun t hhead hcontinues => hcont ⟨t, hhead, hcontinues⟩⟩

/-- A call is read. -/
theorem exists_call (r : ops.Ranked) {n : Nat} (ih : ReadsBelow ops d n) {s : State} {f : Token}
    {ts out : List Token} (hf : f.kind = .function) (hlt : ts.length < n + 1)
    (body : ∀ t ∈ ts, t.isFinish = false) (ready : Ready s) (h : Completes ops d s (f :: ts) out) :
    ∃ x rest, ReadsOperand ops (f :: ts) x rest := by
  obtain ⟨-, p, hhead, hp⟩ := due_of_function hf (completes_cons.mp h).1
  obtain ⟨ts, rfl⟩ := List.head?_eq_some_iff.mp hhead
  rw [List.length_cons] at hlt
  have hopen : Passes ops d s (f :: p :: ts) (opened s p (some f)) ts :=
    passes_call hf hp ready.due (lt_of_opensWithin_call hf hp h.opensWithin)
  by_cases hempty : ∃ q, ts.head? = some q ∧ q.kind = .rightParen
  · obtain ⟨q, hhead, hq⟩ := hempty
    obtain ⟨rest, rfl⟩ := List.head?_eq_some_iff.mp hhead
    exact ⟨_, _, .emptyCall hf hp hq⟩
  · obtain ⟨xs, rest, hxs⟩ := exists_arguments r ih n (by omega) (Nat.le_refl n)
      (fun u hu => body u (List.mem_cons_of_mem p hu)) (ready_opened hp (some f)) rfl
      (fun _ q hhead hq => hempty ⟨q, hhead, hq⟩) (h.of_passes hopen)
    exact ⟨_, _, .call hf hp hxs⟩

/-- A tree in parentheses is read. -/
theorem exists_group (r : ops.Ranked) {n : Nat} (ih : ReadsBelow ops d n) {s : State} {p : Token}
    {ts out : List Token} (hp : p.kind = .leftParen) (hlt : ts.length < n)
    (body : ∀ t ∈ ts, t.isFinish = false) (ready : Ready s) (h : Completes ops d s (p :: ts) out) :
    ∃ x rest, ReadsOperand ops (p :: ts) x rest := by
  have hopen : Passes ops d s (p :: ts) (opened s p none) ts :=
    passes_group hp ready (lt_of_opensWithin hp h.opensWithin)
  have h' := h.of_passes hopen
  have hready : Ready (opened s p none) := ready_opened hp none
  have guarded : Guarded ops 1 (opened s p none).pending := trivial
  -- parentheses with nothing between them are a problem
  have nonempty : ∀ q, ts.head? = some q → q.kind ≠ .rightParen := by
    intro q hhead hq
    obtain ⟨rest, rfl⟩ := List.head?_eq_some_iff.mp hhead
    obtain ⟨out', p', call, commas, base, hr, hcall⟩ := opened_of_rightParen hq (completes_cons.mp h').1
    cases hr
    cases (hcall rfl).1
  obtain ⟨x, rest, hx⟩ := ih hlt body hready guarded (fun _ => nonempty) h'
  obtain ⟨s', ws, passes, finished⟩ := hx.passes r _ hready guarded h'.opensWithin
  obtain ⟨q, rest', rfl, hq | ⟨-, hcall⟩⟩ := closes_of_completes r hx rfl finished
    (fun u hu => body u (passes.suffix.mem hu)) (h'.of_passes passes)
  · exact ⟨_, _, .group hp hx hq⟩
  · cases hcall

/-- An operand with a prefix operator is read. -/
theorem exists_signed {n : Nat} (ih : ReadsBelow ops d n) {s : State} {t : Token} {ts out : List Token}
    (ht : t.kind = .operator) (hlt : ts.length < n) (body : ∀ u ∈ ts, u.isFinish = false) (ready : Ready s)
    (h : Completes ops d s (t :: ts) out) : ∃ x rest, ReadsOperand ops (t :: ts) x rest := by
  obtain ⟨o, ho⟩ := unary_of_operator ht ready.due (completes_cons.mp h).1
  have hsign : Passes ops d s (t :: ts) _ ts := passes_prefix ht ready.due ho
  have hkey : ops.find? ("unary" ++ t.value) = some o := ho
  obtain ⟨x, rest, hx⟩ := ih hlt body (ready_of_kind ht (by decide))
    (guarded_operator hkey fun _ _ _ hle => bindsFirst_sign_false hle)
    (fun follows => by simp [State.follows, ht] at follows) (h.of_passes hsign)
  exact ⟨_, _, .signed ht ho hx⟩

/-- **An operand is read**, one way for each kind of token that may begin it. -/
theorem exists_operand (r : ops.Ranked) {n : Nat} (ih : ReadsBelow ops d n) {s : State}
    {ts out : List Token} (hlt : ts.length < n + 1) (body : ∀ t ∈ ts, t.isFinish = false)
    (ready : Ready s)
    (head : s.follows .leftParen = true → ∀ q, ts.head? = some q → q.kind ≠ .rightParen)
    (h : Completes ops d s ts out) : ∃ x rest, ReadsOperand ops ts x rest := by
  cases ts with
  | nil =>
    have done := (completes_nil.mp h).1
    rw [ready.due] at done
    cases done
  | cons t ts =>
    rw [List.length_cons] at hlt
    have faultless := (completes_cons.mp h).1
    have body' : ∀ u ∈ ts, u.isFinish = false := fun u hu => body u (List.mem_cons_of_mem t hu)
    cases hk : t.kind with
    | number => exact ⟨_, _, .plain (Or.inl hk)⟩
    | constant => exact ⟨_, _, .plain (Or.inr (Or.inl hk))⟩
    | «variable» => exact ⟨_, _, .plain (Or.inr (Or.inr hk))⟩
    | function => exact exists_call r ih hk (by omega) body' ready h
    | leftParen => exact exists_group r ih hk (by omega) body' ready h
    | operator => exact exists_signed ih hk (by omega) body' ready h
    | rightParen =>
      -- only the parenthesis of an empty call closes where an operand is due
      obtain ⟨_, _, _, _, _, -, hcall⟩ := opened_of_rightParen hk faultless
      exact absurd hk (head (hcall ready.due).2 t rfl)
    | comma =>
      have done := (called_of_comma hk faultless).1
      rw [ready.due] at done
      cases done
    | finish => exact absurd hk (of_decide_eq_false (body t List.mem_cons_self))

/-- **Where the steps find no problem up to the end, a tree is read.** -/
theorem exists_climbs (r : ops.Ranked) (n : Nat) : ReadsBelow ops d n := by
  induction n with
  | zero =>
    intro least s ts out hlt
    exact absurd hlt (Nat.not_lt_zero _)
  | succ n ih =>
    intro least s ts out hlt body ready guarded head h
    obtain ⟨x, rest, hx⟩ := exists_operand r ih hlt body ready head h
    obtain ⟨s', ws, passes, finished⟩ := hx.passes r s ready h.opensWithin
    have hlt' := passes.length_lt ready.due finished.done
    obtain ⟨y, rest', hext⟩ := exists_extends r ih n (by omega) (Nat.le_refl n)
      (fun t ht => body t (passes.suffix.mem ht)) guarded finished (h.of_passes passes)
    exact ⟨y, rest', .intro hx hext⟩

/-- **An expression is complete exactly if it is read as one tree** that opens no more parentheses than it
    may; its postfix order is the post-order of the tree. -/
theorem completes_iff_climbs (r : ops.Ranked) {ts : List Token} (body : ∀ t ∈ ts, t.isFinish = false)
    {out : List Token} : Completes ops d .initial ts out ↔
      ∃ x, Climbs ops 1 ts x [] ∧ opensWithin d 0 ts ∧ out = x.postorder := by
  have ready : Ready .initial := ⟨rfl, rfl⟩
  have hfinish : ∀ {x : Tree} {s' : State} {ws : List Token}, Finished ops .initial s' x [] ws →
      finish s'.output s'.pending = ([], x.postorder) := by
    intro x s' ws finished
    have hpending := finished.pending
    have houtput := finished.output
    simp only [State.initial, List.append_nil] at hpending houtput
    rw [hpending, finish_operators, houtput, List.reverse_reverse]
  constructor
  · intro h
    obtain ⟨x, rest, hx⟩ := exists_climbs r (ts.length + 1) (Nat.lt_succ_self _) body ready
      (show Guarded ops 1 State.initial.pending from trivial) (fun follows => by cases follows) h
    obtain ⟨s', ws, passes, finished⟩ := hx.passes r .initial ready trivial h.opensWithin
    have h' := h.of_passes passes
    -- the tree that is read takes all tokens
    cases rest with
    | nil =>
      refine ⟨x, hx, h.opensWithin, ?_⟩
      have hout := (completes_nil.mp h').2
      rw [hfinish finished] at hout
      cases hout
      rfl
    | cons t rest =>
      have faultless := (completes_cons.mp h').1
      exact absurd faultless
        (nothing_follows r hx finished (body t (passes.suffix.mem List.mem_cons_self)))
  · rintro ⟨x, hx, within, rfl⟩
    obtain ⟨s', ws, passes, finished⟩ := hx.passes r .initial ready trivial within
    exact ⟨s', passes, finished.done, hfinish finished⟩

/-! ## Texts -/

/-- The tables of operators that there are. -/
theorem ranked_of_table {ops : Operators} (table : ops = .basic ∨ ops = .calculator) : ops.Ranked := by
  rcases table with rfl | rfl
  · exact Operators.ranked_basic
  · exact Operators.ranked_calculator

/-- The tokens in front of the end. -/
theorem takeWhile_body {body : List Token} {e : Token} (he : e.isFinish = true)
    (hbody : ∀ t ∈ body, t.isFinish = false) : (body ++ [e]).takeWhile (!·.isFinish) = body := by
  rw [List.takeWhile_append_of_pos fun t ht => by rw [hbody t ht]; rfl, List.takeWhile_cons_of_neg]
  · exact List.append_nil body
  · rw [he]
    decide

/-- **The postfix order of a text is the post-order of the tree that climbing reads.**  The tokens of a text
    are put into postfix order exactly if climbing reads all of them in front of the end as one tree and no
    more parentheses are open at once than may be; there is only one such tree. -/
theorem ofTokens_eq_ok_iff_climbs {v : Vocabulary}
    (table : v.operators = .basic ∨ v.operators = .calculator) {complex : Bool} {limit : Int}
    {text : String} {ts : List Token} (lexed : Token.tokenize v complex limit text = .ok ts)
    (maxDepth : Int) :
    (∀ rpn, ofTokens v.operators maxDepth ts = .ok rpn ↔
      ∃ x, Climbs v.operators 1 (ts.takeWhile (!·.isFinish)) x [] ∧
        opensWithin maxDepth 0 (ts.takeWhile (!·.isFinish)) ∧ rpn = x.postorder) ∧
    (∀ x y, Climbs v.operators 1 (ts.takeWhile (!·.isFinish)) x [] →
      Climbs v.operators 1 (ts.takeWhile (!·.isFinish)) y [] → x = y) := by
  obtain ⟨body, e, rfl, he, hbody⟩ := Token.exists_body_of_tokenize lexed
  rw [takeWhile_body he hbody]
  refine ⟨fun rpn => ?_, fun x y hx hy => (hx.unique hy).1⟩
  rw [ofTokens_eq_ok_iff he hbody, completes_iff_climbs (ranked_of_table table) hbody]

/-- The tokens of `2^-max(x, 1)*3` in postfix order, with one parenthesis open at once. -/
theorem climbs_power_of_sign :
    let v : Vocabulary := ⟨.calculator, some ⟨[⟨"max", .variadic, .builtin .greatest, "", "", false⟩], []⟩⟩
    let ts : List Token := [⟨.number, "2", 0, none⟩, ⟨.operator, "^", 1, none⟩, ⟨.operator, "-", 2, none⟩,
      ⟨.function, "max", 3, none⟩, ⟨.leftParen, "(", 6, none⟩, ⟨.variable, "x", 7, none⟩,
      ⟨.comma, ",", 8, none⟩, ⟨.number, "1", 10, none⟩, ⟨.rightParen, ")", 11, none⟩,
      ⟨.operator, "*", 12, none⟩, ⟨.number, "3", 13, none⟩]
    Token.tokenize v false 100 "2^-max(x, 1)*3" = .ok (ts ++ [⟨.finish, "", 14, none⟩]) ∧
    ∃ x, Climbs v.operators 1 ts x [] ∧ opensWithin 1 0 ts ∧
      x.postorder = [⟨.number, "2", 0, none⟩, ⟨.variable, "x", 7, none⟩, ⟨.number, "1", 10, none⟩,
        ⟨.function, "max", 3, some 2⟩, ⟨.operator, "unary-", 2, none⟩, ⟨.operator, "^", 1, none⟩,
        ⟨.number, "3", 13, none⟩, ⟨.operator, "*", 12, none⟩] := by
  intro v ts
  have lexed : Token.tokenize v false 100 "2^-max(x, 1)*3" = .ok (ts ++ [⟨.finish, "", 14, none⟩]) := by
    rfl
  obtain ⟨x, hx, hwithin, hpost⟩ :=
    ((ofTokens_eq_ok_iff_climbs (Or.inr rfl) lexed 1).1 _).mp (by rfl)
  exact ⟨lexed, x, hx, hwithin, hpost.symm⟩

end SciCalc
