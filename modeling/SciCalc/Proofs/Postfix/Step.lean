/-
  What a step does, said once.

  1. **Findings** (`finds_step`) — the problems that a step can find, and the call that it closes.  What holds of
     each of them holds of everything that a step finds.  At the end there are two more problems
     (`finds_onFinish`), and one for each parenthesis that waits (`finds_finish`).

  2. **What waits** (`forall_pending_step`) — a step takes the innermost things away, puts an operator or a
     parenthesis on top, or counts a comma of the innermost call.
-/
import SciCalc.Postfix.Basic

namespace SciCalc.Postfix

variable {ops : Operators} {d : Int} {s : State} {t : Token} {next : Option Token}

/-! ## Findings -/

/-- What a step over a token finds: a problem at the place of the token, or a call that is closed, with at most one
    argument more than its parenthesis has commas. -/
inductive Finds (d : Int) (s : State) (t : Token) : Finding → Prop where
  | missingOperator (value : String) : Finds d s t (.problem (.missingOperator value t.position))
  | missingParenthesis : Finds d s t (.problem (.missingParenthesis t.value t.position))
  | tooDeep : Finds d s t (.problem (.tooDeep d t.position))
  | emptyArgument : Finds d s t (.problem (.emptyArgument t.position))
  | emptyParentheses : Finds d s t (.problem (.emptyParentheses t.position))
  | missingOperand (value : String) : Finds d s t (.problem (.missingOperand value t.position))
  | unmatchedRight : Finds d s t (.problem (.unmatchedRight t.position))
  | commaOutsideCall : Finds d s t (.problem (.commaOutsideCall t.position))
  | consecutiveOperators : Finds d s t (.problem (.consecutiveOperators t.position))
  | notBinary : Finds d s t (.problem (.notBinary t.value t.position))
  | call {p f : Token} {commas count : Nat} (waits : .paren p (some f) commas ∈ s.pending)
      (fits : count ≤ commas + 1) : Finds d s t (.call f.value count f.position)

theorem eq_of_mem_problemIf {b : Bool} {cause : StructuralCause} {f : Finding} (h : f ∈ problemIf b cause) :
    f = .problem cause := by
  cases b with
  | true => exact List.mem_singleton.mp h
  | false => exact absurd h List.not_mem_nil

/-- A problem that a step reports is one that it can find. -/
theorem finds_problemIf {b : Bool} {cause : StructuralCause} (h : Finds d s t (.problem cause)) :
    ∀ f ∈ problemIf b cause, Finds d s t f := by
  intro f hf
  rw [eq_of_mem_problemIf hf]
  exact h

theorem finds_missingBeforeRight : Finds d s t (.problem (missingBeforeRight s t)) := by
  unfold missingBeforeRight
  split
  · exact .emptyArgument
  · split
    · exact .emptyParentheses
    · exact .missingOperand ")"

/-- What leaves are the innermost things that wait. -/
theorem release_suffix (out : List Token) (pending : List Pending) :
    (release out pending).2 <:+ pending := by
  induction pending generalizing out with
  | nil => exact List.suffix_rfl
  | cons p rest ih =>
    cases p with
    | operator t => exact (ih (t :: out)).trans (List.suffix_cons _ _)
    | paren t call commas => exact List.suffix_rfl

theorem releaseStronger_suffix {ops : Operators} (o : Operator) (out : List Token)
    (pending : List Pending) : (releaseStronger ops o out pending).2 <:+ pending := by
  induction pending generalizing out with
  | nil => exact List.suffix_rfl
  | cons p rest ih =>
    cases p with
    | paren t call commas => exact List.suffix_rfl
    | operator t =>
      rw [releaseStronger]
      split
      · split
        · exact (ih (t :: out)).trans (List.suffix_cons _ _)
        · exact List.suffix_rfl
      · exact List.suffix_rfl

theorem finds_onRightParen : ∀ f ∈ (onRightParen s t).1, Finds d s t f := by
  unfold onRightParen
  split
  · rename_i out p call commas rest hrelease
    have hsuffix := release_suffix s.output s.pending
    rw [hrelease] at hsuffix
    cases call with
    | none => exact finds_problemIf finds_missingBeforeRight
    | some f =>
      refine List.forall_mem_append.mpr ⟨finds_problemIf finds_missingBeforeRight, ?_⟩
      refine List.forall_mem_singleton.mpr (.call (hsuffix.mem List.mem_cons_self) ?_)
      split
      · exact Nat.zero_le _
      · exact Nat.le_refl _
  · exact List.forall_mem_singleton.mpr .unmatchedRight

/-- **Everything that a step finds is one of these.** -/
theorem finds_step : ∀ f ∈ (step ops d s t next).1, Finds d s t f := by
  unfold step
  split
  · exact List.forall_mem_append.mpr
      ⟨finds_problemIf (.missingOperator _), finds_problemIf .missingParenthesis⟩
  · exact List.forall_mem_append.mpr ⟨finds_problemIf (.missingOperator _), finds_problemIf .tooDeep⟩
  · exact finds_onRightParen
  · unfold onComma
    split
    · exact finds_problemIf .emptyArgument
    · exact List.forall_mem_singleton.mpr .commaOutsideCall
  · split
    · unfold onPrefix
      split
      · exact fun f hf => absurd hf List.not_mem_nil
      · refine List.forall_mem_singleton.mpr ?_
        split
        · exact .consecutiveOperators
        · exact .missingOperand _
    · unfold onBinary
      split
      · exact fun f hf => absurd hf List.not_mem_nil
      · exact List.forall_mem_singleton.mpr .notBinary
  · exact finds_problemIf (.missingOperator _)

/-- At the end an operand can be missing. -/
theorem finds_onFinish {f : Finding} (h : f ∈ onFinish s t) :
    f = .problem (.trailingOperator t.position) ∨ f = .problem (.unexpectedEnd t.position) := by
  have heq := eq_of_mem_problemIf h
  split at heq
  · exact Or.inl heq
  · exact Or.inr heq

/-- And the parentheses that wait match none. -/
theorem finds_finish {pending : List Pending} : ∀ {out : List Token} {f : Finding},
    f ∈ (finish out pending).1 →
      ∃ p call commas, .paren p call commas ∈ pending ∧ f = .problem (.unmatchedLeft p.position) := by
  induction pending with
  | nil => exact fun h => absurd h List.not_mem_nil
  | cons p rest ih =>
    intro out f h
    cases p with
    | operator t =>
      obtain ⟨p, call, commas, hp, heq⟩ := ih h
      exact ⟨p, call, commas, List.mem_cons_of_mem _ hp, heq⟩
    | paren t call commas =>
      rcases List.mem_cons.mp h with heq | h
      · exact ⟨t, call, commas, List.mem_cons_self, heq⟩
      · obtain ⟨p, call, commas, hp, heq⟩ := ih h
        exact ⟨p, call, commas, List.mem_cons_of_mem _ hp, heq⟩

/-! ## What waits -/

section

variable {P Q : Pending → Prop}

/-- **What holds of everything that waits behind a step**: what held of it before, if it holds of an operator and of
    a parenthesis that begin to wait there, and still holds of a call with one more comma. -/
theorem forall_pending_step (kept : ∀ p, P p → Q p)
    (operator : t.kind = .operator → ∀ value, Q (.operator { t with value := value }))
    (opened : t.kind = .leftParen → Q (.paren t (s.previous.filter (·.kind = .function)) 0))
    (parted : ∀ p f commas, P (.paren p (some f) commas) → Q (.paren p (some f) (commas + 1)))
    (h : ∀ p ∈ s.pending, P p) : ∀ p ∈ (step ops d s t next).2.pending, Q p := by
  have hkept : ∀ {rest : List Pending}, rest <:+ s.pending → ∀ p ∈ rest, Q p :=
    fun hsuffix p hp => kept p (h p (hsuffix.mem hp))
  have hall := hkept List.suffix_rfl
  unfold step
  split
  · exact hall
  · rename_i ht
    exact List.forall_mem_cons.mpr ⟨opened ht, hall⟩
  · -- what a right parenthesis leaves was waiting before
    unfold onRightParen
    split
    · rename_i out p call commas rest hrelease
      have hsuffix := release_suffix s.output s.pending
      rw [hrelease] at hsuffix
      have hrest := hkept ((List.suffix_cons _ rest).trans hsuffix)
      cases call with
      | none => exact hrest
      | some f => exact hrest
    · exact hall
  · unfold onComma
    split
    · rename_i out p f commas rest hrelease
      have hsuffix := release_suffix s.output s.pending
      rw [hrelease] at hsuffix
      have hparen := h _ (hsuffix.mem List.mem_cons_self)
      exact List.forall_mem_cons.mpr
        ⟨parted p f commas hparen, hkept ((List.suffix_cons _ rest).trans hsuffix)⟩
    · exact hall
  · rename_i ht
    split
    · unfold onPrefix
      split
      · exact List.forall_mem_cons.mpr ⟨operator ht _, hall⟩
      · exact hall
    · unfold onBinary
      split
      · exact List.forall_mem_cons.mpr ⟨operator ht t.value, hkept (releaseStronger_suffix ..)⟩
      · exact hall
  · exact hall

end

end SciCalc.Postfix
