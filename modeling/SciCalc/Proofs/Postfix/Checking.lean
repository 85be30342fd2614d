/-
  The check sees what the conversion raises.

  1. **Calls** (`exists_function_of_reaches`) — the parentheses that are open where a scan has come to are
     nested in the tokens in front of it as they are on its stacks.  So the token below the parenthesis of a
     call is the function name in front of that very parenthesis.

  2. **Issues** (`find?_issues`) — of the issues found, those about calls have codes of their own; the first
     other one is the first problem.

  3. **The check and the conversion** (`validate_and_parse`).
-/
import Mathlib.Algebra.Group.Nat.Defs
import SciCalc.Proofs.Postfix.Telling

namespace SciCalc.Postfix

open Attempt
open Number (isTellable)

/-! ## Nesting -/

/-- The number of open parentheses behind a token; none can be closed where none is open. -/
def openAfter (n : Nat) (t : Token) : Option Nat :=
  match t.kind with
  | .leftParen => some (n + 1)
  | .rightParen => if n = 0 then none else some (n - 1)
  | _ => some n

/-- The number of open parentheses behind a row of tokens. -/
def openBehind : Nat → List Token → Option Nat
  | n, [] => some n
  | n, t :: ts => (openAfter n t).bind fun m => openBehind m ts

/-- The tokens close the parentheses that they open, and no others. -/
def Balanced (ts : List Token) : Prop := openBehind 0 ts = some 0

theorem openBehind_append (ts us : List Token) :
    ∀ n, openBehind n (ts ++ us) = (openBehind n ts).bind fun m => openBehind m us := by
  induction ts with
  | nil => intro n; rfl
  | cons t ts ih =>
    intro n
    rw [List.cons_append, openBehind, openBehind]
    cases openAfter n t with
    | none => rfl
    | some m => exact ih m

theorem openAfter_succ {t : Token} {n m : Nat} (h : openAfter n t = some m) :
    openAfter (n + 1) t = some (m + 1) := by
  unfold openAfter at h ⊢
  split at h
  · cases h
    rfl
  · split at h
    · cases h
    · rename_i hn
      cases h
      rw [if_neg (Nat.succ_ne_zero n)]
      exact congrArg some (by omega)
  · cases h
    rfl

/-- A parenthesis that is open in front stays open. -/
theorem openBehind_succ {ts : List Token} :
    ∀ {n m}, openBehind n ts = some m → openBehind (n + 1) ts = some (m + 1) := by
  induction ts with
  | nil =>
    intro n m h
    cases h
    rfl
  | cons t ts ih =>
    intro n m h
    rw [openBehind] at h ⊢
    obtain ⟨k, hk, h⟩ := Option.bind_eq_some_iff.mp h
    rw [openAfter_succ hk]
    exact ih h

theorem Balanced.append {ts us : List Token} (hts : Balanced ts) (hus : Balanced us) :
    Balanced (ts ++ us) := by
  rw [Balanced, openBehind_append, hts]
  exact hus

/-- A parenthesis, what it encloses, and the parenthesis that closes it. -/
theorem Balanced.enclose {p q : Token} {inner : List Token} (hp : p.kind = .leftParen)
    (hq : q.kind = .rightParen) (h : Balanced inner) : Balanced (p :: inner ++ [q]) := by
  have hopen : openAfter 0 p = some 1 := by
    rw [openAfter, hp]
  have hclose : openAfter 1 q = some 0 := by
    rw [openAfter, hq]
    rfl
  have hinner : openBehind 1 inner = some 1 := openBehind_succ h
  rw [Balanced, List.cons_append, openBehind, hopen, Option.bind_some, openBehind_append, hinner,
    Option.bind_some, openBehind, hclose]
  rfl

theorem balanced_singleton {t : Token} (hleft : t.kind ≠ .leftParen) (hright : t.kind ≠ .rightParen) :
    Balanced [t] := by
  have hsame : openAfter 0 t = some 0 := by
    unfold openAfter
    split
    · rename_i hk
      exact absurd hk hleft
    · rename_i hk
      exact absurd hk hright
    · rfl
  rw [Balanced, openBehind, hsame]
  rfl

/-- The parentheses that wait are open in the tokens before: each encloses what follows it up to the
    parentheses inside, and the call it belongs to is that of the function name in front of it. -/
def Nested : List Token → List Pending → Prop
  | _, [] => True
  | before, .operator _ :: rest => Nested before rest
  | before, .paren p call _ :: rest =>
    ∃ pre inner, before = pre ++ p :: inner ∧ Balanced inner ∧
      call = pre.getLast?.filter (·.kind = .function) ∧ Nested pre rest

/-- Balanced tokens change nothing about what is open before them. -/
theorem Nested.append {before seg : List Token} {pending : List Pending} (h : Nested before pending)
    (hseg : Balanced seg) : Nested (before ++ seg) pending := by
  induction pending with
  | nil => trivial
  | cons p rest ih =>
    cases p with
    | operator t => exact ih h
    | paren p call commas =>
      obtain ⟨pre, inner, rfl, hinner, hcall, hrest⟩ := h
      exact ⟨pre, inner ++ seg, List.append_assoc .., hinner.append hseg, hcall, hrest⟩

/-- Operators that leave change nothing about it either. -/
theorem Nested.release {before : List Token} {pending : List Pending} (out : List Token)
    (h : Nested before pending) : Nested before (release out pending).2 := by
  induction pending generalizing out with
  | nil => trivial
  | cons p rest ih =>
    cases p with
    | operator t => exact ih (t :: out) h
    | paren p call commas => exact h

theorem Nested.releaseStronger {ops : Operators} {o : Operator} {before : List Token}
    {pending : List Pending} (out : List Token) (h : Nested before pending) :
    Nested before (releaseStronger ops o out pending).2 := by
  induction pending generalizing out with
  | nil => trivial
  | cons p rest ih =>
    cases p with
    | paren t call commas => exact h
    | operator t =>
      rw [Postfix.releaseStronger]
      split
      · split
        · exact ih (t :: out) h
        · exact h
      · exact h

/-- Operators alone are nested in any tokens. -/
theorem nested_of_release_eq_nil {before : List Token} {pending : List Pending} {out : List Token}
    (h : (Postfix.release out pending).2 = []) : Nested before pending := by
  induction pending generalizing out with
  | nil => trivial
  | cons p rest ih =>
    cases p with
    | operator t => exact ih h
    | paren p call commas => exact absurd h (List.cons_ne_nil _ _)

/-- A right parenthesis closes the innermost one, and what it encloses becomes balanced. -/
theorem nested_onRightParen {s : State} {t : Token} {before : List Token} (ht : t.kind = .rightParen)
    (kinds : WellKinded s.pending) (h : Nested before s.pending) :
    Nested (before ++ [t]) (onRightParen s t).2.pending := by
  unfold onRightParen
  split
  · rename_i out p call commas rest hrelease
    have hparen := h.release s.output
    have hkinds := kinds.of_suffix (release_suffix s.output s.pending)
    rw [hrelease] at hparen hkinds
    obtain ⟨pre, inner, rfl, hinner, -, hrest⟩ := hparen
    have hp := (wellKinded_cons.mp hkinds).1.1
    have hclosed := hrest.append (hinner.enclose hp ht)
    rw [List.cons_append, ← List.cons_append, ← List.append_assoc] at hclosed
    cases call with
    | none => exact hclosed
    | some f => exact hclosed
  · rename_i hopen
    -- no parenthesis waits, so that nothing is asked of the tokens
    rcases release_cases s.output s.pending with hnone | ⟨p, call, commas, rest, hparen⟩
    · exact nested_of_release_eq_nil hnone
    · exact (hopen _ p call commas rest (Prod.ext rfl hparen)).elim

/-- A comma is one more token inside the innermost parenthesis. -/
theorem nested_onComma {s : State} {t : Token} {before : List Token} (ht : Balanced [t])
    (h : Nested before s.pending) : Nested (before ++ [t]) (onComma s t).2.pending := by
  unfold onComma
  split
  · rename_i out p f commas rest hrelease
    have hparen := h.release s.output
    rw [hrelease] at hparen
    obtain ⟨pre, inner, rfl, hinner, hcall, hrest⟩ := hparen
    exact ⟨pre, inner ++ [t], List.append_assoc .., hinner.append ht, hcall, hrest⟩
  · exact h.append ht

/-- **A step keeps the parentheses nested** in the tokens as they are in what waits. -/
theorem nested_step {ops : Operators} {maxDepth : Int} {s : State} {t : Token} {next : Option Token}
    {before : List Token} (kinds : WellKinded s.pending) (previous : s.previous = before.getLast?)
    (h : Nested before s.pending) : Nested (before ++ [t]) (step ops maxDepth s t next).2.pending := by
  by_cases hleft : t.kind = .leftParen
  · simp only [step, hleft, onLeftParen]
    exact ⟨before, [], rfl, rfl, by rw [previous], h⟩
  by_cases hright : t.kind = .rightParen
  · simp only [step, hright]
    exact nested_onRightParen hright kinds h
  -- every other token leaves the parentheses alone
  have hneutral := balanced_singleton hleft hright
  unfold step
  split
  · exact h.append hneutral
  · rename_i hk
    exact absurd hk hleft
  · rename_i hk
    exact absurd hk hright
  · exact nested_onComma hneutral h
  · split
    · unfold onPrefix
      split
      · exact h.append hneutral
      · exact h.append hneutral
    · unfold onBinary
      split
      · exact (h.releaseStronger s.output).append hneutral
      · exact h.append hneutral
  · exact h.append hneutral

/-! ## Calls -/

variable {v : Vocabulary} {maxDepth : Int} {collected : Option (List Issue)}

/-- **Where a scan comes to** the stacks are those of a state of the run, and its parentheses are nested in
    the tokens before. -/
theorem exists_state_of_reaches {before rest : List Token} {c : Scan}
    (h : Scan.Reaches v maxDepth collected before c rest) :
    ∃ s found, c = toScan s found rest.head? ∧ WellKinded s.pending ∧ Nested before s.pending ∧
      s.previous = before.getLast? := by
  induction h with
  | start ts => exact ⟨.initial, collected, (toScan_initial _ ts.head?).symm, wellKinded_nil, trivial, rfl⟩
  | step _ _ hadvance ih =>
    obtain ⟨s, found, rfl, kinds, nested, previous⟩ := ih
    rw [List.head?_cons, advance_eq kinds] at hadvance
    obtain ⟨found', -, hadvance⟩ := exists_of_map_eq_ok hadvance
    refine ⟨_, found', hadvance.symm, wellKinded_step kinds, nested_step kinds previous nested, ?_⟩
    rw [List.getLast?_concat]

/-- **The token below the parenthesis of a call is its function name**: where a right parenthesis closes a
    call, the tokens before it are some tokens, the function name, the parenthesis of the frame and what that
    parenthesis encloses, and the parenthesis and the function name lie on the stack one below the other. -/
theorem exists_function_of_reaches {before rest : List Token} {c : Scan} {t : Token}
    (h : Scan.Reaches v maxDepth collected before c (t :: rest)) (ht : t.kind = .rightParen) {frame : Frame}
    {frames : List Frame} (hframes : c.frames = frame :: frames) (hcall : frame.isCall = true) :
    ∃ opened f inner below, before = opened ++ f :: frame.paren :: inner ∧ f.kind = .function ∧
      Balanced inner ∧ (Scan.unwind c.output c.stack).2 = frame.paren :: f :: below := by
  obtain ⟨s, found, rfl, kinds, nested, previous⟩ := exists_state_of_reaches h
  rw [List.head?_cons, toScan, lead_of_kind (by rw [ht]; decide)] at hframes ⊢
  have hrelease := framesOf_release s.output s.pending
  rw [lift_frames, ← hrelease] at hframes
  have hparen := nested.release s.output
  have hkinds := kinds.of_suffix (release_suffix s.output s.pending)
  rw [lift_output, lift_stack, List.nil_append, unwind_flatten kinds]
  rcases release_cases s.output s.pending with hnone | ⟨p, call, commas, rest, hleft⟩
  · rw [hnone] at hframes
    cases hframes
  · rw [hleft] at hframes hparen hkinds ⊢
    cases hframes
    obtain ⟨pre, inner, rfl, hinner, hlast, -⟩ := hparen
    obtain ⟨f, rfl⟩ := Option.isSome_iff_exists.mp hcall
    have hf := (wellKinded_cons.mp hkinds).1.2 f rfl
    obtain ⟨hget, -⟩ := Option.filter_eq_some_iff.mp hlast.symm
    obtain ⟨opened, rfl⟩ := List.getLast?_eq_some_iff.mp hget
    refine ⟨opened, f, inner, flatten rest, ?_, hf, hinner, rfl⟩
    rw [List.append_assoc]
    rfl

/-! ## Issues -/

/-- The issue is neither about the arguments of a call nor about a function that there is not. -/
def isStructural (i : Issue) : Bool := i.code ≠ "ARITY_ERROR" && i.code ≠ "UNKNOWN_IDENTIFIER"

/-- A problem is told by a code of its own. -/
theorem isStructural_problem (cause : StructuralCause) : isStructural cause.issue = true := by
  cases cause <;> rfl

/-- A number of arguments that does not fit is told by one code. -/
theorem arityProblem?_code {f : Function} {count : Int} {failure : Failure} {r : Report}
    (h : f.arityProblem? count = some failure) (hr : failure.report? = some r) : r.issue.code = "ARITY_ERROR" := by
  unfold Function.arityProblem? at h
  split at h
  · split at h
    · cases h
      cases hr
      rfl
    · cases h
  · split at h
    · cases h
    · cases h
      -- one that tells too long an integer has no report
      unfold Failure.telling at hr
      split at hr
      · split at hr
        · cases hr
          rfl
        · cases hr
      · cases hr

/-- A call that does not fit its function is told by one of the two codes. -/
theorem isStructural_call {functions : Option Registry} {name : String} {count : Nat} {position : Int}
    {i : Issue} (h : Finding.issue? functions (.call name count position) = some i) :
    isStructural i = false := by
  cases functions with
  | none => cases h
  | some r =>
    simp only [Finding.issue?, Registry.checkCall] at h
    cases hf : r.find? name with
    | none =>
      rw [hf] at h
      cases h
      rfl
    | some f =>
      simp only [hf] at h
      cases hp : f.arityProblem? count with
      | none =>
        rw [hp] at h
        cases h
      | some failure =>
        rw [hp, Option.bind_some] at h
        obtain ⟨report, hreport, rfl⟩ := Option.map_eq_some_iff.mp h
        rw [isStructural, arityProblem?_code hp hreport]
        rfl

/-- **The first structural issue is the first problem found.** -/
theorem find?_issues (functions : Option Registry) (found : List Finding) :
    (found.filterMap (Finding.issue? functions)).find? isStructural =
      (firstProblem? found).map StructuralCause.issue := by
  induction found with
  | nil => rfl
  | cons f found ih =>
    rw [firstProblem?] at ih ⊢
    rw [List.filterMap_cons, List.findSome?_cons]
    cases f with
    | problem cause =>
      simp only [Finding.issue?, List.find?_cons, isStructural_problem, Option.map_some]
    | call name count position =>
      cases h : Finding.issue? functions (.call name count position) with
      | none => exact ih
      | some i =>
        simp only [List.find?_cons, isStructural_call h]
        exact ih

/-- The conversion fails with the first problem found. -/
theorem ofTokens_eq_error_iff {ops : Operators} {ts : List Token} {cause : StructuralCause} :
    ofTokens ops maxDepth ts = .error cause ↔ firstProblem? (run ops maxDepth ts).1 = some cause := by
  unfold ofTokens
  cases run ops maxDepth ts with
  | mk found tokens =>
    cases h : firstProblem? found with
    | some first => simp only [h, Except.error.injEq, Option.some.injEq]
    | none => simp only [h, reduceCtorEq]

/-! ## The check and the conversion -/

/-- **The check fails only for a message that it cannot tell, and sees what the conversion raises.**  For any
    tokens, depth and functions:

    * the scan that collects issues comes to its end with those of the run, unless a message would tell an
      integer of too many digits; such an integer is the depth, the place of a token, the number of tokens or
      the number of arguments that a function takes;
    * nothing is taken from an empty stack, and the token taken for a call is the function name in front of the
      parenthesis that is closed;
    * the scan that raises ends as the conversion does, and raises a problem of structure as what it is if its
      message can be told;
    * the conversion fails exactly if there is an issue that is neither about the arguments of a call nor
      about an unknown function, and then the first such issue tells its message, code and position. -/
theorem validate_and_parse (v : Vocabulary) (maxDepth : Int) (ts : List Token) :
    ((∀ f ∈ (run v.operators maxDepth ts).1, ¬ f.TellsLong v.functions) →
      Scan.validate v maxDepth ts = .ok (issues v maxDepth ts)) ∧
    ((∃ f ∈ (run v.operators maxDepth ts).1, f.TellsLong v.functions) →
      Scan.validate v maxDepth ts = .error (.raised (.fault .tooLong)) ∧
      (isTellable maxDepth = false ∨ (∃ t ∈ ts, isTellable t.position = false) ∨ isTellable ts.length = false ∨
        ∃ r name f n, v.functions = some r ∧ r.find? name = some f ∧ f.arity = .exactly n ∧
          isTellable n = false)) ∧
    (∀ collected before c t rest frame frames, before ++ t :: rest = ts →
      Scan.Reaches v maxDepth collected before c (t :: rest) → t.kind = .rightParen →
      c.frames = frame :: frames → frame.isCall = true →
      ∃ opened f inner below, before = opened ++ f :: frame.paren :: inner ∧ f.kind = .function ∧
        Balanced inner ∧ (Scan.unwind c.output c.stack).2 = frame.paren :: f :: below) ∧
    Scan.parse v maxDepth ts = (ofTokens v.operators maxDepth ts).mapError (fun cause => .raised cause.failure) ∧
    ((∃ cause, ofTokens v.operators maxDepth ts = .error cause) ↔
      ∃ i ∈ issues v maxDepth ts, i.code ≠ "ARITY_ERROR" ∧ i.code ≠ "UNKNOWN_IDENTIFIER") ∧
    (∀ cause, ofTokens v.operators maxDepth ts = .error cause →
      (¬ (Finding.problem cause).TellsLong v.functions → cause.failure = .structural cause) ∧
      (issues v maxDepth ts).find? (fun i => i.code ≠ "ARITY_ERROR" && i.code ≠ "UNKNOWN_IDENTIFIER") =
        some ⟨cause.message, cause.code, cause.position⟩) := by
  have hfirst := find?_issues v.functions (run v.operators maxDepth ts).1
  have hvalidate : Scan.validate v maxDepth ts = (validate v maxDepth ts).mapError .raised := validate_eq ts
  refine ⟨fun tellable => ?_, fun long => ⟨?_, ?_⟩, ?_, parse_eq ts, ?_, ?_⟩
  · rw [hvalidate, validate_of_tellable tellable]
    rfl
  · rw [hvalidate, validate_of_tellsLong long]
    rfl
  · obtain ⟨f, hf, hlong⟩ := long
    refine (source_of_tellsLong hf hlong).imp_right (·.imp_right (·.imp_right ?_))
    rintro ⟨name, -, -, r, g, n, -, hr, hg, harity, hn⟩
    exact ⟨r, name, g, n, hr, hg, harity, hn⟩
  · intro collected before c t rest frame frames _ h ht hframes hcall
    exact exists_function_of_reaches h ht hframes hcall
  · constructor
    · rintro ⟨cause, h⟩
      rw [ofTokens_eq_error_iff.mp h, Option.map_some] at hfirst
      have hstructural := List.find?_some hfirst
      rw [isStructural, Bool.and_eq_true, decide_eq_true_iff, decide_eq_true_iff] at hstructural
      exact ⟨cause.issue, List.mem_of_find?_eq_some hfirst, hstructural⟩
    · rintro ⟨i, hi, hcode⟩
      cases hproblem : firstProblem? (run v.operators maxDepth ts).1 with
      | some cause => exact ⟨cause, ofTokens_eq_error_iff.mpr hproblem⟩
      | none =>
        rw [hproblem, Option.map_none, List.find?_eq_none] at hfirst
        have hstructural : isStructural i = true := by
          rw [isStructural, Bool.and_eq_true, decide_eq_true_iff, decide_eq_true_iff]
          exact hcode
        exact absurd hstructural (hfirst i hi)
  · intro cause h
    rw [ofTokens_eq_error_iff.mp h] at hfirst
    exact ⟨failure_of_tellable, hfirst⟩

/-- The check of `f()` fails if `f` takes too many arguments for a message, and that of `(1)` if the depth that it
    exceeds is too long to be told. -/
theorem validate_fails_of_long :
    let f : Function := ⟨"f", .exactly (10 ^ 5000), .host fun _ => .ok (.integer 0), "", "user", true⟩
    let call : List Token := [⟨.function, "f", 0, none⟩, ⟨.leftParen, "(", 1, none⟩, ⟨.rightParen, ")", 2, none⟩]
    let group : List Token := [⟨.leftParen, "(", 0, none⟩, ⟨.number, "1", 1, none⟩, ⟨.rightParen, ")", 2, none⟩]
    Scan.validate ⟨.calculator, some ⟨[f], []⟩⟩ Limit.nesting call = .error (.raised (.fault .tooLong)) ∧
      Scan.validate ⟨.calculator, none⟩ (-(10 ^ 5000 : Nat)) group = .error (.raised (.fault .tooLong)) := by
  intro f call group
  constructor
  · have hcall : .call "f" 0 0 ∈ (run .calculator Limit.nesting call).1 := by decide +kernel
    have hcount : ((0 : Nat) : Int) ≠ (10 ^ 5000 : Nat) := by decide +kernel
    rw [validate_eq, validate_of_tellsLong ⟨_, hcall, _, f, 10 ^ 5000, rfl, rfl, rfl, hcount,
      Or.inl (by decide +kernel)⟩]
    rfl
  · have hgroup : .problem (.tooDeep (-(10 ^ 5000 : Nat)) 0) ∈
        (run .calculator (-(10 ^ 5000 : Nat)) group).1 := by
      decide +kernel
    rw [validate_eq, validate_of_tellsLong ⟨_, hgroup, _, rfl, by decide +kernel⟩]
    rfl

end SciCalc.Postfix
