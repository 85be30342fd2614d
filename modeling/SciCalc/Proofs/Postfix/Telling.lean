/-
  Messages that tell an integer of too many digits.

  A message about a problem tells the place of a token or the limit of nesting, and one about a call how many
  arguments its function takes and how many there are.  Where such an integer has too many digits for a message,
  the check fails instead.

  1. **Findings** (`Finding.TellsLong`) — the findings whose messages cannot be told.  The check ends with all
     issues unless it meets one (`validate_of_tellable`, `validate_of_tellsLong`).

  2. **Runs** (`tells_run`) — a step tells only the place of its token and the limit, and the calls that wait have
     at most as many commas as there are tokens before.  So a run tells only the places of its tokens and the
     limit, and finds no call with more arguments than there are tokens.

  3. **Sources** (`source_of_tellsLong`) — what is too long is the limit, a place, the number of tokens or the
     number of arguments that a function takes.
-/
import SciCalc.Proofs.Number.Digits
import SciCalc.Proofs.Postfix.Simulation
import SciCalc.Proofs.Token.Lexer

namespace SciCalc.Postfix

open Number (isTellable)

/-! ## Findings -/

/-- The message about a finding would tell an integer of too many digits: the limit or the place that a problem
    tells, or one of the numbers of arguments where a call does not fit its function. -/
def Finding.TellsLong (functions : Option Registry) : Finding → Prop
  | .problem cause => ∃ n, cause.told? = some n ∧ isTellable n = false
  | .call name count _ => ∃ r f n, functions = some r ∧ r.find? name = some f ∧ f.arity = .exactly n ∧
      (count : Int) ≠ n ∧ (isTellable n = false ∨ isTellable count = false)

section

variable {functions : Option Registry}

/-- A problem of structure whose message can be told is raised as what it is. -/
theorem failure_of_tellable {cause : StructuralCause} (h : ¬ (Finding.problem cause).TellsLong functions) :
    cause.failure = .structural cause := by
  unfold StructuralCause.failure
  split
  · rename_i n htold
    exact Failure.telling_of_tellable (Bool.of_not_eq_false fun hlong => h ⟨n, htold, hlong⟩) _
  · rfl

/-- What cannot be told is a fault. -/
theorem Finding.TellsLong.failure?_eq {f : Finding} (h : f.TellsLong functions) :
    f.failure? functions = some (.fault .tooLong) := by
  cases f with
  | problem cause =>
    obtain ⟨n, htold, hlong⟩ := h
    rw [Finding.failure?, StructuralCause.failure, htold]
    exact congrArg some (Failure.telling_of_long hlong _)
  | call name count position =>
    obtain ⟨r, f, n, rfl, hf, harity, hne, hlong⟩ := h
    simp only [Finding.failure?, Option.bind_some, Registry.checkCall, hf, Function.arityProblem?, harity,
      if_neg hne, Option.some.injEq]
    cases hn : isTellable n with
    | false => exact Failure.telling_of_long hn _
    | true =>
      rw [Failure.telling_of_tellable hn]
      exact Failure.telling_of_long (hlong.resolve_left (by rw [hn]; decide)) _

/-- Everything else has a message. -/
theorem report?_isSome_of_tellable {f : Finding} (h : ¬ f.TellsLong functions) {failure : Failure}
    (hf : f.failure? functions = some failure) : failure.report?.isSome = true := by
  cases f with
  | problem cause =>
    cases hf
    rw [failure_of_tellable h]
    rfl
  | call name count position =>
    obtain ⟨r, rfl, hcheck⟩ := Option.bind_eq_some_iff.mp hf
    unfold Registry.checkCall at hcheck
    split at hcheck
    · cases hcheck
      rfl
    · rename_i f hfound
      unfold Function.arityProblem? at hcheck
      split at hcheck
      · split at hcheck
        · cases hcheck
          rfl
        · cases hcheck
      · rename_i n harity
        split at hcheck
        · cases hcheck
        · rename_i hne
          -- neither of the two numbers is too long
          have htell : ∀ m : Int, (isTellable m = false → isTellable n = false ∨ isTellable count = false) →
              isTellable m = true := fun m hm =>
            Bool.of_not_eq_false fun hlong => h ⟨r, f, n, rfl, hfound, harity, hne, hm hlong⟩
          rw [Failure.telling_of_tellable (htell n Or.inl),
            Failure.telling_of_tellable (htell count Or.inr)] at hcheck
          cases hcheck
          rfl

theorem Finding.TellsLong.untold?_eq {f : Finding} (h : f.TellsLong functions) :
    f.untold? functions = some (.fault .tooLong) := by
  rw [Finding.untold?, h.failure?_eq]
  rfl

theorem untold?_of_tellable {f : Finding} (h : ¬ f.TellsLong functions) : f.untold? functions = none := by
  rw [Finding.untold?, Option.filter_eq_none_iff]
  intro failure hf hnone
  have hsome := report?_isSome_of_tellable h hf
  rw [Option.isNone_iff_eq_none.mp hnone] at hsome
  cases hsome

/-- **The check ends with all issues** where every message can be told … -/
theorem validate_of_tellable {v : Vocabulary} {d : Int} {ts : List Token}
    (h : ∀ f ∈ (run v.operators d ts).1, ¬ f.TellsLong v.functions) : validate v d ts = .ok (issues v d ts) := by
  have hnone : firstUntold? v.functions (run v.operators d ts).1 = none :=
    List.findSome?_eq_none_iff.mpr fun f hf => untold?_of_tellable (h f hf)
  rw [validate, hnone]

/-- … **and fails where one cannot.** -/
theorem validate_of_tellsLong {v : Vocabulary} {d : Int} {ts : List Token}
    (h : ∃ f ∈ (run v.operators d ts).1, f.TellsLong v.functions) :
    validate v d ts = .error (.fault .tooLong) := by
  obtain ⟨f, hf, hlong⟩ := h
  cases hfirst : firstUntold? v.functions (run v.operators d ts).1 with
  | none =>
    rw [firstUntold?, List.findSome?_eq_none_iff] at hfirst
    have hnone := hfirst f hf
    rw [hlong.untold?_eq] at hnone
    cases hnone
  | some failure =>
    obtain ⟨g, -, hg⟩ := List.exists_of_findSome?_eq_some hfirst
    have hglong : g.TellsLong v.functions := by
      refine Classical.byContradiction fun htell => ?_
      rw [untold?_of_tellable htell] at hg
      cases hg
    rw [hglong.untold?_eq] at hg
    cases hg
    rw [validate, hfirst]

end

/-! ## Runs -/

/-- A finding tells integers of a kind, and has at most so many arguments. -/
def Finding.Within (told : Int → Prop) (most : Nat) : Finding → Prop
  | .problem cause => ∀ n, cause.told? = some n → told n
  | .call _ count _ => count ≤ most

/-- All findings do. -/
def Tells (told : Int → Prop) (most : Nat) (found : List Finding) : Prop := ∀ f ∈ found, f.Within told most

/-- What waits stands at such a place, and has at most so many commas. -/
def Pending.Within (told : Int → Prop) (most : Nat) : Pending → Prop
  | .operator _ => True
  | .paren t _ commas => told t.position ∧ commas ≤ most

/-- Everything that waits does. -/
def Waits (told : Int → Prop) (most : Nat) (pending : List Pending) : Prop :=
  ∀ p ∈ pending, p.Within told most

section

variable {told : Int → Prop} {most : Nat} {ops : Operators} {d : Int} {s : State} {t : Token}

theorem tells_append {found more : List Finding} :
    Tells told most (found ++ more) ↔ Tells told most found ∧ Tells told most more :=
  List.forall_mem_append

/-- A problem that tells nothing tells nothing else. -/
theorem told_of_none {cause : StructuralCause} (h : cause.told? = none) : ∀ n, cause.told? = some n → told n := by
  intro n hn
  rw [h] at hn
  cases hn

theorem told_of_some {cause : StructuralCause} {m : Int} (h : cause.told? = some m) (hm : told m) :
    ∀ n, cause.told? = some n → told n := by
  intro n hn
  rw [h] at hn
  cases hn
  exact hm

theorem Finding.Within.mono {f : Finding} (h : f.Within told most) {more : Nat} (hle : most ≤ more) :
    f.Within told more := by
  cases f with
  | problem cause => exact h
  | call name count position => exact Nat.le_trans h hle

theorem Tells.mono {found : List Finding} (h : Tells told most found) {more : Nat} (hle : most ≤ more) :
    Tells told more found := fun f hf => (h f hf).mono hle

theorem Pending.Within.mono {p : Pending} (h : p.Within told most) {more : Nat} (hle : most ≤ more) :
    p.Within told more := by
  cases p with
  | operator t => trivial
  | paren t call commas => exact ⟨h.1, Nat.le_trans h.2 hle⟩

/-- **A step tells the place of its token or the limit**, and a call that it closes or keeps waiting has at most
    one more argument or comma than there are tokens before. -/
theorem tells_step (ops : Operators) (next : Option Token) (waits : Waits told most s.pending) (hd : told d)
    (ht : told t.position) :
    Tells told (most + 1) (step ops d s t next).1 ∧ Waits told (most + 1) (step ops d s t next).2.pending := by
  constructor
  · intro f hf
    cases finds_step f hf with
    | tooDeep => exact told_of_some rfl hd
    | missingParenthesis | emptyArgument | emptyParentheses | notBinary => exact told_of_none rfl
    | call hp hfits => exact Nat.le_trans hfits (Nat.succ_le_succ (waits _ hp).2)
    | _ => exact told_of_some rfl ht
  · exact forall_pending_step (fun p hp => hp.mono (Nat.le_succ most)) (fun _ _ => trivial)
      (fun _ => ⟨ht, Nat.zero_le _⟩) (fun p f commas hp => ⟨hp.1, Nat.succ_le_succ hp.2⟩) waits

/-- At the end the places of the parentheses that wait are told. -/
theorem tells_finish {pending : List Pending} (waits : Waits told most pending) (out : List Token) :
    Tells told most (finish out pending).1 := by
  intro f hf
  obtain ⟨p, call, commas, hp, rfl⟩ := finds_finish hf
  exact told_of_some rfl (waits _ hp).1

theorem tells_onFinish : Tells told most (onFinish s t) := by
  intro f hf
  rcases finds_onFinish hf with rfl | rfl
  · exact told_of_none rfl
  · exact told_of_none rfl

/-- What a run tells, where some tokens stand before. -/
theorem tells_runFrom (hd : told d) {ts : List Token} : ∀ {s : State} (before : Nat), Waits told before s.pending →
    (∀ t ∈ ts, told t.position) → before + ts.length ≤ most → Tells told most (runFrom ops d s ts).1 := by
  induction ts with
  | nil => exact fun before waits _ hmost => (tells_finish waits _).mono hmost
  | cons t ts ih =>
    intro s before waits hts hmost
    obtain ⟨ht, hts⟩ := List.forall_mem_cons.mp hts
    rw [List.length_cons] at hmost
    rw [runFrom]
    split
    · exact tells_append.mpr ⟨tells_onFinish, (tells_finish waits _).mono (by omega)⟩
    · obtain ⟨hfound, hwaits⟩ := tells_step ops ts.head? waits hd ht
      exact tells_append.mpr ⟨hfound.mono (by omega), ih (before + 1) hwaits hts (by omega)⟩

end

/-- **A run tells the places of its tokens and the limit**, and finds no call with more arguments than there are
    tokens. -/
theorem tells_run (ops : Operators) (d : Int) (ts : List Token) :
    Tells (fun n => n = d ∨ ∃ t ∈ ts, t.position = n) ts.length (run ops d ts).1 := by
  unfold run
  split
  · exact List.forall_mem_singleton.mpr (told_of_none rfl)
  · exact tells_runFrom (Or.inl rfl) 0 (fun p hp => absurd hp List.not_mem_nil)
      (fun t ht => Or.inr ⟨t, ht, rfl⟩) (by omega)

/-! ## Sources -/

section

variable {functions : Option Registry} {ops : Operators} {d : Int} {ts : List Token}

/-- **What is too long** for the message about a finding of a run is the limit, the place of a token, the number
    of tokens or the number of arguments that the function of a call takes. -/
theorem source_of_tellsLong {f : Finding} (hf : f ∈ (run ops d ts).1) (long : f.TellsLong functions) :
    isTellable d = false ∨ (∃ t ∈ ts, isTellable t.position = false) ∨ isTellable ts.length = false ∨
      ∃ name count position r g n, f = .call name count position ∧ functions = some r ∧ r.find? name = some g ∧
        g.arity = .exactly n ∧ isTellable n = false := by
  have within := tells_run ops d ts f hf
  cases f with
  | problem cause =>
    obtain ⟨n, htold, hlong⟩ := long
    rcases within n htold with rfl | ⟨t, ht, rfl⟩
    · exact Or.inl hlong
    · exact Or.inr (Or.inl ⟨t, ht, hlong⟩)
  | call name count position =>
    obtain ⟨r, g, n, rfl, hg, harity, -, hlong | hlong⟩ := long
    · exact Or.inr (Or.inr (Or.inr ⟨name, count, position, r, g, n, rfl, rfl, hg, harity, hlong⟩))
    · refine Or.inr (Or.inr (Or.inl (Bool.eq_false_iff.mpr fun htell => ?_)))
      rw [Number.isTellable_of_le within htell] at hlong
      cases hlong

/-- **In a text that is not too long, only what a function takes can be too long**, if the limit is not.  A call
    of such a function has another number of arguments. -/
theorem tellsLong_iff {v : Vocabulary} {complex : Bool} {limit : Int} {text : String}
    (lexed : Token.tokenize v complex limit text = .ok ts) (htext : isTellable (text.length + 1 : Nat) = true)
    (hd : isTellable d = true) {f : Finding} (hf : f ∈ (run ops d ts).1) :
    f.TellsLong functions ↔
      ∃ name count position r g n, f = .call name count position ∧ functions = some r ∧ r.find? name = some g ∧
        g.arity = .exactly n ∧ isTellable n = false := by
  obtain ⟨hlength, hplaces⟩ := Token.within_of_tokenize lexed
  have hts : isTellable ts.length = true := Number.isTellable_of_le hlength htext
  constructor
  · intro long
    rcases source_of_tellsLong hf long with h | ⟨t, ht, h⟩ | h | h
    · rw [hd] at h
      cases h
    · obtain ⟨p, hp, hle⟩ := hplaces t ht
      rw [hp, Number.isTellable_of_le (Nat.le_succ_of_le hle) htext] at h
      cases h
    · rw [hts] at h
      cases h
    · exact h
  · rintro ⟨name, count, position, r, g, n, rfl, hr, hg, harity, hlong⟩
    refine ⟨r, g, n, hr, hg, harity, ?_, Or.inl hlong⟩
    -- the number of arguments can be told
    have hcount : count ≤ ts.length := tells_run ops d ts _ hf
    rintro heq
    rw [← heq, Number.isTellable_of_le hcount hts] at hlong
    cases hlong

/-- So where no function takes too many arguments, the check of a text ends with all issues. -/
theorem validate_of_tokenize {v : Vocabulary} {complex : Bool} {limit : Int} {text : String}
    (lexed : Token.tokenize v complex limit text = .ok ts) (htext : isTellable (text.length + 1 : Nat) = true)
    (hd : isTellable d = true)
    (arities : ∀ r name f n, v.functions = some r → r.find? name = some f → f.arity = .exactly n →
      isTellable n = true) : validate v d ts = .ok (issues v d ts) := by
  refine validate_of_tellable fun f hf long => ?_
  obtain ⟨name, -, -, r, g, n, -, hr, hg, harity, hn⟩ := (tellsLong_iff lexed htext hd hf).mp long
  rw [arities r name g n hr hg harity] at hn
  cases hn

end

end SciCalc.Postfix
