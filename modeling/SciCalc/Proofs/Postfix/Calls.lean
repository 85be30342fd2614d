/-
  The calls that a run closes are the functions that it gives.

  1. **Calls** (`callsFound`, `callsOf`) — a call as it is found, and as it stands in postfix order: the name
     of the function, the number of arguments and where the name begins.

  2. **Steps** (`callsOf_step`) — a step adds to the tokens in postfix order the function of the call that it
     closes, and no other function: what leaves for another reason are operators.

  3. **Runs** (`callsOf_run`) — so the functions in postfix order are the calls found, one for one.

  4. **The check** (`validate_eq_nil_iff`) — it finds nothing exactly if the tokens can be rearranged and
     every function in postfix order exists and takes the arguments it is called with.
-/
import SciCalc.Proofs.Postfix.Operands

namespace SciCalc

/-- There is a function of the name, it is known how many arguments there are, and the function takes so
    many. -/
def Registry.Accepts (r : Registry) (name : String) (count : Option Int) : Prop :=
  ∃ f n, r.find? name = some f ∧ count = some n ∧ f.arityProblem? n = none

namespace Postfix

/-! ## Calls -/

/-- The name of a function, how many arguments it is called with if that is known, and where it begins. -/
abbrev Call := String × Option Int × Int

/-- A finding as a call. -/
def Finding.call? : Finding → Option Call
  | .problem _ => none
  | .call name count position => some (name, some count, position)

/-- A token in postfix order as a call. -/
def callOf? (t : Token) : Option Call :=
  if t.kind = .function then some (t.value, t.argumentCount, t.position) else none

/-- The calls among the findings. -/
def callsFound (found : List Finding) : List Call := found.filterMap Finding.call?

/-- The calls among tokens in postfix order. -/
def callsOf (ts : List Token) : List Call := ts.filterMap callOf?

@[simp] theorem callsFound_append (found more : List Finding) :
    callsFound (found ++ more) = callsFound found ++ callsFound more := List.filterMap_append

@[simp] theorem callsFound_problemIf (b : Bool) (cause : StructuralCause) :
    callsFound (problemIf b cause) = [] := by
  cases b <;> rfl

theorem callOf?_operator (t : Token) (h : t.kind = .operator) : callOf? t = none :=
  if_neg (by rw [h]; decide)

/-- A token that is no function is no call. -/
theorem callsOf_cons {t : Token} (h : t.kind ≠ .function) (ts : List Token) :
    callsOf (t :: ts) = callsOf ts :=
  List.filterMap_cons_none (if_neg h)

theorem callsOf_cons_function {t : Token} (h : t.kind = .function) (count : Option Int) (ts : List Token) :
    callsOf ({ t with argumentCount := count } :: ts) = (t.value, count, t.position) :: callsOf ts := by
  rw [callsOf, List.filterMap_cons, callOf?, if_pos h]
  rfl

/-! ## Steps -/

/-- A right parenthesis that closes a call gives its function with the number of arguments found. -/
theorem callsOf_onRightParen {s : State} {t : Token} (kinds : WellKinded s.pending) :
    callsOf (onRightParen s t).2.output = (callsFound (onRightParen s t).1).reverse ++ callsOf s.output := by
  have hout : callsOf _ = callsOf s.output := filterMap_release callOf?_operator kinds s.output
  unfold onRightParen
  split
  · rename_i out p call commas rest hrelease
    have hkinds := kinds.of_suffix (release_suffix s.output s.pending)
    rw [hrelease] at hout hkinds
    cases call with
    | none =>
      dsimp only
      rw [callsFound_problemIf, List.reverse_nil, List.nil_append]
      exact hout
    | some f =>
      have hf := (wellKinded_cons.mp hkinds).1.2 f rfl
      dsimp only at hout ⊢
      rw [callsFound_append, callsFound_problemIf, List.nil_append,
        callsOf_cons_function hf, hout]
      rfl
  · rfl

/-- A comma gives only the operators of the argument that it ends. -/
theorem callsOf_onComma {s : State} {t : Token} (kinds : WellKinded s.pending) :
    callsOf (onComma s t).2.output = (callsFound (onComma s t).1).reverse ++ callsOf s.output := by
  have hout : callsOf _ = callsOf s.output := filterMap_release callOf?_operator kinds s.output
  unfold onComma
  split
  · rename_i out p f commas rest hrelease
    rw [hrelease] at hout
    rw [callsFound_problemIf, List.reverse_nil, List.nil_append]
    exact hout
  · rfl

/-- **A step gives the function of the call that it closes**, and no other function. -/
theorem callsOf_step {ops : Operators} {d : Int} {s : State} {t : Token} {next : Option Token}
    (kinds : WellKinded s.pending) :
    callsOf (step ops d s t next).2.output =
      (callsFound (step ops d s t next).1).reverse ++ callsOf s.output := by
  unfold step
  split
  · simp only [onFunction, callsFound_append, callsFound_problemIf, List.append_nil, List.reverse_nil,
      List.nil_append]
  · simp only [onLeftParen, callsFound_append, callsFound_problemIf, List.append_nil, List.reverse_nil,
      List.nil_append]
  · exact callsOf_onRightParen kinds
  · exact callsOf_onComma kinds
  · split
    · unfold onPrefix
      split <;> rfl
    · unfold onBinary
      split
      · exact filterMap_releaseStronger callOf?_operator _ kinds s.output
      · rfl
  · rename_i hf _ _ _ _
    simp only [onOperand, callsFound_problemIf, callsOf_cons hf, List.reverse_nil, List.nil_append]

/-! ## Runs -/

/-- At the end no call is found. -/
theorem callsFound_finish (pending : List Pending) (out : List Token) :
    callsFound (finish out pending).1 = [] := by
  induction pending generalizing out with
  | nil => rfl
  | cons p rest ih =>
    cases p with
    | operator t => exact ih (t :: out)
    | paren t call commas => exact ih out

/-- At the end only operators leave. -/
theorem callsOf_finish {pending : List Pending} (kinds : WellKinded pending) (out : List Token) :
    callsOf (finish out pending).2 = callsOf out.reverse ++ callsFound (finish out pending).1 := by
  rw [callsFound_finish, List.append_nil]
  exact filterMap_finish callOf?_operator kinds out

theorem callsOf_reverse (ts : List Token) : callsOf ts.reverse = (callsOf ts).reverse :=
  List.filterMap_reverse

/-- The functions that a run gives are those given before and the calls found, in this order. -/
theorem callsOf_runFrom {ops : Operators} {d : Int} (ts : List Token) :
    ∀ {s : State}, WellKinded s.pending →
      callsOf (runFrom ops d s ts).2 = callsOf s.output.reverse ++ callsFound (runFrom ops d s ts).1 := by
  induction ts with
  | nil => exact fun kinds => callsOf_finish kinds _
  | cons t ts ih =>
    intro s kinds
    rw [runFrom]
    split
    · dsimp only
      rw [callsOf_finish kinds, callsFound_append, onFinish, callsFound_problemIf, List.nil_append]
    · have hmore := ih (s := { (step ops d s t ts.head?).2 with previous := some t }) (wellKinded_step kinds)
      dsimp only at hmore ⊢
      rw [hmore, callsFound_append, callsOf_reverse, callsOf_step kinds, List.reverse_append,
        List.reverse_reverse, callsOf_reverse, List.append_assoc]

/-- **The functions in postfix order are the calls found**, one for one. -/
theorem callsOf_run {ops : Operators} {d : Int} (ts : List Token) :
    callsOf (run ops d ts).2 = callsFound (run ops d ts).1 := by
  unfold run
  split
  · rfl
  · exact callsOf_runFrom ts (s := .initial) wellKinded_nil

/-! ## The check -/

/-- A problem always has a failure; a call has none exactly if its function takes so many arguments. -/
theorem failure?_eq_none_iff {r : Registry} {f : Finding} :
    f.failure? (some r) = none ↔ (∀ cause, f ≠ .problem cause) ∧
      ∀ c, f.call? = some c → r.Accepts c.1 c.2.1 := by
  cases f with
  | problem cause => exact iff_of_false (fun h => by cases h) (fun h => h.1 cause rfl)
  | call name count position =>
    simp only [Finding.failure?, Option.bind_some, Registry.checkCall, Finding.call?, Option.some.injEq,
      forall_eq', Registry.Accepts, ne_eq, reduceCtorEq, not_false_eq_true, implies_true, true_and]
    cases r.find? name with
    | none => simp
    | some g => simp

/-- What has a failure is an issue or cannot be told. -/
theorem failure?_eq_none_iff_told {functions : Option Registry} {f : Finding} :
    f.failure? functions = none ↔ f.untold? functions = none ∧ f.issue? functions = none := by
  cases f with
  | problem cause => exact iff_of_false (fun h => by cases h) (fun h => by cases h.2)
  | call name count position =>
    cases functions with
    | none => exact iff_of_true rfl ⟨rfl, rfl⟩
    | some r =>
      rw [Finding.untold?, Finding.failure?, Finding.issue?, Option.bind_some]
      cases r.checkCall name count with
      | none => exact iff_of_true rfl ⟨rfl, rfl⟩
      | some failure =>
        refine iff_of_false (fun h => by cases h) ?_
        rintro ⟨huntold, hissue⟩
        rw [Option.bind_some, Option.map_eq_none_iff] at hissue
        rw [Option.filter_some, hissue] at huntold
        cases huntold

/-- The check finds nothing exactly if nothing that the run finds has a failure. -/
theorem validate_eq_nil_iff_forall {v : Vocabulary} {d : Int} {ts : List Token} :
    validate v d ts = .ok [] ↔ ∀ f ∈ (run v.operators d ts).1, f.failure? v.functions = none := by
  have hall : (∀ f ∈ (run v.operators d ts).1, f.failure? v.functions = none) ↔
      firstUntold? v.functions (run v.operators d ts).1 = none ∧ issues v d ts = [] := by
    rw [firstUntold?, List.findSome?_eq_none_iff, issues, List.filterMap_eq_nil_iff]
    simp only [failure?_eq_none_iff_told, forall_and]
  rw [hall, validate]
  cases firstUntold? v.functions (run v.operators d ts).1 with
  | none => simp
  | some failure => simp

/-- Nothing found is a problem exactly if no finding is one. -/
theorem faultless_iff {found : List Finding} :
    Faultless found ↔ ∀ f ∈ found, ∀ cause, f ≠ .problem cause := by
  unfold Faultless firstProblem?
  rw [List.findSome?_eq_none_iff]
  refine forall₂_congr fun f _ => ?_
  cases f with
  | problem cause => exact iff_of_false (fun h => by cases h) (fun h => h cause rfl)
  | call name count position => exact iff_of_true rfl (fun _ h => by cases h)

/-- Every function among the tokens exists and takes the arguments it is called with. -/
def AllAccepted (r : Registry) (ts : List Token) : Prop :=
  ∀ t ∈ ts, t.kind = .function → r.Accepts t.value t.argumentCount

theorem forall_mem_callsOf_iff {r : Registry} {ts : List Token} :
    (∀ c ∈ callsOf ts, r.Accepts c.1 c.2.1) ↔ AllAccepted r ts := by
  rw [callsOf, List.forall_mem_filterMap]
  refine forall₂_congr fun t _ => ?_
  by_cases hk : t.kind = .function
  · rw [callOf?, if_pos hk]
    refine ⟨fun h _ => h (t.value, t.argumentCount, t.position) rfl, fun h c hc => ?_⟩
    cases hc
    exact h hk
  · rw [callOf?, if_neg hk]
    exact iff_of_true (fun c hc => by cases hc) (fun h => absurd h hk)

/-- **The check finds nothing** exactly if the tokens can be put into postfix order and every function in it
    exists and takes the arguments it is called with. -/
theorem validate_eq_nil_iff {ops : Operators} {r : Registry} {d : Int} {ts : List Token} :
    validate ⟨ops, some r⟩ d ts = .ok [] ↔ ∃ ps, ofTokens ops d ts = .ok ps ∧ AllAccepted r ps := by
  have hcalls : (∀ c ∈ callsFound (run ops d ts).1, r.Accepts c.1 c.2.1) ↔
      AllAccepted r (run ops d ts).2 := by
    rw [← callsOf_run, forall_mem_callsOf_iff]
  calc validate ⟨ops, some r⟩ d ts = .ok []
    _ ↔ ∀ f ∈ (run ops d ts).1, f.failure? (some r) = none := validate_eq_nil_iff_forall
    _ ↔ Faultless (run ops d ts).1 ∧ ∀ c ∈ callsFound (run ops d ts).1, r.Accepts c.1 c.2.1 := by
        rw [faultless_iff, callsFound, List.forall_mem_filterMap]
        simp only [failure?_eq_none_iff]
        exact ⟨fun h => ⟨fun f hf => (h f hf).1, fun f hf => (h f hf).2⟩,
          fun h f hf => ⟨h.1 f hf, h.2 f hf⟩⟩
    _ ↔ ∃ ps, ofTokens ops d ts = .ok ps ∧ AllAccepted r ps := by
        simp only [ofTokens_eq_ok, hcalls, and_assoc]
        exact ⟨fun h => ⟨_, h.1, rfl, h.2⟩, fun ⟨_, h, hps, hall⟩ => ⟨h, hps ▸ hall⟩⟩

end Postfix

end SciCalc
