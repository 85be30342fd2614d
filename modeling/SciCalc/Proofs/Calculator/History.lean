/-
  What a calculator remembers of a session.

  1. **Answers** (`result?`, `Answered`) — calculations, assignments, root searches and integrals are answered by a
     result.  There are four ways such an operation can go, and each of them is one equation for the calculator
     that it leads to.

  2. **Steps** (`steps`, `since`) — the operations of a session, each with the calculator that it is done to, and
     those of them that are behind the last operation of some kind.

  3. **Theorem** (`history_of_session`) — the history has the last successes since it was cleared, each with its
     value, its written form and the modes in force; the last result is the last success since the last reset; and
     a failure is not remembered at all.

  The crux is `answered`: of each of the four ways it is known at once what the result says and what is remembered.
-/
import Mathlib.Data.List.DropRight
import SciCalc.Proofs.Calculator.Reset

namespace SciCalc

namespace Operation

/-- The operation brings the calculator back to its beginning. -/
def isReset : Operation → Bool
  | reset => true
  | _ => false

/-- What a success of the operation is remembered as. -/
def title : Operation → String
  | calculate expression => Calculator.expressionText expression
  | assign _ expression => Calculator.expressionText expression
  | solve expression unknown _ => Calculator.solveText expression unknown
  | integrate expression lower upper unknown => Calculator.integrateText expression lower upper unknown
  | _ => ""

end Operation

namespace Calculator

variable {c : Calculator} {op : Operation}

/-! ## Answers -/

/-- The result that an operation is answered by, if it is. -/
def result? (c : Calculator) : Operation → Option CalculationResult
  | .calculate expression => some (c.calculate expression).1
  | .assign name expression => some (c.assign name expression).1
  | .solve expression unknown guess => (c.solve expression unknown guess).1.toOption
  | .integrate expression lower upper unknown => (c.integrate expression lower upper unknown).1.toOption
  | _ => none

/-- The result of an operation that succeeds. -/
def success? (c : Calculator) (op : Operation) : Option CalculationResult := (c.result? op).filter (·.succeeded)

/-- The operation fails, and a result says so. -/
def fails (c : Calculator) (op : Operation) : Bool := (c.result? op).any (!·.succeeded)

/-- The operation is an assignment whose name is refused. -/
def refuses (c : Calculator) : Operation → Bool
  | .assign name _ => !(c.variableName name).isOk
  | _ => false

/-- The operation should be answered by a result, but it ends with a failure that no result tells. -/
def raises (c : Calculator) (op : Operation) : Bool := op.isAnswered && (c.result? op).isNone

/-- The entry of the history for an operation: the value of the result and its written form, with the modes in
    force. -/
def entryOf? (c : Calculator) (op : Operation) : Option HistoryEntry := do
  let r ← c.success? op
  return ⟨op.title, ← r.value, ← r.formatted, c.modes⟩

/-- **The ways an operation can go that is answered by a result.** -/
inductive Answered (c : Calculator) (op : Operation) : Prop where
  /-- It succeeds: the result is the last one, and the history has a new entry. -/
  | success (r : CalculationResult) (e : HistoryEntry) (bindings : Bindings) :
      c.success? op = some r → c.entryOf? op = some e →
      c.fails op = false → c.refuses op = false → c.raises op = false →
      c.perform op = { c.begin with
        bindings := bindings
        history := lastEntries c.historySize (c.history ++ [e])
        lastResult := some r
        succeeded := c.succeeded + 1 } → Answered c op
  /-- It fails behind the beginning of the calculation. -/
  | failure : c.success? op = none → c.fails op = true → c.refuses op = false → c.raises op = false →
      c.perform op = { c.begin with failed := c.failed + 1 } → Answered c op
  /-- It fails, and no calculation is begun: the name is refused. -/
  | refusal : c.success? op = none → c.fails op = true → c.refuses op = true → c.raises op = false →
      c.perform op = { c with failed := c.failed + 1 } → Answered c op
  /-- It ends with a failure that no result tells. -/
  | raising : c.success? op = none → c.fails op = false → c.refuses op = false → c.raises op = true →
      c.perform op = c.begin → Answered c op

/-- What has no success has no entry. -/
theorem entryOf?_eq_none (h : c.success? op = none) : c.entryOf? op = none := by
  rw [entryOf?, h]
  rfl

/-- What succeeds is remembered with what its result says. -/
theorem answered_of_success {v : Value} {text : String} {n k m : Nat} (bindings : Bindings)
    (hresult : c.result? op = some (.success v text n k m)) (hname : c.refuses op = false)
    (hperform : c.perform op = { (c.begin.succeed op.title v text n k m).2 with bindings := bindings }) :
    c.Answered op := by
  have hsuccess : c.success? op = some (.success v text n k m) := by
    rw [success?, hresult]
    rfl
  have hentry : c.entryOf? op = some ⟨op.title, v, text, c.modes⟩ := by
    rw [entryOf?, hsuccess]
    rfl
  have hfails : c.fails op = false := by
    rw [fails, hresult]
    rfl
  have hraises : c.raises op = false := by
    rw [raises, hresult]
    exact Bool.and_false _
  exact .success _ _ bindings hsuccess hentry hfails hname hraises hperform

/-- What a result tells as a failure is no success. -/
theorem told_of_failure {message code : String} {n k : Nat}
    (hresult : c.result? op = some (.failure message code n k)) :
    c.success? op = none ∧ c.fails op = true ∧ c.raises op = false := by
  rw [success?, fails, raises, hresult]
  exact ⟨rfl, rfl, Bool.and_false _⟩

/-- A search goes as its ending says. -/
theorem answered_of_conclude {ending : Ending} (hanswered : op.isAnswered = true)
    (hresult : c.result? op = (c.begin.conclude op.title ending).1.toOption)
    (hperform : c.perform op = (c.begin.conclude op.title ending).2) (hname : c.refuses op = false) :
    c.Answered op := by
  cases ending with
  | found v text => exact answered_of_success c.bindings hresult hname hperform
  | failed message code =>
    obtain ⟨hsuccess, hfails, hraises⟩ := told_of_failure hresult
    exact .failure hsuccess hfails hname hraises hperform
  | raised f =>
    have hnone : c.result? op = none := hresult
    refine .raising ?_ ?_ hname ?_ hperform
    · rw [success?, hnone]
      rfl
    · rw [fails, hnone]
      rfl
    · rw [raises, hanswered, hnone]
      rfl

/-- **Each operation that is answered by a result goes one of the four ways.** -/
theorem answered (c : Calculator) (h : op.isAnswered = true) : c.Answered op := by
  cases op with
  | calculate expression =>
    have hresult : c.result? (.calculate expression) = some (c.calculate expression).1 := rfl
    rcases calculate_cases c expression with ⟨v, text, n, k, m, heq⟩ | ⟨f, n, k, heq⟩
    · rw [heq] at hresult
      exact answered_of_success c.bindings hresult rfl (congrArg Prod.snd heq)
    · rw [heq] at hresult
      obtain ⟨hsuccess, hfails, hraises⟩ := told_of_failure hresult
      exact .failure hsuccess hfails rfl hraises (congrArg Prod.snd heq)
  | assign name expression =>
    have hresult : c.result? (.assign name expression) = some (c.assign name expression).1 := rfl
    cases hname : c.variableName name with
    | error f =>
      have hassign : c.assign name expression = c.fail f 0 0 := by rw [assign, hname]
      rw [hassign] at hresult
      obtain ⟨hsuccess, hfails, hraises⟩ := told_of_failure hresult
      refine .refusal hsuccess hfails ?_ hraises (congrArg Prod.snd hassign)
      rw [refuses, hname]
      rfl
    | ok s =>
      have hrefuses : c.refuses (.assign name expression) = false := by
        rw [refuses, hname]
        rfl
      have hassign := assign_of_name hname expression
      rcases calculate_cases c expression with ⟨v, text, n, k, m, heq⟩ | ⟨f, n, k, heq⟩
      · rw [heq] at hassign
        rw [hassign] at hresult
        exact answered_of_success (Bindings.put s v c.bindings) hresult hrefuses (congrArg Prod.snd hassign)
      · rw [heq] at hassign
        rw [hassign] at hresult
        obtain ⟨hsuccess, hfails, hraises⟩ := told_of_failure hresult
        exact .failure hsuccess hfails hrefuses hraises (congrArg Prod.snd hassign)
  | solve expression unknown guess => exact answered_of_conclude rfl rfl rfl rfl
  | integrate expression lower upper unknown => exact answered_of_conclude rfl rfl rfl rfl
  | _ => cases h

/-- An operation that is not answered by a result neither succeeds nor fails. -/
theorem untold_of_not_answered (h : op.isAnswered = false) :
    c.success? op = none ∧ c.fails op = false ∧ c.refuses op = false ∧ c.raises op = false := by
  cases op <;> first | exact ⟨rfl, rfl, rfl, rfl⟩ | cases h

/-- **A failure that a result tells changes nothing but the counts.** -/
theorem perform_of_fails (h : c.fails op = true) :
    ∃ calculations failed, c.perform op = { c with calculations := calculations, failed := failed } := by
  cases hanswered : op.isAnswered with
  | false =>
    obtain ⟨-, hfails, -, -⟩ := untold_of_not_answered (c := c) hanswered
    rw [hfails] at h
    cases h
  | true =>
    cases c.answered hanswered with
    | success r e bindings _ _ hfails =>
      rw [hfails] at h
      cases h
    | failure _ _ _ _ hperform => exact ⟨_, _, hperform⟩
    | refusal _ _ _ _ hperform => exact ⟨_, _, hperform⟩
    | raising _ hfails =>
      rw [hfails] at h
      cases h

/-! ## Steps -/

/-- The operations of a session from a calculator on, each with the calculator that it is done to. -/
def steps (c : Calculator) : List Operation → List (Calculator × Operation)
  | [] => []
  | op :: ops => (c, op) :: steps (c.perform op) ops

theorem steps_concat (c : Calculator) (ops : List Operation) (op : Operation) :
    c.steps (ops ++ [op]) = c.steps ops ++ [(ops.foldl perform c, op)] := by
  induction ops generalizing c with
  | nil => rfl
  | cons first ops ih => rw [List.cons_append, steps, ih, steps, List.cons_append, List.foldl_cons]

/-- The steps behind the last operation of some kind. -/
def since (kind : Operation → Bool) (steps : List (Calculator × Operation)) : List (Calculator × Operation) :=
  steps.rtakeWhile (!kind ·.2)

theorem since_concat (kind : Operation → Bool) (steps : List (Calculator × Operation))
    (step : Calculator × Operation) :
    since kind (steps ++ [step]) = if kind step.2 then [] else since kind steps ++ [step] := by
  rw [since, List.rtakeWhile_concat]
  cases kind step.2 <;> rfl

/-- The entries for the successes among some steps. -/
def entries (steps : List (Calculator × Operation)) : List HistoryEntry :=
  steps.filterMap fun step => step.1.entryOf? step.2

/-- The results of the successes among some steps. -/
def successes (steps : List (Calculator × Operation)) : List CalculationResult :=
  steps.filterMap fun step => step.1.success? step.2

/-! ## What a step remembers -/

/-- A success has an entry, and nothing else has one. -/
theorem isSome_entryOf? (c : Calculator) (op : Operation) : (c.entryOf? op).isSome = (c.success? op).isSome := by
  cases hsuccess : c.success? op with
  | none =>
    rw [entryOf?_eq_none hsuccess]
    rfl
  | some r =>
    cases hanswered : op.isAnswered with
    | false =>
      rw [(untold_of_not_answered hanswered).1] at hsuccess
      cases hsuccess
    | true =>
      cases c.answered hanswered with
      | success _ e _ _ hentry =>
        rw [hentry]
        rfl
      | failure hnone | refusal hnone | raising hnone =>
        rw [hnone] at hsuccess
        cases hsuccess

/-- The history after an operation that does not clear it: a success is put behind the others. -/
theorem history_perform (h : op.clearsHistory = false) :
    (c.perform op).history =
      (c.entryOf? op).elim c.history fun e => lastEntries c.historySize (c.history ++ [e]) := by
  cases hanswered : op.isAnswered with
  | false =>
    obtain ⟨hnone, -⟩ := untold_of_not_answered (c := c) hanswered
    obtain ⟨_, _, _, hperform⟩ := sameMemory_perform c hanswered h
    rw [entryOf?_eq_none hnone, hperform]
    rfl
  | true =>
    cases c.answered hanswered with
    | success _ e _ _ hentry _ _ _ hperform =>
      rw [hentry, hperform]
      rfl
    | failure hnone _ _ _ hperform | refusal hnone _ _ _ hperform | raising hnone _ _ _ hperform =>
      rw [entryOf?_eq_none hnone, hperform]
      rfl

/-- The last result after an operation that is no reset: a success takes the place of the other one. -/
theorem lastResult_perform (h : op.isReset = false) :
    (c.perform op).lastResult = (c.success? op).or c.lastResult := by
  cases hanswered : op.isAnswered with
  | false =>
    obtain ⟨hnone, -⟩ := untold_of_not_answered (c := c) hanswered
    rw [hnone, Option.none_or]
    cases hclears : op.clearsHistory with
    | false =>
      obtain ⟨_, _, _, hperform⟩ := sameMemory_perform c hanswered hclears
      rw [hperform]
    | true =>
      cases op with
      | clearHistory => rfl
      | reset => cases h
      | _ => cases hclears
  | true =>
    cases c.answered hanswered with
    | success _ e _ hsuccess _ _ _ _ hperform =>
      rw [hsuccess, hperform]
      rfl
    | failure hnone _ _ _ hperform | refusal hnone _ _ _ hperform | raising hnone _ _ _ hperform =>
      rw [hnone, hperform]
      rfl

/-! ## Theorem -/

/-- What is put behind the last entries comes to stand behind all of them. -/
theorem lastEntries_concat {α : Type} (size : Nat) (as : List α) (a : α) :
    lastEntries size (lastEntries size as ++ [a]) = lastEntries size (as ++ [a]) := by
  unfold lastEntries
  by_cases hsize : size = 0
  · subst hsize
    simp
  · by_cases hfull : size ≤ as.length
    · have hkept : (as.drop (as.length - size)).length = size := by
        rw [List.length_drop]
        omega
      rw [List.length_append, hkept, List.length_append, List.length_singleton,
        show size + 1 - size = 1 by omega, List.drop_append_of_le_length (by omega),
        List.drop_append_of_le_length (by omega), List.drop_drop,
        show as.length - size + 1 = as.length + 1 - size by omega]
    · rw [show as.length - size = 0 by omega, List.drop_zero]

theorem length_lastEntries {α : Type} (size : Nat) (as : List α) :
    (lastEntries size as).length = min size as.length := by
  rw [lastEntries, List.length_drop]
  omega

section

variable (historySize : Nat) (ops : List Operation)

/-- The steps of a session. -/
def sessionSteps : List (Calculator × Operation) := (new historySize).steps ops

theorem sessionSteps_concat (op : Operation) :
    sessionSteps historySize (ops ++ [op]) = sessionSteps historySize ops ++ [(session historySize ops, op)] :=
  steps_concat (new historySize) ops op

/-- The history has the last entries for the successes since it was cleared. -/
theorem history_session : (session historySize ops).history =
    lastEntries historySize (entries (since Operation.clearsHistory (sessionSteps historySize ops))) := by
  induction ops using List.reverseRecOn with
  | nil =>
    rw [sessionSteps, steps, since, List.rtakeWhile_nil]
    exact (List.drop_nil).symm
  | append_singleton ops op ih =>
    rw [session_concat, sessionSteps_concat, since_concat]
    cases hclears : op.clearsHistory with
    | true =>
      rw [if_pos rfl]
      cases op with
      | clearHistory | reset => exact (List.drop_nil).symm
      | _ => cases hclears
    | false =>
      rw [history_perform hclears, if_neg (by decide), entries, List.filterMap_append, ← entries, ih,
        historySize_session]
      cases hentry : (session historySize ops).entryOf? op with
      | none => simp [hentry]
      | some e => simp [hentry, lastEntries_concat]

/-- The last result is that of the last success since the last reset. -/
theorem lastResult_session : (session historySize ops).lastResult =
    (successes (since Operation.isReset (sessionSteps historySize ops))).getLast? := by
  induction ops using List.reverseRecOn with
  | nil => rfl
  | append_singleton ops op ih =>
    rw [session_concat, sessionSteps_concat, since_concat]
    cases hreset : op.isReset with
    | true =>
      cases op with
      | reset => rfl
      | _ => cases hreset
    | false =>
      rw [lastResult_perform hreset, if_neg (by decide), successes, List.filterMap_append, ← successes, ih]
      cases hsuccess : (session historySize ops).success? op with
      | none => simp [hsuccess]
      | some r => simp [hsuccess]

/-- There are as many entries as successes. -/
theorem length_entries (steps : List (Calculator × Operation)) :
    (entries steps).length = (successes steps).length := by
  simp only [entries, successes, List.length_filterMap_eq_countP, isSome_entryOf?]

/-- **What is remembered of a session.**  The history has the last successes since it was cleared, up to its size
    and the oldest first, each with its value, its written form and the modes in force; the last result is that of
    the last success since the last reset; and a failure that is told changes nothing but the counts. -/
theorem history_of_session :
    let steps := sessionSteps historySize ops
    let c := session historySize ops
    c.history = (entries (since Operation.clearsHistory steps)).rtake historySize ∧
    c.history.length = min historySize (successes (since Operation.clearsHistory steps)).length ∧
    c.lastResult = (successes (since Operation.isReset steps)).getLast? ∧
    ∀ op, c.fails op = true →
      ∃ calculations failed, c.perform op = { c with calculations := calculations, failed := failed } := by
  intro steps c
  refine ⟨history_session historySize ops, ?_, lastResult_session historySize ops, fun _ => perform_of_fails⟩
  rw [history_session, length_lastEntries, length_entries]

end

/-- Only the last success is kept where one can be; the failure behind it is not remembered. -/
example : (session 1 [.calculate (.text "1"), .calculate (.text "2"), .calculate (.text "1/0")]).history.map
    (·.expression) = ["2"] := by decide +kernel

end Calculator

end SciCalc
