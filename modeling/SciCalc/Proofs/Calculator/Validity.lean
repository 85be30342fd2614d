/-
  An expression is valid exactly if it can be put into postfix order and its calls fit their functions.

  Three passes check an expression: reading its tokens, the first check of these, and the run.  Reading is the
  same for the check and for the conversion; the first check refuses nothing that the conversion accepts; and
  the run finds calls that do not fit exactly where they stand in postfix order.  So a check of a text ends in one
  of three ways (`validate_cases`): it finds nothing, it tells what is wrong, or it meets a call of a function that
  takes too many arguments for a message (`Untold`).  Nothing else in a text of at most `Limit.inputLength`
  characters is too long to be told.
-/
import Mathlib.Algebra.Group.Nat.Defs
import SciCalc.Proofs.Calculator.Operation
import SciCalc.Proofs.Postfix.Calls
import SciCalc.Proofs.Postfix.Telling
import SciCalc.Proofs.Token.Check
import SciCalc.Proofs.Token.Lexer

namespace SciCalc.Calculator

open Postfix (AllAccepted)

variable {c : Calculator} {text : String}

/-! ## What is counted -/

/-- A calculation counts the tokens of the text and those in postfix order, whatever comes of it. -/
theorem counts_calculate {ts ps : List Token} (hts : c.tokens (.text text) = .ok ts)
    (hps : c.rearrange ts = .ok ps) :
    (c.calculate (.text text)).1.tokenCount = ts.length - 1 ∧
      (c.calculate (.text text)).1.postfixLength = ps.length := by
  have hts' : c.begin.tokens (.text text) = .ok ts := hts
  have hps' : c.begin.rearrange ts = .ok ps := hps
  simp only [calculate, evaluate, hts', hps']
  split
  · rename_i h
    exact ⟨(congrArg (·.1) h).symm, (congrArg (·.2.1) h).symm⟩
  · rename_i h
    exact ⟨(congrArg (·.1) h).symm, (congrArg (·.2.1) h).symm⟩

/-! ## How a check ends -/

/-- The check meets something that no message can tell: it reads tokens in which the first check finds nothing, and
    the run finds a call of a function that takes too many arguments for a message. -/
def Untold (c : Calculator) (text : String) : Prop :=
  ∃ ts name count position f n, c.tokens (.text text) = .ok ts ∧ Token.problems c.operators ts = [] ∧
    .call name count position ∈ (Postfix.run c.operators Limit.nesting ts).1 ∧
    c.functions.find? name = some f ∧ f.arity = .exactly n ∧ Number.isTellable n = false

/-- That is the only thing in a text that cannot be told. -/
theorem untold_iff {ts : List Token} (hts : c.tokens (.text text) = .ok ts)
    (hfirst : Token.problems c.operators ts = []) :
    c.Untold text ↔
      ∃ f ∈ (Postfix.run c.operators Limit.nesting ts).1, f.TellsLong c.vocabulary.functions := by
  have hlength := Token.length_le_of_tokenize hts
  have htext : Number.isTellable (text.length + 1 : Nat) = true :=
    Number.isTellable_of_le (n := Limit.inputLength + 1) (by omega) (by decide)
  have hlong : ∀ f ∈ (Postfix.run c.operators Limit.nesting ts).1, f.TellsLong c.vocabulary.functions ↔ _ :=
    fun f hf => Postfix.tellsLong_iff hts htext (by decide) hf
  constructor
  · rintro ⟨us, name, count, position, f, n, hus, -, hcall, hf, harity, hn⟩
    obtain rfl := Except.ok.inj (hus.symm.trans hts)
    exact ⟨_, hcall, (hlong _ hcall).mpr ⟨name, count, position, _, f, n, rfl, rfl, hf, harity, hn⟩⟩
  · rintro ⟨_, hcall, hmem⟩
    obtain ⟨name, count, position, _, f, n, rfl, hr, hf, harity, hn⟩ := (hlong _ hcall).mp hmem
    cases hr
    exact ⟨ts, name, count, position, f, n, hts, hfirst, hcall, hf, harity, hn⟩

/-- **How a check of a text ends**: it finds nothing in an expression that has postfix order and whose calls
    fit, it cannot tell what it meets, or it has messages from reading, from the first check or from the run. -/
theorem validate_cases (c : Calculator) (text : String) :
    (∃ ts ps, c.tokens (.text text) = .ok ts ∧ c.rearrange ts = .ok ps ∧ AllAccepted c.functions ps ∧
      ¬ c.Untold text ∧ c.validate (.text text) = ⟨true, [], .complete, ts.length - 1, ps.length⟩) ∨
    (c.Untold text ∧ ∃ message, c.validate (.text text) = .invalid .error [message]) ∨
    (¬ c.Untold text ∧ ∃ stage messages, c.validate (.text text) = .invalid stage messages ∧ messages ≠ [] ∧
      (stage = .tokenization ∨ stage = .parsing)) := by
  cases hts : c.tokens (.text text) with
  | error cause =>
    refine Or.inr (Or.inr ⟨?_, .tokenization, [cause.message], by simp only [validate, hts], by simp, Or.inl rfl⟩)
    rintro ⟨ts, -, -, -, -, -, hok, -⟩
    rw [hts] at hok
    cases hok
  | ok ts =>
    cases hfirst : Token.problems c.operators ts with
    | cons cause causes =>
      refine Or.inr (Or.inr
        ⟨?_, .tokenization, _, by simp only [validate, hts, hfirst]; rfl, by simp, Or.inl rfl⟩)
      rintro ⟨us, -, -, -, -, -, hus, hnone, -⟩
      obtain rfl := Except.ok.inj (hus.symm.trans hts)
      rw [hfirst] at hnone
      cases hnone
    | nil =>
      have huntold := untold_iff hts hfirst
      by_cases hlong : c.Untold text
      · have hvalidate : Postfix.validate c.vocabulary Limit.nesting ts = .error (.fault .tooLong) :=
          Postfix.validate_of_tellsLong (huntold.mp hlong)
        exact Or.inr (Or.inl ⟨hlong, _, by simp only [validate, hts, hfirst, hvalidate]; rfl⟩)
      have hvalidate : Postfix.validate c.vocabulary Limit.nesting ts =
          .ok (Postfix.issues c.vocabulary Limit.nesting ts) :=
        Postfix.validate_of_tellable fun f hf long => hlong (huntold.mpr ⟨f, hf, long⟩)
      cases hissues : Postfix.issues c.vocabulary Limit.nesting ts with
      | cons issue issues =>
        rw [hissues] at hvalidate
        exact Or.inr (Or.inr
          ⟨hlong, .parsing, _, by simp only [validate, hts, hfirst, hvalidate]; rfl, by simp, Or.inr rfl⟩)
      | nil =>
        rw [hissues] at hvalidate
        obtain ⟨ps, hps, calls⟩ := Postfix.validate_eq_nil_iff.mp hvalidate
        have hps' : c.rearrange ts = .ok ps := hps
        exact Or.inl ⟨ts, ps, rfl, hps, calls, hlong, by simp only [validate, hts, hfirst, hvalidate, hps']⟩

/-- A text with postfix order whose calls fit is found to be one. -/
theorem validate_eq_valid {ts ps : List Token} (hts : c.tokens (.text text) = .ok ts)
    (hps : c.rearrange ts = .ok ps) (calls : AllAccepted c.functions ps) :
    c.validate (.text text) = ⟨true, [], .complete, ts.length - 1, ps.length⟩ := by
  obtain ⟨body, e, rfl, he, hbody⟩ := Token.exists_body_of_tokenize hts
  have hfirst : Token.problems c.operators (body ++ [e]) = [] := Postfix.problems_eq_nil he hbody hps
  have hvalidate : Postfix.validate c.vocabulary Limit.nesting (body ++ [e]) = .ok [] :=
    Postfix.validate_eq_nil_iff.mpr ⟨ps, hps, calls⟩
  simp only [validate, hts, hfirst, hvalidate, hps]

/-! ## Validity -/

/-- **A text is valid exactly if it can be put into postfix order and every function in it takes the
    arguments it is called with.**  The counts of a valid text are those of its calculation; a text that is
    not valid is told why, either by what its tokens are or by how they stand together, unless its tokens have a
    call of a function that takes too many arguments for a message: then the check fails. -/
theorem valid_iff_compiles (c : Calculator) (text : String) :
    ((c.validate (.text text)).valid = true ↔
      ∃ ps, c.postfixText (.text text) = .ok (Token.describe ps) ∧ c.compile (.text text) = .ok ps ∧
        ∀ t ∈ ps, t.kind = .function → ∃ f n, c.functions.find? t.value = some f ∧
          t.argumentCount = some n ∧ f.arityProblem? n = none) ∧
    ((c.validate (.text text)).valid = true →
      (c.validate (.text text)).tokenCount = (c.calculate (.text text)).1.tokenCount ∧
        (c.validate (.text text)).postfixLength = (c.calculate (.text text)).1.postfixLength) ∧
    ((c.validate (.text text)).valid = false →
      (c.validate (.text text)).errors ≠ [] ∧
        ((c.validate (.text text)).stage = .tokenization ∨ (c.validate (.text text)).stage = .parsing ∨
          (c.validate (.text text)).stage = .error)) ∧
    ((c.validate (.text text)).stage = .error ↔
      ∃ ts name count position f n, c.tokens (.text text) = .ok ts ∧ Token.problems c.operators ts = [] ∧
        .call name count position ∈ (Postfix.run c.operators Limit.nesting ts).1 ∧
        c.functions.find? name = some f ∧ f.arity = .exactly n ∧ Number.isTellable n = false) := by
  -- a text that is not found valid has no postfix order in which all calls fit
  have hinvalid : (c.validate (.text text)).valid = false → ¬ ∃ ps,
      c.postfixText (.text text) = .ok (Token.describe ps) ∧ c.compile (.text text) = .ok ps ∧
        AllAccepted c.functions ps := by
    rintro hvalid ⟨ps, -, hcompile, calls⟩
    obtain ⟨ts, hts, hps⟩ := compile_eq_ok.mp hcompile
    rw [validate_eq_valid hts hps calls] at hvalid
    cases hvalid
  rcases validate_cases c text with ⟨ts, ps, hts, hps, calls, huntold, hvalidate⟩ |
      ⟨huntold, message, hvalidate⟩ | ⟨huntold, stage, messages, hvalidate, hmessages, hstage⟩
  · have hcompile := compile_eq_ok.mpr ⟨ts, hts, hps⟩
    have hcounts := counts_calculate hts hps
    rw [hvalidate]
    refine ⟨iff_of_true rfl ⟨ps, ?_, hcompile, calls⟩, fun _ => ⟨hcounts.1.symm, hcounts.2.symm⟩,
      (fun h => by cases h), iff_of_false (fun h => by cases h) huntold⟩
    rw [postfixText, hcompile]
    rfl
  · rw [hvalidate] at hinvalid ⊢
    exact ⟨iff_of_false Bool.false_ne_true (hinvalid rfl), (fun h => by cases h),
      fun _ => ⟨List.cons_ne_nil _ _, Or.inr (Or.inr rfl)⟩, iff_of_true rfl huntold⟩
  · rw [hvalidate] at hinvalid ⊢
    refine ⟨iff_of_false Bool.false_ne_true (hinvalid rfl), (fun h => by cases h),
      fun _ => ⟨hmessages, hstage.imp_right Or.inl⟩, iff_of_false (fun h => ?_) huntold⟩
    have herror : stage = .error := h
    rcases hstage with rfl | rfl
    · cases herror
    · cases herror

/-- The check of a call fails if the function has been registered with too many arguments for a message. -/
theorem validate_fails_of_long_arity :
    let c := (new 10).perform (.registerFunction (.text "f") (.integer (10 ^ 5000 : Nat))
      (some fun _ => .ok (.integer 0)) "" "user")
    Reachable c ∧ (c.validate (.text "f()")).valid = false ∧ (c.validate (.text "f()")).stage = .error := by
  intro c
  exact ⟨.perform _ (.new 10), by decide +kernel, by decide +kernel⟩

end SciCalc.Calculator
