/-
  Failures that blame the row of tokens.

  1. **Blame** (`BlamesRow`) — the messages and codes that a row of postfix tokens earns which no expression
     is rearranged to: an operator or function without its operands, values that are left over, a token that
     has no place in postfix order, an operator that nobody knows, a call that does not say how many
     arguments it has.

  2. **Clear messages** (`Clear`) — a message that differs from the blaming ones in its first characters is
     none of them.  Nearly all messages begin with words of their own, so that the first piece of a message
     settles the matter.

  3. **Computations** (`Blameless`, `BlamesOnly`) — a computation is blameless if none of its failures blames
     the row, and it blames only with some failures if any other failure of it does not.
-/
import SciCalc.Complex
import SciCalc.Proofs.Attempt

namespace SciCalc

open Attempt

/-! ## Blame -/

/-- The codes that blame the row of tokens. -/
def blamingCodes : List String := ["STACK_UNDERFLOW", "INVALID_STACK", "UNEXPECTED_TOKEN"]

/-- The message or the code of a failure tells that a row of postfix tokens is malformed. -/
def BlamesRow (message code : String) : Prop :=
  code ∈ blamingCodes ∨ (∃ rest, message = "Unknown operator" ++ rest) ∨
    ∃ middle, message = "Argument count" ++ middle ++ "is unknown"

/-- The failure is reported under a message or a code that blames the row of tokens. -/
def Failure.BlamesRow (f : Failure) : Prop := SciCalc.BlamesRow f.outcome.1 f.outcome.2

/-! ## Clear messages -/

/-- Two rows of characters differ before either ends. -/
def apart : List Char → List Char → Bool
  | c :: cs, d :: ds => c != d || apart cs ds
  | _, _ => false

theorem apart_append :
    ∀ {cs ds : List Char} (es : List Char), apart cs ds = true → apart (cs ++ es) ds = true
  | c :: cs, d :: ds, es, h => by
    simp only [List.cons_append, apart, Bool.or_eq_true] at h ⊢
    exact h.imp id (apart_append es)
  | [], _, _, h => by cases h
  | _ :: _, [], _, h => by cases h

theorem not_apart_append : ∀ ds es : List Char, apart (ds ++ es) ds = false
  | [], es => by cases es <;> rfl
  | d :: ds, es => by
    rw [List.cons_append, apart, not_apart_append ds es, bne_self_eq_false]
    rfl

/-- How a message about an unknown operator begins. -/
def operatorOpening : List Char :=
  ['U', 'n', 'k', 'n', 'o', 'w', 'n', ' ', 'o', 'p', 'e', 'r', 'a', 't', 'o', 'r']

/-- How a message about an unknown number of arguments begins. -/
def countOpening : List Char := ['A', 'r', 'g', 'u', 'm', 'e', 'n', 't', ' ', 'c', 'o', 'u', 'n', 't']

/-- The text differs in its first characters from the messages that blame the row of tokens. -/
def Clear (m : String) : Prop :=
  apart m.toList operatorOpening = true ∧ apart m.toList countOpening = true

instance (m : String) : Decidable (Clear m) := inferInstanceAs (Decidable (_ ∧ _))

/-- A text stays clear whatever is written behind it. -/
theorem Clear.append {m : String} (h : Clear m) (s : String) : Clear (m ++ s) := by
  unfold Clear
  rw [String.toList_append]
  exact ⟨apart_append _ h.1, apart_append _ h.2⟩

/-- **A clear message with a code of another kind blames nothing.** -/
theorem not_blamesRow {message code : String} (h : Clear message) (other : code ∉ blamingCodes) :
    ¬ BlamesRow message code := by
  obtain ⟨noOperator, noCount⟩ := h
  rintro (hcode | ⟨rest, hm⟩ | ⟨middle, hm⟩)
  · exact other hcode
  · have opening : "Unknown operator".toList = operatorOpening := by decide +kernel
    rw [hm, String.toList_append, opening, not_apart_append] at noOperator
    cases noOperator
  · have opening : "Argument count".toList = countOpening := by decide +kernel
    rw [hm, String.append_assoc, String.toList_append, opening, not_apart_append] at noCount
    cases noCount

/-! ## Failures by their causes -/

/-- The name that the message of a numeric failure begins with, if it begins with one. -/
@[reducible, simp]
def NumericCause.subject? : NumericCause → Option String
  | integerArguments name => some name
  | realArguments name => some name
  | complexRounding name => some name
  | _ => none

/-- The messages of lexical failures are clear. -/
theorem LexicalCause.clear_message (cause : LexicalCause) : Clear cause.message := by
  cases cause
  all_goals
    dsimp only [message]
    -- what is written behind the first piece is peeled off, and the first piece is compared
    repeat' first | decide +kernel | refine Clear.append ?_ _

/-- The messages of structural failures are clear, those of a malformed row among them: these are told by
    their codes. -/
theorem StructuralCause.clear_message (cause : StructuralCause) : Clear cause.message := by
  cases cause
  all_goals
    dsimp only [message]
    repeat' first | decide +kernel | refine Clear.append ?_ _

theorem ZeroCause.clear_message (cause : ZeroCause) : Clear cause.message := by
  cases cause <;> decide +kernel

/-- The messages of numeric failures are clear if the name that they begin with is. -/
theorem NumericCause.clear_message {cause : NumericCause}
    (subject : ∀ name, cause.subject? = some name → Clear name) : Clear cause.message := by
  cases cause with
  | integerArguments name => exact (subject name rfl).append _
  | realArguments name => exact (subject name rfl).append _
  | complexRounding name => exact (subject name rfl).append _
  | _ =>
    dsimp only [message]
    repeat' first | decide +kernel | refine Clear.append ?_ _

/-- A lexical failure tells of the text. -/
@[simp] theorem lexical_not_blamesRow (cause : LexicalCause) : ¬ (Failure.lexical cause).BlamesRow := by
  refine not_blamesRow cause.clear_message ?_
  cases cause <;> dsimp only [Failure.outcome, Failure.report?, LexicalCause.code] <;> decide

/-- The cause is one of an expression, or of a call, and not one of a malformed row of tokens. -/
def StructuralCause.isOfExpression : StructuralCause → Bool
  | functionUnderflow .. => false
  | operatorUnderflow .. => false
  | leftover _ => false
  | unexpectedToken .. => false
  | _ => true

/-- A structural failure of an expression does not blame the row. -/
theorem structural_not_blamesRow {cause : StructuralCause} (h : cause.isOfExpression = true) :
    ¬ (Failure.structural cause).BlamesRow := by
  refine not_blamesRow cause.clear_message ?_
  cases cause with
  | functionUnderflow name position => cases h
  | operatorUnderflow symbol position => cases h
  | leftover count => cases h
  | unexpectedToken value position => cases h
  | _ =>
    -- only the codes are compared, whatever the text says
    dsimp only [Failure.outcome, Failure.report?, StructuralCause.code]
    decide

/-- The code that a family has for all its failures does not blame the row. -/
theorem Family.code_not_mem_blamingCodes (family : Family) : family.code ∉ blamingCodes := by
  cases family <;> decide

/-- A name of another kind than an operator may be unknown. -/
theorem unknown_not_blamesRow {kind : NameKind} (h : kind ≠ .operator) (name : String) :
    ¬ (Failure.unknown kind name).BlamesRow := by
  refine not_blamesRow ?_ (Family.code_not_mem_blamingCodes .unknownIdentifier)
  show Clear ("Unknown " ++ kind.word ++ ": " ++ name)
  refine Clear.append (Clear.append ?_ _) _
  cases kind with
  | operator => exact absurd rfl h
  | _ => decide +kernel

/-- A call may have a number of arguments that its function does not take. -/
theorem arity_not_blamesRow {cause : ArityCause} (h : ∀ name, cause ≠ .unknownCount name) :
    ¬ (Failure.arity cause).BlamesRow := by
  refine not_blamesRow ?_ (Family.code_not_mem_blamingCodes .arity)
  show Clear cause.message
  cases cause with
  | noArguments name =>
    exact Clear.append (Clear.append (show Clear "Function " by decide +kernel) _) _
  | wrongCount name expected actual =>
    have opening : Clear ("Function " ++ name) := Clear.append (by decide +kernel) _
    exact (((opening.append _).append _).append _).append _
  | unknownCount name => exact absurd rfl (h name)

@[simp] theorem divisionByZero_not_blamesRow (cause : ZeroCause) :
    ¬ (Failure.divisionByZero cause).BlamesRow :=
  not_blamesRow cause.clear_message (Family.code_not_mem_blamingCodes .divisionByZero)

@[simp] theorem numeric_not_blamesRow {cause : NumericCause}
    (subject : ∀ name, cause.subject? = some name → Clear name) : ¬ (Failure.numeric cause).BlamesRow := by
  refine not_blamesRow (NumericCause.clear_message subject) ?_
  cases cause <;> dsimp only [Failure.outcome, Failure.report?, NumericCause.code] <;> decide

/-- What calculations do not report by themselves is told as an internal error. -/
theorem internal_not_blamesRow (detail : String) :
    ¬ BlamesRow ("Internal error: " ++ detail) "INTERNAL_ERROR" :=
  not_blamesRow (Clear.append (by decide +kernel) _) (by decide)

@[simp] theorem fault_not_blamesRow (cause : Fault) : ¬ (Failure.fault cause).BlamesRow :=
  internal_not_blamesRow _

@[simp] theorem unexpected_not_blamesRow (condition detail : String) :
    ¬ (Failure.unexpected condition detail).BlamesRow :=
  internal_not_blamesRow _

/-- A failure that tells an integer blames nothing if it does not for any integer. -/
@[simp] theorem telling_not_blamesRow {failure : Int → Failure} (h : ∀ n, ¬ (failure n).BlamesRow) (n : Int) :
    ¬ (Failure.telling n failure).BlamesRow := by
  unfold Failure.telling
  split
  · exact h n
  · exact fault_not_blamesRow _

/-- The failure that tells a structural problem of an expression does not blame the row, and neither does one
    whose message cannot be told. -/
theorem StructuralCause.failure_not_blamesRow {cause : StructuralCause} (h : cause.isOfExpression = true) :
    ¬ cause.failure.BlamesRow := by
  rcases cause.failure_cases with hf | hf
  · rw [hf]
    exact structural_not_blamesRow h
  · rw [hf]
    exact fault_not_blamesRow _

/-- A fault blames nothing when it is turned into a failure. -/
theorem ofFault_not_blamesRow (cause : Fault) : ¬ (Failure.ofFault cause).BlamesRow := by
  cases cause with
  | zeroDivision => exact divisionByZero_not_blamesRow _
  | decimalZeroDivision => exact divisionByZero_not_blamesRow _
  | _ => exact numeric_not_blamesRow (by simp)

/-- What an evaluation makes of a failure blames the row only if the failure does. -/
theorem translated_not_blamesRow {f : Failure} (h : ¬ f.BlamesRow) : ¬ f.translated.BlamesRow := by
  cases f with
  | fault cause => exact ofFault_not_blamesRow cause
  | _ => exact h

/-- What blames the row is no fault, so that an evaluation passes it on as it is. -/
theorem translated_of_blamesRow {f : Failure} (h : f.BlamesRow) : f.translated = f := by
  cases f with
  | fault cause => exact absurd h (fault_not_blamesRow cause)
  | _ => rfl

/-! ## Computations -/

/-- No failure of the computation blames the row of tokens. -/
def Blameless {α : Type} (r : Except Failure α) : Prop := ∀ f, r = .error f → ¬ f.BlamesRow

section

variable {α β : Type}

@[simp] theorem blameless_ok (a : α) : Blameless (.ok a : Except Failure α) := by
  intro f h
  cases h

@[simp] theorem blameless_error (f : Failure) :
    Blameless (.error f : Except Failure α) ↔ ¬ f.BlamesRow := by
  constructor
  · intro h
    exact h f rfl
  · intro h g hg
    cases hg
    exact h

/-- Two steps are blameless if the first is, and the second is for what the first gives. -/
@[simp] theorem blameless_bind {r : Except Failure α} {g : α → Except Failure β} :
    Blameless (r >>= g) ↔ Blameless r ∧ ∀ a, r = .ok a → Blameless (g a) := by
  cases r with
  | error f => simp
  | ok a => simp

@[simp] theorem blameless_map {r : Except Failure α} {g : α → β} : Blameless (r.map g) ↔ Blameless r := by
  cases r with
  | error f => simp
  | ok a => simp

@[simp] theorem blameless_ite {c : Prop} [Decidable c] {r s : Except Failure α} :
    Blameless (if c then r else s) ↔ (c → Blameless r) ∧ (¬ c → Blameless s) := by
  by_cases h : c
  · simp [h]
  · simp [h]

/-- A fault blames nothing. -/
@[simp] theorem blameless_ofFault (r : Except Fault α) : Blameless (ofFault r) := by
  cases r with
  | error cause => exact (blameless_error _).mpr (fault_not_blamesRow cause)
  | ok a => exact blameless_ok a

@[simp] theorem blameless_mapM {f : α → Except Failure β} (h : ∀ a, Blameless (f a)) (as : List α) :
    Blameless (as.mapM f) := by
  induction as with
  | nil => exact blameless_ok []
  | cons a as ih =>
    rw [List.mapM_cons]
    simp [h, ih]

@[simp] theorem blameless_foldlM {f : β → α → Except Failure β} (h : ∀ b a, Blameless (f b a)) (as : List α) :
    ∀ b : β, Blameless (as.foldlM f b) := by
  induction as with
  | nil => exact blameless_ok
  | cons a as ih =>
    intro b
    rw [List.foldlM_cons]
    simp [h, ih]

/-- The failures of the computation that blame the row of tokens have the property. -/
def BlamesOnly (p : Failure → Prop) (r : Except Failure α) : Prop := ∀ f, r = .error f → f.BlamesRow → p f

variable {p : Failure → Prop}

/-- What is blameless blames only with failures of any kind. -/
theorem Blameless.blamesOnly {r : Except Failure α} (h : Blameless r) : BlamesOnly p r :=
  fun f hf blames => absurd blames (h f hf)

@[simp] theorem blamesOnly_ok (a : α) : BlamesOnly p (.ok a : Except Failure α) := by
  intro f h
  cases h

@[simp] theorem blamesOnly_error (f : Failure) :
    BlamesOnly p (.error f : Except Failure α) ↔ (f.BlamesRow → p f) := by
  constructor
  · intro h
    exact h f rfl
  · intro h g hg
    cases hg
    exact h

/-- Two steps blame only with some failures if both do. -/
@[simp] theorem blamesOnly_bind {r : Except Failure α} {g : α → Except Failure β} :
    BlamesOnly p (r >>= g) ↔ BlamesOnly p r ∧ ∀ a, r = .ok a → BlamesOnly p (g a) := by
  cases r with
  | error f => simp
  | ok a => simp

end

end SciCalc
