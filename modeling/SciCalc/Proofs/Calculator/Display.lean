/-
  What is shown can be calculated again.

  1. **Numbers alone** (`calculate_written`) — the written form of a decimal is one token, with its sign, and its
     own postfix order; a calculation gives what the numeral is read as.

  2. **Results** (`shown_of_calculate`, `native_of_calculate`) — what is shown of a result is shown of its value, and
     the value belongs to the active regime.

  3. **Theorem** (`calculate_formatted`) — in the exact regimes a calculation of what is shown of a result gives the
     number of the result.
-/
import SciCalc.Proofs.Calculator.Finite
import SciCalc.Proofs.Calculator.Regime
import SciCalc.Proofs.Evaluation.Regime
import SciCalc.Proofs.Token.Reading
import SciCalc.Proofs.Value.Display

namespace SciCalc

open Attempt

/-! ## Numbers alone -/

/-- A written form of a decimal is read as a number where an operand is due. -/
theorem Token.reads_of_written {v : Vocabulary} {complex : Bool} {cs : List Char} {x : Decimal}
    (h : Decimal.Written cs x) : Reads v complex true .number cs [] := by
  obtain ⟨hnumeral⟩ := h
  rename_i ds s c e
  have hwhole : numberPart (ds ++ []) = ds := by
    obtain ⟨hmantissa, hpower⟩ := hnumeral
    refine (numberPart_append_iff hmantissa hpower []).mpr ?_
    cases hpower with
    | none => exact ⟨rfl, rfl⟩
    | marked _ _ => exact rfl
  cases s with
  | false => exact .number hnumeral hwhole
  | true => exact .negative rfl hnumeral hwhole

/-- **A written form of a decimal is one token.** -/
theorem Token.lexes_of_written {v : Vocabulary} {complex : Bool} {cs : List Char} {x : Decimal}
    (h : Decimal.Written cs x) :
    Lexes v complex true 0 cs [⟨.number, String.ofList cs, 0, none⟩, ⟨.finish, "", (cs.length : Nat), none⟩] := by
  have hend : Lexes v complex (opensOperand .number) (0 + cs.length) []
      [⟨.finish, "", (0 + cs.length : Nat), none⟩] := .finish
  have hlexes := Lexes.token (reads_of_written h) hend
  rwa [List.append_nil, Nat.zero_add] at hlexes

/-- A number, a constant or a variable alone is its own postfix order. -/
theorem Postfix.ofTokens_operand (ops : Operators) {kind : TokenKind}
    (h : kind = .number ∨ kind = .constant ∨ kind = .variable) (text : String) (position place : Int) :
    ofTokens ops Limit.nesting [⟨kind, text, position, none⟩, ⟨.finish, "", place, none⟩] =
      .ok [⟨kind, text, position, none⟩] := by
  rcases h with rfl | rfl | rfl <;> rfl

/-- A number alone has the value that it is read as. -/
theorem Environment.evaluate_number {env : Environment} {text : String} {v : Value} (position : Int)
    (h : env.modes.literal text = .ok v) : env.evaluate [⟨.number, text, position, none⟩] = .ok ⟨v, 0⟩ := by
  have hrun : Evaluation.run env.call env Evaluation.start [⟨.number, text, position, none⟩] =
      .ok (Evaluation.push Evaluation.start v) := by
    rw [Evaluation.run, Evaluation.step, h]
    rfl
  rw [Environment.evaluate, Evaluation.evaluateWith, hrun]
  rfl

namespace Calculator

variable {c : Calculator} {expression : Plain} {v : Value} {text : String}

/-- A calculation succeeds with what the stages of the calculation lead to. -/
theorem calculate_of_stages {ts ps : List Token} {outcome : Outcome} (htokens : c.tokens expression = .ok ts)
    (hordered : c.rearrange ts = .ok ps) (hvalue : c.begin.environment.evaluate ps = .ok outcome)
    (hshown : outcome.value.shown = .ok text) :
    (c.calculate expression).1.succeeded = true ∧ (c.calculate expression).1.value = some outcome.value := by
  have heval : c.begin.evaluate expression = (ts.length - 1, ps.length, .ok (outcome, text)) := by
    have htokens' : c.begin.tokens expression = .ok ts := htokens
    have hordered' : c.begin.rearrange ts = .ok ps := hordered
    simp only [evaluate, htokens', hordered', hvalue, hshown, ok_bind, pure_eq_ok]
  rw [calculate, heval]
  exact ⟨rfl, rfl⟩

/-- **A number alone is calculated as what it is read as.** -/
theorem calculate_written (reached : Reachable c) {x : Decimal} (hwritten : Decimal.Written text.toList x)
    (hlength : text.length ≤ Limit.inputLength) (hread : c.modes.literal text = .ok v)
    {shown : String} (hshown : v.shown = .ok shown) :
    (c.calculate (.text text)).1.succeeded = true ∧ (c.calculate (.text text)).1.value = some v := by
  have separable : c.vocabulary.operators.Separable :=
    Operators.separable_of_table (Or.inr reached.coherent.operators)
  have hlexes : Token.Lexes c.vocabulary c.modes.complexEnabled true 0 text.toList _ :=
    Token.lexes_of_written hwritten
  rw [String.ofList_toList] at hlexes
  have htokens : c.tokens (.text text) = .ok _ :=
    (Token.tokenize_eq_ok_iff separable).mpr ⟨Int.ofNat_le.mpr hlength, hlexes⟩
  exact calculate_of_stages htokens (Postfix.ofTokens_operand c.operators (Or.inl rfl) text 0 _)
    (Environment.evaluate_number 0 hread) hshown

/-! ## Results -/

/-- What is shown of a result is shown of its value. -/
theorem shown_of_calculate (hvalue : (c.calculate expression).1.value = some v)
    (hformatted : (c.calculate expression).1.formatted = some text) : v.shown = .ok text := by
  obtain ⟨_, _, _, shown, -, -, -, -, hshown, hformatted'⟩ := exists_stages_of_calculate hvalue
  obtain rfl : shown = text := Option.some.inj (hformatted'.symm.trans hformatted)
  exact hshown

/-- **The value of a calculation belongs to the active regime.** -/
theorem native_of_calculate (reached : Reachable c) (h : (c.calculate expression).1.value = some v) :
    v.Native c.modes := by
  obtain ⟨ts, ps, outcome, -, -, heval, rfl⟩ := exists_outcome_of_calculate h
  have hleast : Limit.leastPrecision ≤ c.begin.environment.modes.precision := reached.limited.1
  exact Evaluation.evaluateWith_native hleast ps outcome heval

/-! ## Theorem -/

/-- **What is shown of an exact result is calculated as the number of the result**, by every calculator in the
    same modes: an integer of the exact regime if it is not too long to be an expression, and a finite decimal of
    the decimal regime always. -/
theorem calculate_formatted (reached : Reachable c) (hvalue : (c.calculate expression).1.value = some v)
    (hformatted : (c.calculate expression).1.formatted = some text) {c' : Calculator} (reached' : Reachable c')
    (same : c'.modes = c.modes) :
    (∀ n, c.modes.regime = .exact → v = .integer n → text.length ≤ Limit.inputLength →
      (c'.calculate (.text text)).1.succeeded = true ∧
        (c'.calculate (.text text)).1.value = some (.integer n)) ∧
    (∀ x ctx, c.modes.regime = .decimal → v = .decimal x ctx → x.isFinite = true →
      (c'.calculate (.text text)).1.succeeded = true ∧
        ∃ y r, (c'.calculate (.text text)).1.value = some (.decimal y c.modes.context) ∧
          x.number? = some r ∧ y.number? = some r) := by
  have hshown := shown_of_calculate hvalue hformatted
  have hnative := native_of_calculate reached hvalue
  obtain ⟨hleast, hmost⟩ := reached.limited
  constructor
  · rintro n hregime rfl hlength
    obtain rfl : Number.intText n = text := Except.ok.inj ((Value.format_integer _ n).symm.trans hshown)
    have hwritten := Decimal.written_intChars n
    rw [← String.toList_ofList (l := Number.intChars n)] at hwritten
    refine calculate_written reached' hwritten hlength ?_ hshown
    rw [same]
    exact Modes.literal_intText hregime hlength
  · rintro x ctx hregime rfl hfinite
    obtain ⟨s, k, e, rfl⟩ := Decimal.exists_of_isFinite hfinite
    obtain ⟨-, rfl, hfits⟩ := hnative
    obtain ⟨text', hformat, htells⟩ := exists_formatDecimal hleast hmost hfits
    obtain rfl : text' = text := Except.ok.inj (hformat.symm.trans hshown)
    obtain ⟨t, d, f, hread, hnumber, hfits'⟩ := htells.literal hregime hmost
    obtain ⟨_, _, _, hwritten, -, -, hlength⟩ := htells
    -- what is read fits the context as well, so that it is shown
    obtain ⟨shown, hformat', -⟩ := exists_formatDecimal hleast hmost hfits'
    have hread' : c'.modes.literal text' = .ok (.decimal (.finite t d f) c.modes.context) := by
      rw [same]
      exact hread
    obtain ⟨hsucceeded, hresult⟩ := calculate_written reached' hwritten hlength hread' hformat'
    exact ⟨hsucceeded, _, _, hresult, rfl, hnumber⟩

/-- An integer of 22 digits and a quotient of seven digits are calculated again from what is shown of them. -/
theorem calculate_formatted_integer_quotient :
    let c := (new 10).inRegime .exact
    let d := ((new 10).perform (.setMode .precision (.integer 7))).inRegime .decimal
    (c.calculate (.text "7-2^70")).1.formatted = some "-1180591620717411303417" ∧
      (c.calculate (.text "-1180591620717411303417")).1.value = some (.integer (-1180591620717411303417)) ∧
      (d.calculate (.text "-2/3e9")).1.formatted = some "-6.666667E-10" ∧
      ∃ y r, (d.calculate (.text "-6.666667E-10")).1.value = some (.decimal y ⟨7, .halfUp⟩) ∧
        (Decimal.finite true 6666667 (-16)).number? = some r ∧ y.number? = some r := by
  intro c d
  have reached : Reachable c := .perform _ (.new 10)
  have reached' : Reachable d := .perform _ (.perform _ (.new 10))
  have hinteger : (c.calculate (.text "7-2^70")).1.value = some (.integer (-1180591620717411303417)) := by
    decide +kernel
  have hshown : (c.calculate (.text "7-2^70")).1.formatted = some "-1180591620717411303417" := by decide +kernel
  have hdecimal : (d.calculate (.text "-2/3e9")).1.value = some (.decimal (.finite true 6666667 (-16)) ⟨7, .halfUp⟩) := by
    decide +kernel
  have hshown' : (d.calculate (.text "-2/3e9")).1.formatted = some "-6.666667E-10" := by decide +kernel
  have hexact : c.modes.regime = .exact := by decide +kernel
  have hregime : d.modes.regime = .decimal := by decide +kernel
  have again := (calculate_formatted reached hinteger hshown reached rfl).1 _ hexact rfl (by decide)
  have again' := (calculate_formatted reached' hdecimal hshown' reached' rfl).2 _ _ hregime rfl rfl
  exact ⟨hshown, again.2, hshown', again'.2⟩

end Calculator

end SciCalc
