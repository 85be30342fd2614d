/-
  Integer powers in the exact regimes.

  1. **Texts** (`tokens_power`) — the numerals of two integers with a circumflex between them are three tokens, which
     are evaluated in postfix order (`Environment.evaluate_power`).

  2. **Integers** (`powInteger_eq`) — where integers of any size are used, a power of no more digits than a calculator
     can use is never refused for its exponent.

  3. **Decimals** (`power_decimals`) — where decimals are used, both numerals are read exactly, stay exact when they
     are brought to one kind, and have the integer power as their power (`Context.power_ofInt`).

  4. **Theorem** (`calculate_power`) — so both regimes give the integer power, but for zero to the power zero, which
     only the decimals refuse.
-/
import SciCalc.Proofs.Calculator.Depth
import SciCalc.Proofs.Calculator.Display
import SciCalc.Proofs.Calculator.Spelling
import SciCalc.Proofs.Decimal.Power
import SciCalc.Proofs.Operator.Exact

namespace SciCalc

open Attempt Number

/-! ## Texts -/

/-- The text of a power of integers. -/
def powerText (a : Int) (n : Nat) : String := intText a ++ " ^ " ++ natText n

theorem toList_powerText (a : Int) (n : Nat) :
    (powerText a n).toList = intChars a ++ ' ' :: ("^".toList ++ ' ' :: intChars n) := by
  have hdigits : intChars n = digits n := by
    rw [intChars, if_neg (by omega), Int.natAbs_natCast]
  have hnumeral : (natText n).toList = digits n := String.toList_ofList
  rw [powerText, String.toList_append, String.toList_append, hnumeral, intText, String.toList_ofList, hdigits,
    List.append_assoc]
  rfl

/-- The tokens of a power of integers. -/
def powerTokens (a : Int) (n : Nat) (i j k : Int) : List Token :=
  [⟨.number, intText a, i, none⟩, ⟨.operator, "^", j, none⟩, ⟨.number, intText n, k, none⟩]

namespace Token

/-- **The numerals of two integers and a circumflex are three tokens.** -/
theorem exists_lexes_power {v : Vocabulary} (table : v.operators = .calculator) (complex : Bool) (a : Int) (n : Nat) :
    ∃ i j k l : Int, Lexes v complex true 0 (powerText a n).toList
      (powerTokens a n i j k ++ [⟨.finish, "", l, none⟩]) := by
  have separable : v.operators.Separable := Operators.separable_of_table (Or.inr table)
  have hblank : Text.isBlank ' ' = true := by decide
  have hbase : Reads v complex true .number (intChars a) (' ' :: ("^".toList ++ ' ' :: intChars n)) :=
    (reads_of_written (Decimal.written_intChars a)).closes separable (Or.inr hblank)
  have hsymbol : Reads v complex false .operator "^".toList (' ' :: intChars n) := by
    have hlongest : v.operators.longestSymbol ("^".toList ++ ' ' :: intChars n) = some "^" := by
      rw [table]
      rfl
    exact .operator rfl hlongest (by decide) (isFolded_of_ne (by decide) _ _) (by decide) (by decide)
  have hexponent : Reads v complex true .number (intChars n) [] := reads_of_written (Decimal.written_intChars n)
  have hlast : Lexes v complex true (0 + (intChars a).length + 1 + "^".toList.length + 1) (intChars n ++ []) _ :=
    .token hexponent .finish
  rw [List.append_nil] at hlast
  have hlexes := Lexes.token hbase (.blank hblank (.token hsymbol (.blank hblank hlast)))
  rw [toList_powerText]
  exact ⟨_, _, _, _, hlexes⟩

end Token

/-- **A power of two numerals** is what its operator makes of what they are read as. -/
theorem Environment.evaluate_power {env : Environment} (table : env.vocabulary.operators = .calculator) {a : Int}
    {n : Nat} {i j k : Int} {v w : Value} (hbase : env.modes.literal (intText a) = .ok v)
    (hexponent : env.modes.literal (intText n) = .ok w) {r : Except Failure Value}
    (hpower : (do
      let o ← v.promote w
      env.modes.normalize (← o.values.1.power env.modes o.values.2)) = r) :
    env.evaluate [⟨.number, intText a, i, none⟩, ⟨.number, intText n, k, none⟩, ⟨.operator, "^", j, none⟩] =
      (r.mapError Failure.translated).map (Outcome.mk · 1) := by
  subst hpower
  obtain ⟨description, hfind⟩ := Operators.exists_find?_power (Or.inl rfl : "^" = "^" ∨ _)
  rw [← table] at hfind
  have takes : Tree.Takes env.vocabulary ⟨.operator, "^", j, none⟩ [v, w].length := Or.inl ⟨rfl, _, hfind, rfl⟩
  have hstep : Evaluation.step env.call env ⟨[w, v], 0⟩ ⟨.operator, "^", j, none⟩ = _ :=
    Evaluation.step_node takes [] 0
  rw [Evaluation.nodeValue_operator table rfl (Or.inl rfl)] at hstep
  have hrun : Evaluation.run env.call env Evaluation.start
      [⟨.number, intText a, i, none⟩, ⟨.number, intText n, k, none⟩, ⟨.operator, "^", j, none⟩] =
      Evaluation.step env.call env ⟨[w, v], 0⟩ ⟨.operator, "^", j, none⟩ := by
    have hfirst : Evaluation.step env.call env Evaluation.start ⟨.number, intText a, i, none⟩ = .ok ⟨[v], 0⟩ := by
      rw [Evaluation.step, hbase]
      rfl
    have hsecond : Evaluation.step env.call env ⟨[v], 0⟩ ⟨.number, intText n, k, none⟩ = .ok ⟨[w, v], 0⟩ := by
      rw [Evaluation.step, hexponent]
      rfl
    rw [Evaluation.run_cons, hfirst, ok_bind, Evaluation.run_cons, hsecond, ok_bind, Evaluation.run_singleton]
  rw [Environment.evaluate, Evaluation.evaluateWith, hrun, hstep]
  cases v.promote w with
  | error f => rfl
  | ok o =>
    simp only [ok_bind]
    cases o.values.1.power env.modes o.values.2 >>= env.modes.normalize with
    | error f => rfl
    | ok u => rfl

/-! ## Integers -/

/-- **A power of integers of no more digits than a calculator can use is not refused.** -/
theorem powInteger_eq {a : Int} {n : Nat} (hdigits : digitCount (a ^ n).natAbs ≤ Limit.greatestPrecision) :
    Operands.powInteger a n = .ok (.integer (a ^ n)) := by
  have hlimit : ¬ (decide ((Limit.integerExponent : Int) < n) && decide (1 < a.natAbs)) = true := by
    rw [Bool.and_eq_true, decide_eq_true_eq, decide_eq_true_eq, Limit.integerExponent]
    rintro ⟨hlong, hbase⟩
    rw [Int.natAbs_pow] at hdigits
    have hshort := Context.lt_of_digitCount_pow hbase (by decide) hdigits
    rw [Limit.greatestPrecision] at hshort
    omega
  rw [Operands.powInteger, if_neg (by omega), if_neg hlimit, Int.toNat_natCast, powExact_eq]

/-! ## Decimals -/

section

variable {m : Modes} {ctx : Context} {a : Int} {n : Nat}

/-- In the decimal regime the numeral of an integer of no more digits than the precision is read as the integer. -/
theorem Modes.literal_intText_decimal (hm : m.regime = .decimal) (hmost : m.precision ≤ Limit.greatestPrecision)
    (hdigits : digitCount a.natAbs ≤ m.precision) :
    m.literal (intText a) = .ok (.decimal (.ofInt a) m.context) := by
  rw [Limit.greatestPrecision] at hmost
  have hreadable : Decimal.readable a.natAbs 0 = true := by
    refine Bool.and_eq_true_iff.mpr ⟨by decide, decide_eq_true ?_⟩
    omega
  have hread : Decimal.read (intText a) = .ok (.ofInt a) := (Decimal.written_intChars a).read hreadable
  have hplus : m.context.plus (.ofInt a) = .ok (.ofInt a) := by
    refine Context.plus_ofInt ?_ hdigits
    rw [Context.maxExponent, Modes.context]
    dsimp only
    omega
  simp only [Modes.literal, hm, hread, ofFault, Except.mapError, ok_bind, hplus, pure_eq_ok]

/-- An integer stays what it is when it is brought to a decimal of its context. -/
theorem Value.toDecimal_ofInt (hlimit : (ctx.precision : Int) ≤ Context.maxExponent)
    (hdigits : digitCount a.natAbs ≤ ctx.precision) :
    (Value.decimal (.ofInt a) ctx).toDecimal ctx = .ok (.ofInt a) := by
  have hprecision : ctx.precision ≠ 0 := by
    intro hzero
    have hpos : 0 < digitCount a.natAbs := by
      by_cases ha : a.natAbs = 0
      · rw [ha, digitCount_zero]
        exact Nat.one_pos
      · exact digitCount_pos ha
    omega
  simp only [Value.toDecimal, Value.exactDecimal, ok_bind, Context.entered, if_neg hprecision,
    Context.plus_ofInt hlimit hdigits]
  rfl

/-- A context with digits has results. -/
theorem Operands.decimalResult_eq (h : ctx.precision ≠ 0) (r : Except Fault Decimal) :
    decimalResult ctx r = ofFault (r.map (Value.decimal · ctx)) := by
  rw [decimalResult, Context.entered, if_neg h]

/-- **Integers that fit are brought to one kind as they are**, and their power is that of decimals. -/
theorem power_decimals (m : Modes) (ctx : Context) (hlimit : (ctx.precision : Int) ≤ Context.maxExponent)
    (hbase : digitCount a.natAbs ≤ ctx.precision) (hexponent : digitCount n ≤ ctx.precision) :
    (do
      let o ← (Value.decimal (.ofInt a) ctx).promote (.decimal (.ofInt n) ctx)
      m.normalize (← o.values.1.power m o.values.2)) =
      Operands.decimalResult ctx (ctx.power (.ofInt a) (.ofInt n)) >>= m.normalize := by
  have hcount : digitCount (n : Int).natAbs ≤ ctx.precision := by rwa [Int.natAbs_natCast]
  have hpromote : (Value.decimal (.ofInt a) ctx).promote (.decimal (.ofInt n) ctx) =
      .ok (.decimal (.ofInt a) (.ofInt n) ctx ctx) :=
    Value.promote_of_toDecimal (Value.toDecimal_ofInt hlimit hbase) (Value.toDecimal_ofInt hlimit hcount)
  obtain ⟨b, hb⟩ : ∃ b, (Value.decimal (.ofInt a) ctx).isNegative = .ok b := ⟨_, rfl⟩
  have hwhole : (Value.decimal (.ofInt n) ctx).isIntegral = true := rfl
  rw [hpromote, ok_bind]
  simp only [Operands.values, Value.power, Value.isComplex, Bool.or_self, Bool.false_eq_true, if_false, hb, ok_bind,
    hwhole, Bool.not_true, Bool.and_false, hpromote, Operands.power]

/-- A result that is an integer is normalized as it is. -/
theorem normalize_ofInt (hm : m.regime = .decimal) (hlimit : (m.precision : Int) ≤ Context.maxExponent)
    (hdigits : digitCount a.natAbs ≤ m.precision) :
    m.normalize (.decimal (.ofInt a) m.context) = .ok (.decimal (.ofInt a) m.context) :=
  (Value.normalize_decimal_eq_ok hm).mpr ⟨_, Value.toDecimal_ofInt hlimit hdigits, rfl⟩

end

namespace Calculator

variable {c : Calculator} {a : Int} {n : Nat}

/-- The text of a power can be an expression, and its postfix order is that of its tokens. -/
theorem tokens_power (reached : Reachable c) (hbase : digitCount a.natAbs ≤ Limit.greatestPrecision)
    (hexponent : digitCount n ≤ Limit.greatestPrecision) :
    ∃ ts, ∃ i j k : Int, c.tokens (.text (powerText a n)) = .ok ts ∧
      c.rearrange ts =
        .ok [⟨.number, intText a, i, none⟩, ⟨.number, intText n, k, none⟩, ⟨.operator, "^", j, none⟩] := by
  have table : c.vocabulary.operators = .calculator := reached.coherent.operators
  have hlength : (powerText a n).length ≤ Limit.inputLength := by
    have hsigned : (intChars a).length ≤ digitCount a.natAbs + 1 := by
      rw [intChars, ← length_digits]
      split
      · exact Nat.le_refl _
      · exact Nat.le_succ _
    have hplain : (intChars n).length ≤ digitCount n + 1 := by
      rw [intChars, if_neg (by omega), Int.natAbs_natCast, length_digits]
      exact Nat.le_succ _
    rw [Limit.greatestPrecision] at hbase hexponent
    rw [← String.length_toList, toList_powerText, Limit.inputLength]
    simp only [List.length_append, List.length_cons]
    have hsymbol : "^".toList.length = 1 := rfl
    omega
  obtain ⟨i, j, k, l, hlexes⟩ := Token.exists_lexes_power table c.modes.complexEnabled a n
  refine ⟨_, i, j, k, (Token.tokenize_eq_ok_iff (Operators.separable_of_table (Or.inr table))).mpr
    ⟨Int.ofNat_le.mpr hlength, hlexes⟩, ?_⟩
  show Postfix.ofTokens c.operators Limit.nesting _ = _
  rw [show c.operators = .calculator from table]
  rfl

/-! ## Theorem -/

/-- In the exact regime a power of integers is the integer power. -/
theorem calculate_power_exact (reached : Reachable c) (hm : c.modes.regime = .exact)
    (hbase : digitCount a.natAbs ≤ Limit.greatestPrecision) (hexponent : digitCount n ≤ Limit.greatestPrecision)
    (hpower : digitCount (a ^ n).natAbs ≤ Limit.greatestPrecision) :
    (c.calculate (.text (powerText a n))).1.succeeded = true ∧
      (c.calculate (.text (powerText a n))).1.value = some (.integer (a ^ n)) := by
  obtain ⟨ts, i, j, k, htokens, hordered⟩ := tokens_power reached hbase hexponent
  have hread : ∀ {b : Int}, digitCount b.natAbs ≤ Limit.greatestPrecision →
      c.begin.environment.modes.literal (intText b) = .ok (.integer b) := by
    intro b hb
    refine Modes.literal_intText hm ?_
    rw [intText, String.length_ofList, intChars, Limit.inputLength]
    rw [Limit.greatestPrecision, ← length_digits] at hb
    split
    · rw [List.length_cons]
      omega
    · omega
  have hvalue : (do
      let o ← (Value.integer a).promote (.integer n)
      c.begin.environment.modes.normalize (← o.values.1.power c.begin.environment.modes o.values.2)) =
      .ok (.integer (a ^ n)) := by
    show Value.power c.modes (.integer a) (.integer n) >>= c.modes.normalize = _
    rw [power_integers, powInteger_eq hpower, ok_bind, Modes.normalize_integer_of_exact hm]
  have hevaluate := Environment.evaluate_power (i := i) (j := j) (k := k)
    (show c.begin.environment.vocabulary.operators = .calculator from reached.coherent.operators)
    (hread hbase) (hread (by rwa [Int.natAbs_natCast])) hvalue
  exact calculate_of_stages htokens hordered hevaluate (Value.format_integer _ _)

/-- In the decimal regime a power of integers is the integer power, but zero to the power zero fails. -/
theorem calculate_power_decimal (reached : Reachable c) (hm : c.modes.regime = .decimal)
    (hbase : digitCount a.natAbs ≤ c.modes.precision) (hexponent : digitCount n ≤ c.modes.precision)
    (hpower : digitCount (a ^ n).natAbs ≤ c.modes.precision) :
    (¬ (a = 0 ∧ n = 0) → (c.calculate (.text (powerText a n))).1.succeeded = true ∧
      (c.calculate (.text (powerText a n))).1.value = some (.decimal (.ofInt (a ^ n)) c.modes.context)) ∧
    (a = 0 ∧ n = 0 → (c.calculate (.text (powerText a n))).1.succeeded = false) := by
  obtain ⟨hleast, hmost⟩ := reached.limited
  have hlimit : (c.modes.precision : Int) ≤ Context.maxExponent := by
    rw [Limit.greatestPrecision] at hmost
    rw [Context.maxExponent]
    omega
  obtain ⟨ts, i, j, k, htokens, hordered⟩ := tokens_power reached (hbase.trans hmost) (hexponent.trans hmost)
  have hread : ∀ {b : Int}, digitCount b.natAbs ≤ c.modes.precision →
      c.begin.environment.modes.literal (intText b) = .ok (.decimal (.ofInt b) c.modes.context) :=
    fun hb => Modes.literal_intText_decimal hm hmost hb
  have hevaluate := Environment.evaluate_power (i := i) (j := j) (k := k)
    (show c.begin.environment.vocabulary.operators = .calculator from reached.coherent.operators)
    (hread hbase) (hread (by rwa [Int.natAbs_natCast]))
    (power_decimals c.modes c.modes.context hlimit hbase hexponent)
  have hentered : c.modes.context.precision ≠ 0 := Nat.ne_of_gt hleast
  constructor
  · intro hdefined
    have hresult : Operands.decimalResult c.modes.context (c.modes.context.power (.ofInt a) (.ofInt n)) >>=
        c.modes.normalize = .ok (.decimal (.ofInt (a ^ n)) c.modes.context) := by
      rw [c.modes.context.power_ofInt hmost hdefined hpower, Operands.decimalResult_eq hentered]
      exact normalize_ofInt hm hlimit hpower
    rw [hresult] at hevaluate
    have hfits : c.modes.context.Contains (.ofInt (a ^ n)) := Context.contains_integer hlimit hpower _
    obtain ⟨text, hshown, -⟩ := exists_formatDecimal hleast hmost hfits
    exact calculate_of_stages htokens hordered hevaluate hshown
  · rintro ⟨rfl, rfl⟩
    have hresult : Operands.decimalResult c.modes.context (c.modes.context.power (.ofInt 0) (.ofInt (0 : Nat))) >>=
        c.modes.normalize = .error (.fault (.undefined .operation)) := by
      rw [Operands.decimalResult_eq hentered]
      rfl
    rw [hresult] at hevaluate
    exact (calculate_of_evaluate_error (compile_eq_ok.mpr ⟨ts, htokens, hordered⟩) hevaluate).1

/-- **Integer powers agree across the exact regimes.**  Where base, exponent and power have no more digits than the
    precision, the exact regime gives the integer power, and the decimal regime a decimal that is the same number;
    only zero to the power zero, which is one there, fails here. -/
theorem calculate_power (reached : Reachable c) (hbase : digitCount a.natAbs ≤ c.modes.precision)
    (hexponent : digitCount n ≤ c.modes.precision) (hpower : digitCount (a ^ n).natAbs ≤ c.modes.precision) :
    let whole := ((c.inRegime .exact).calculate (.text (powerText a n))).1
    let decimal := ((c.inRegime .decimal).calculate (.text (powerText a n))).1
    (whole.succeeded = true ∧ whole.value = some (.integer (a ^ n))) ∧
      (¬ (a = 0 ∧ n = 0) → decimal.succeeded = true ∧
        ∃ x, decimal.value = some (.decimal x c.modes.context) ∧ x.number? = some ((a ^ n : Int) : Rat)) ∧
      (a = 0 ∧ n = 0 → decimal.succeeded = false) := by
  obtain ⟨-, hmost⟩ := reached.limited
  have hexact : (c.inRegime .exact).modes.regime = .exact := by rw [inRegime_eq]
  have hregime : (c.inRegime .decimal).modes.regime = .decimal := by rw [inRegime_eq]
  have hprecision : (c.inRegime .decimal).modes.precision = c.modes.precision := by rw [inRegime_eq]
  have hcontext : (c.inRegime .decimal).modes.context = c.modes.context := by
    rw [inRegime_eq]
    rfl
  have reached' : ∀ regime, Reachable (c.inRegime regime) := fun _ => reached.perform _
  have hwhole := calculate_power_exact (reached' .exact) hexact (hbase.trans hmost) (hexponent.trans hmost)
    (hpower.trans hmost)
  have hdecimal := calculate_power_decimal (reached' .decimal) hregime
    (hbase.trans_eq hprecision.symm) (hexponent.trans_eq hprecision.symm) (hpower.trans_eq hprecision.symm)
  refine ⟨hwhole, fun hdefined => ?_, hdecimal.2⟩
  obtain ⟨hsucceeded, hvalue⟩ := hdecimal.1 hdefined
  rw [hcontext] at hvalue
  exact ⟨hsucceeded, _, hvalue, Decimal.number?_ofInt _⟩

/-- With three digits the third power of minus seven is just short enough. -/
theorem calculate_power_minus_seven :
    let c := (new 10).perform (.setMode .precision (.integer 3))
    digitCount 7 ≤ c.modes.precision ∧ digitCount 3 ≤ c.modes.precision ∧ digitCount 343 ≤ c.modes.precision ∧
      powerText (-7) 3 = "-7 ^ 3" ∧
      ((c.inRegime .exact).calculate (.text "-7 ^ 3")).1.value = some (.integer (-343)) ∧
      ∃ x, ((c.inRegime .decimal).calculate (.text "-7 ^ 3")).1.value = some (.decimal x ⟨3, .halfUp⟩) ∧
        x.number? = some (-343) := by
  intro c
  have reached : Reachable c := .perform _ (.new 10)
  have htext : powerText (-7) 3 = "-7 ^ 3" := by decide
  obtain ⟨hwhole, hdecimal, -⟩ :=
    calculate_power (a := -7) (n := 3) reached (by decide) (by decide) (by decide)
  obtain ⟨-, x, hvalue, hnumber⟩ := hdecimal (by decide)
  have hcontext : c.modes.context = ⟨3, .halfUp⟩ := by decide
  rw [htext] at hwhole hvalue
  rw [hcontext] at hvalue
  refine ⟨by decide, by decide, by decide, htext, hwhole.2, x, hvalue, hnumber.trans ?_⟩
  norm_num

/-- Zero to the power zero is one with doubles and with integers, and fails with decimals. -/
theorem zero_to_zero_fails :
    let c := new 10
    ((c.inRegime .double).calculate (.text "0 ^ 0")).1.value = some (.real Double.one) ∧
      ((c.inRegime .exact).calculate (.text "0 ^ 0")).1.value = some (.integer 1) ∧
      ((c.inRegime .decimal).calculate (.text "0 ^ 0")).1.succeeded = false := by
  decide +kernel

end Calculator

end SciCalc
