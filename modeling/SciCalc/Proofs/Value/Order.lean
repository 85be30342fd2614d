/-
  The order of values.

  1. **Places** (`Value.place?`) — a real value has a place among the rational numbers and their two ends, unless it
     is undefined.

  2. **Integers among doubles** (`Double.cmp_ofInt?`) — an integer beside a double that is not whole is compared as
     if it were not rounded: only integers of more than 53 bits are rounded, and no double beyond these has a
     fraction.

  3. **Values of one regime** (`Value.Stands`) — those that stand on the stack of an evaluation.

  4. **Comparison** (`comparing_of_stands`) — two values of one regime compare as their places do; an undefined double
     counts as equal to everything.  A comparison fails only if one of them is an undefined decimal, or an integer that
     is larger than all doubles meets a double.
-/
import SciCalc.Proofs.Binary.Order
import SciCalc.Proofs.Decimal.Order
import SciCalc.Proofs.Double.Integer
import SciCalc.Proofs.Evaluation.Regime
import SciCalc.Value.Arithmetic

namespace SciCalc

open Attempt
open Binary (withSign)

/-! ## Places -/

/-- Where the value stands among the real numbers; complex numbers and undefined values have no place there. -/
def Value.place? : Value → Option Place
  | real x => x.place?
  | integer n => some (.ofRat n)
  | complex _ => none
  | decimal x _ => x.place?

theorem Binary.place?_of_number? {x : Binary} {r : Rat} (h : x.number? = some r) : x.place? = some (.ofRat r) := by
  cases x with
  | finite s m e =>
    cases h
    rfl
  | infinite s => cases h
  | nan => cases h

/-- Only an undefined number has no place. -/
theorem Binary.exists_place? {x : Binary} (h : x.isNaN = false) : ∃ p, x.place? = some p := by
  cases x with
  | finite s m e => exact ⟨_, rfl⟩
  | infinite s => exact ⟨_, rfl⟩
  | nan => cases h

/-! ## Integers among doubles -/

/-- The number is one of double precision. -/
def Binary.IsDouble (x : Binary) : Prop := Format.double.convert x = x

instance (x : Binary) : Decidable x.IsDouble := inferInstanceAs (Decidable (_ = _))

/-- A greater magnitude decides the order by its sign. -/
theorem Binary.cmp_withSign_of_lt {a r : Rat} (h : |r| < a) (s : Bool) :
    cmp (withSign s a) r = if s then .lt else .gt := by
  obtain ⟨hlower, hupper⟩ := abs_lt.mp h
  cases s with
  | true => exact (cmp_eq_lt_iff _ _).mpr hlower
  | false => exact (cmp_eq_gt_iff _ _).mpr hupper

namespace Double

variable {n : Int} {x y : Binary}

/-- **A double with a fraction is less than all integers of more than 53 bits.** -/
theorem lt_of_not_isIntegral {s : Bool} {m : Nat} {e : Int} (double : (Binary.finite s m e).IsDouble)
    (hwhole : (Binary.finite s m e).isIntegral = false) : (m : Rat) * 2 ^ e < 2 ^ 53 := by
  have hm : m ≠ 0 := by
    rintro rfl
    have hzero : (Binary.finite s 0 e).number? = some ((0 : Int) : Rat) :=
      (Binary.number?_of_isZero rfl).trans (congrArg some Int.cast_zero.symm)
    rw [(Binary.isIntegral_of_number? hzero).1] at hwhole
    cases hwhole
  have hrounded := Format.rounded_round (f := .double) rfl (by decide) hm s e
  rw [show Format.double.round s m e = .finite s m e from double] at hrounded
  obtain ⟨a, ⟨k, i, hk, -, hvalue, -⟩, hsame⟩ := hrounded.fits (by decide) (Binary.number?_finite s m e)
  rw [Binary.withSign_inj.mp hsame, hvalue]
  by_cases hi : 0 ≤ i
  · -- a mantissa with zeros behind it would be a whole number
    have hinteger : (Binary.finite s m e).number? = some ((if s then -((k <<< i.toNat : Nat) : Int) else
        ((k <<< i.toNat : Nat) : Int) : Int) : Rat) := by
      rw [Binary.number?_finite, hsame, hvalue, Binary.mul_two_zpow_of_nonneg hi, Binary.withSign_natCast]
    rw [(Binary.isIntegral_of_number? hinteger).1] at hwhole
    cases hwhole
  · calc (k : Rat) * 2 ^ i ≤ k := mul_le_of_le_one_right k.cast_nonneg (zpow_le_one_of_nonpos₀ one_le_two (by omega))
      _ < 2 ^ 53 := by exact_mod_cast hk

/-- **An integer beside a double with a fraction** is compared as it is, whether the double has room for it or
    not. -/
theorem cmp_ofInt? {q : Place} (h : ofInt? n = .ok x) (double : y.IsDouble) (hwhole : y.isIntegral = false)
    (hq : y.place? = some q) : ∃ p, x.place? = some p ∧ cmp p q = cmp (Place.ofRat n) q := by
  by_cases hsmall : n.natAbs < 2 ^ 53
  · obtain ⟨k, hk, -, hsame, -⟩ := exists_number?_ofInt? h
    rw [hsame hsmall] at hk
    exact ⟨_, Binary.place?_of_number? hk, rfl⟩
  -- the integer and its double are both beyond the double that has a fraction
  have hlarge : (2 : Rat) ^ (53 : Int) ≤ n.natAbs := by exact_mod_cast Nat.not_lt.mp hsmall
  have hn : n ≠ 0 := by
    rintro rfl
    exact hsmall (by decide)
  obtain ⟨a, j, hnearest, hvalue⟩ := exists_nearest_ofInt? hn h
  have hbeyond : (2 : Rat) ^ (53 : Int) ≤ a * 2 ^ j := hnearest.two_zpow_le hlarge fun least limit hrange => by
    cases hrange
    decide
  refine ⟨_, Binary.place?_of_number? hvalue, ?_⟩
  rw [← Binary.withSign_natAbs n]
  cases y with
  | nan => cases hq
  | infinite t =>
    obtain rfl := Option.some.inj hq
    rw [Place.cmp_ofRat_ofInfinite, Place.cmp_ofRat_ofInfinite]
  | finite t m e =>
    obtain rfl := Option.some.inj hq
    have hfraction : |withSign t ((m : Rat) * 2 ^ e)| < 2 ^ (53 : Int) := by
      rw [Binary.abs_withSign, abs_of_nonneg (mul_nonneg m.cast_nonneg (Binary.two_zpow_pos e).le)]
      exact_mod_cast lt_of_not_isIntegral double hwhole
    rw [Place.cmp_ofRat, Place.cmp_ofRat, Binary.cmp_withSign_of_lt (hfraction.trans_le hbeyond),
      Binary.cmp_withSign_of_lt (hfraction.trans_le hlarge)]

/-- An integer beside a double that is not whole, on either side. -/
theorem compare?_ofInt? (h : ofInt? n = .ok x) (double : y.IsDouble) (hwhole : y.isIntegral = false) :
    x.compare? y = y.place?.map (cmp (Place.ofRat n)) ∧ y.compare? x = y.place?.map (cmp · (Place.ofRat n)) := by
  rw [Binary.compare?_eq_cmp, Binary.compare?_eq_cmp]
  cases hq : y.place? with
  | none => exact ⟨Option.bind_fun_none _, rfl⟩
  | some q =>
    obtain ⟨p, hp, hsame⟩ := cmp_ofInt? h double hwhole hq
    rw [hp]
    refine ⟨congrArg some hsame, congrArg some ?_⟩
    rw [← cmp_swap, hsame, cmp_swap]

end Double

/-! ## Values of one regime -/

namespace Value

/-- **The value stands on the stack of the regime** and is real.  In the exact regime that is an integer, or a double
    that is not whole; in the decimal regime a decimal that has been brought into the active context; and else a
    double that has been checked. -/
def Stands (m : Modes) : Value → Prop
  | real x => x.IsDouble ∧
      (m.regime = .double ∧ Double.check x = .ok x ∨ m.regime = .exact ∧ x.isIntegral = false)
  | integer _ => m.regime = .exact
  | complex _ => False
  | decimal x ctx => m.regime = .decimal ∧ ctx = m.context ∧ ctx.Contains x

/-- Whether a comparison accepts the value.  An undefined double is compared, an undefined decimal is not. -/
def isComparable : Value → Bool
  | complex _ => false
  | decimal x _ => x.place?.isSome
  | real _ | integer _ => true

/-- An integer that is larger than all doubles stands beside a double. -/
def Crowded (vs : List Value) : Prop :=
  ∃ n x, .integer n ∈ vs ∧ .real x ∈ vs ∧ ∀ y, Double.ofInt? n ≠ .ok y

variable {m : Modes} {v w : Value} {ctx : Context} {x : Decimal}

/-- A value that has a place can be compared. -/
theorem isComparable_of_place? {p : Place} (h : v.place? = some p) : v.isComparable = true := by
  cases v with
  | complex z => cases h
  | decimal x ctx =>
    rw [isComparable, show x.place? = some p from h]
    rfl
  | _ => rfl

/-- A value that can be compared has a place, unless it is an undefined double. -/
theorem exists_place?_of_isComparable (h : v.isComparable = true) (defined : ∀ x, v = .real x → x.isNaN = false) :
    ∃ p, v.place? = some p := by
  cases v with
  | complex z => cases h
  | decimal x ctx => exact Option.isSome_iff_exists.mp h
  | integer n => exact ⟨_, rfl⟩
  | real x => exact Binary.exists_place? (defined x rfl)

/-! ## Comparison -/

/-- **A decimal that the context has room for keeps its place** when it is brought there. -/
theorem place?_plus_of_contains (hx : ctx.Contains x) : Gives (fun y => y.place? = x.place?) (ctx.plus x) := by
  cases x with
  | infinite s => exact gives_ok.mpr rfl
  | nan s q p =>
    show Gives _ (ctx.finishNaN s q p)
    rw [Context.finishNaN]
    exact gives_ite.mpr ⟨fun _ => gives_error _, fun _ => gives_ok.mpr rfl⟩
  | finite s c e =>
    obtain ⟨s', hplus, hsign⟩ := Context.plus_of_contains hx
    rw [hplus]
    refine gives_ok.mpr ?_
    by_cases hc : c = 0
    · subst hc
      simp only [Decimal.place?, Nat.cast_zero, zero_mul, Binary.withSign_zero]
    · rw [hsign hc]

/-- A decimal that the context has room for and that is defined can be brought there. -/
theorem exists_plus_of_contains (hx : ctx.Contains x) (hplace : x.place?.isSome) : ∃ y, ctx.plus x = .ok y := by
  cases x with
  | infinite s => exact ⟨_, rfl⟩
  | nan s q p => cases hplace
  | finite s c e =>
    obtain ⟨s', hplus, -⟩ := Context.plus_of_contains hx
    exact ⟨_, hplus⟩

/-- Two decimals of one context are compared when both have been brought there. -/
theorem compare_decimal (x y : Decimal) (ctx : Context) :
    ((decimal x ctx).promote (decimal y ctx) >>= Operands.compare) = (do
      let x ← ofFault (ctx.entered (ctx.plus x))
      let y ← ofFault (ctx.entered (ctx.plus y))
      (Operands.decimal x y ctx ctx).compare) := by
  have hpromote : (decimal x ctx).promote (decimal y ctx) = (do
      let x ← (decimal x ctx).toDecimal ⟨max ctx.precision ctx.precision, ctx.rounding⟩
      let y ← (decimal y ctx).toDecimal ⟨max ctx.precision ctx.precision, ctx.rounding⟩
      return Operands.decimal x y ⟨max ctx.precision ctx.precision, ctx.rounding⟩
        ⟨max ctx.precision ctx.precision, ctx.rounding⟩) := rfl
  rw [hpromote, Nat.max_self]
  show ((ofFault (ctx.entered (ctx.plus x)) >>= fun x => ofFault (ctx.entered (ctx.plus y)) >>= fun y =>
    pure (Operands.decimal x y ctx ctx)) >>= Operands.compare) = _
  cases ofFault (ctx.entered (ctx.plus x)) with
  | error f => rfl
  | ok x => cases ofFault (ctx.entered (ctx.plus y)) <;> rfl

/-- The order of two places as a number. -/
abbrev compareAt (p q : Place) : Int := Operands.compare.sign (some (cmp p q))

/-- **How two values compare**: as their places do, as equals, where an undefined double has no place, or not at all,
    where one of them cannot be compared or an integer that is larger than all doubles meets a double. -/
inductive Comparing (v w : Value) : Prop where
  | compared {p q : Place} : v.place? = some p → w.place? = some q →
      (v.promote w >>= Operands.compare) = .ok (compareAt p q) → Comparing v w
  | undefined : v.place? = none ∨ w.place? = none → v.isComparable = true → w.isComparable = true →
      (v.promote w >>= Operands.compare) = .ok 0 → Comparing v w
  | refused {f : Failure} : (v.promote w >>= Operands.compare) = .error f →
      v.isComparable = false ∨ w.isComparable = false ∨ Crowded [v, w] → Comparing v w

/-- Two decimals of one context with digits compare as their places do. -/
theorem comparing_decimal (hprecision : 0 < ctx.precision) {x y : Decimal} (hx : ctx.Contains x)
    (hy : ctx.Contains y) : Comparing (decimal x ctx) (decimal y ctx) := by
  have hcompare := compare_decimal x y ctx
  rw [Context.entered, Context.entered, if_neg hprecision.ne', if_neg hprecision.ne'] at hcompare
  -- a decimal that cannot be brought there is undefined
  have refused : ∀ {z : Decimal} {f : Fault}, ctx.Contains z → ctx.plus z = .error f →
      (decimal z ctx).isComparable = false := by
    intro z f hz hplus
    refine Bool.eq_false_iff.mpr fun hplace => ?_
    obtain ⟨z', hz'⟩ := exists_plus_of_contains hz hplace
    rw [hplus] at hz'
    cases hz'
  cases hx' : ctx.plus x with
  | error f =>
    rw [hx'] at hcompare
    exact .refused hcompare (Or.inl (refused hx hx'))
  | ok x' =>
    cases hy' : ctx.plus y with
    | error f =>
      rw [hx', hy'] at hcompare
      exact .refused hcompare (Or.inr (Or.inl (refused hy hy')))
    | ok y' =>
      have hresult : ((decimal x ctx).promote (decimal y ctx) >>= Operands.compare)
          = (Operands.decimal x' y' ctx ctx).compare := by rw [hcompare, hx', hy']; rfl
      rw [Operands.compare, Decimal.compare?_eq_cmp, place?_plus_of_contains hx x' hx',
        place?_plus_of_contains hy y' hy'] at hresult
      cases hp : x.place? with
      | none =>
        rw [hp] at hresult
        exact .refused hresult (Or.inl (by rw [isComparable, hp]; rfl))
      | some p =>
        cases hq : y.place? with
        | none =>
          rw [hp, hq] at hresult
          exact .refused hresult (Or.inr (Or.inl (by rw [isComparable, hq]; rfl)))
        | some q =>
          rw [hp, hq] at hresult
          exact .compared hp hq hresult

/-- Values that are compared as doubles, in the order of their own places, compare as these do, or as equals. -/
theorem comparing_doubles {x y : Binary} (hv : v.isComparable = true) (hw : w.isComparable = true)
    (hpromote : v.promote w = .ok (.real x y))
    (hcompare : x.compare? y = v.place?.bind fun p => w.place?.map (cmp p)) : Comparing v w := by
  have hresult : (v.promote w >>= Operands.compare)
      = .ok (Operands.compare.sign (v.place?.bind fun p => w.place?.map (cmp p))) := by
    rw [hpromote, ← hcompare]
    rfl
  cases hp : v.place? with
  | none =>
    rw [hp] at hresult
    exact .undefined (Or.inl hp) hv hw hresult
  | some p =>
    cases hq : w.place? with
    | none =>
      rw [hp, hq] at hresult
      exact .undefined (Or.inr hq) hv hw hresult
    | some q =>
      rw [hp, hq] at hresult
      exact .compared hp hq hresult

/-- An integer and a double that is not whole compare as the numbers do, if there is a double of the integer. -/
theorem comparing_integer_real {n : Int} {y : Binary} (double : y.IsDouble) (hwhole : y.isIntegral = false) :
    Comparing (integer n) (real y) ∧ Comparing (real y) (integer n) := by
  have hpromote : (integer n).promote (real y) = (integer n).toReal >>= fun x => pure (.real x y) := rfl
  have hpromote' : (real y).promote (integer n) = (integer n).toReal >>= fun x => pure (.real y x) := rfl
  cases h : Double.ofInt? n with
  | error fault =>
    have hcrowd : ∀ {vs}, integer n ∈ vs → real y ∈ vs → Crowded vs := fun hn hy =>
      ⟨n, y, hn, hy, fun x hx => by rw [h] at hx; cases hx⟩
    have hreal : (integer n).toReal = .error (.numeric .integerTooLarge) := by rw [toReal, h]
    rw [hreal] at hpromote hpromote'
    exact ⟨.refused (congrArg (· >>= Operands.compare) hpromote) (Or.inr (Or.inr (hcrowd (by simp) (by simp)))),
      .refused (congrArg (· >>= Operands.compare) hpromote') (Or.inr (Or.inr (hcrowd (by simp) (by simp))))⟩
  | ok x =>
    have hreal : (integer n).toReal = .ok x := by rw [toReal, h]
    rw [hreal] at hpromote hpromote'
    obtain ⟨hcompare, hcompare'⟩ := Double.compare?_ofInt? h double hwhole
    exact ⟨comparing_doubles rfl rfl hpromote hcompare,
      comparing_doubles rfl rfl hpromote' (hcompare'.trans Option.map_eq_bind)⟩

/-- **Two values of one regime compare as their places do.** -/
theorem comparing_of_stands (hleast : Limit.leastPrecision ≤ m.precision) (hv : v.Stands m) (hw : w.Stands m) :
    Comparing v w := by
  -- the regime says which kinds can meet
  have exact_of_real : ∀ {n : Int} {x : Binary}, (integer n).Stands m → (real x).Stands m →
      x.IsDouble ∧ x.isIntegral = false := by
    rintro n x hregime ⟨double, ⟨hother, -⟩ | ⟨-, hwhole⟩⟩
    · rw [show m.regime = .exact from hregime] at hother
      cases hother
    · exact ⟨double, hwhole⟩
  have not_decimal : ∀ {u : Value} {x : Decimal} {ctx : Context}, u.Stands m → (decimal x ctx).Stands m →
      (∃ y d, u = decimal y d) := by
    rintro u x ctx hu ⟨hregime, -⟩
    cases u with
    | complex z => exact absurd hu id
    | decimal y d => exact ⟨y, d, rfl⟩
    | integer n =>
      rw [show m.regime = .exact from hu] at hregime
      cases hregime
    | real x =>
      obtain ⟨-, ⟨hother, -⟩ | ⟨hother, -⟩⟩ := hu
      · rw [hother] at hregime
        cases hregime
      · rw [hother] at hregime
        cases hregime
  cases v with
  | complex z => exact absurd hv id
  | integer n =>
    cases w with
    | complex z => exact absurd hw id
    | decimal y ctx =>
      obtain ⟨_, _, h⟩ := not_decimal hv hw
      cases h
    | integer k =>
      refine .compared rfl rfl (congrArg (fun o => Except.ok (Operands.compare.sign (some o))) ?_)
      rw [Place.cmp_ofRat, ← cmp_eq_compare]
      exact (StrictMono.cmp_map_eq Int.cast_strictMono n k).symm
    | real y =>
      obtain ⟨double, hwhole⟩ := exact_of_real hv hw
      exact (comparing_integer_real double hwhole).1
  | real x =>
    cases w with
    | complex z => exact absurd hw id
    | decimal y ctx =>
      obtain ⟨_, _, h⟩ := not_decimal hv hw
      cases h
    | integer k =>
      obtain ⟨double, hwhole⟩ := exact_of_real hw hv
      exact (comparing_integer_real double hwhole).2
    | real y => exact comparing_doubles rfl rfl rfl (Binary.compare?_eq_cmp x y)
  | decimal x ctx =>
    obtain ⟨y, d, rfl⟩ := not_decimal hw hv
    obtain ⟨-, rfl, hx⟩ := hv
    obtain ⟨-, rfl, hy⟩ := hw
    have hprecision : 0 < m.context.precision := hleast
    exact comparing_decimal hprecision hx hy

end Value

end SciCalc
