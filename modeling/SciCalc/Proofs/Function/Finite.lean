/-
  The built-in functions and operators give tame values.

  1. **Computing** (`compute_tame`) — a result of tame arguments is a decimal only if an argument is one, so
     only where decimals are used, and then it is finite.  Every function of one or two numbers is computed
     this way, or as a complex number.

  2. **Powers** (`power_tame`) — the exception is a decimal zero that is raised to a negative exponent.

  3. **Rules** (`Builtin.apply_tame`, `BinaryRule.apply_tame`) — so built-in functions and operators give tame
     results of tame arguments, unless they raise zero like that.
-/
import SciCalc.Proofs.Function.Blame
import SciCalc.Proofs.Value.Finite

namespace SciCalc

open Attempt

namespace Value

open Elementary (Point)

variable {m : Modes} {v w : Value} {args : List Value}

/-! ## Computing -/

/-- There is a context of a result only where decimals are used. -/
theorem regime_of_resultContext? (h : ∀ v ∈ args, v.Tame m) {ctx : Context}
    (hctx : resultContext? args = some ctx) : m.regime = .decimal := by
  induction args generalizing ctx with
  | nil => cases hctx
  | cons v rest ih =>
    have hrest := fun v hv => h v (List.mem_cons_of_mem _ hv)
    cases v with
    | decimal x c => exact (h _ List.mem_cons_self).1
    | _ => exact ih hrest hctx

theorem ofComputed_tame {ctx? : Option Context} (h : ∀ ctx, ctx? = some ctx → m.regime = .decimal)
    (z : Point) : GivesTame m (ofComputed ctx? z) := by
  -- the number is complex, or a double, or the digits of a finite number
  unfold ofComputed
  split
  · exact gives_ok.mpr trivial
  split
  · exact gives_ok.mpr trivial
  · rename_i ctx
    split
    · exact Gives.bind (gives_ofFault.mpr (Context.gives_entered (Context.givesFinite_ofComputed ctx _)))
        fun x hx => gives_ok.mpr ⟨h ctx rfl, hx⟩
    · exact gives_error _

/-- **What is computed of tame arguments is tame.** -/
theorem compute_tame (h : ∀ v ∈ args, v.Tame m) (f : Format → List Binary → Except Failure Point) :
    GivesTame m (compute f args) :=
  gives_bind.mpr fun _ _ => gives_bind.mpr fun z _ =>
    ofComputed_tame (fun _ => regime_of_resultContext? h) z

theorem compute_one_tame (hv : v.Tame m) (f : Format → List Binary → Except Failure Point) :
    GivesTame m (compute f [v]) :=
  compute_tame (List.forall_mem_singleton.mpr hv) f

theorem computeReal_tame (hv : v.Tame m) (f : Format → Binary → Binary) : GivesTame m (v.computeReal f) :=
  compute_one_tame hv _

theorem computeReal2_tame (hv : v.Tame m) (hw : w.Tame m) (f : Format → Binary → Binary → Except Failure Binary) :
    GivesTame m (computeReal2 f v w) :=
  compute_tame (List.forall_mem_cons.mpr ⟨hv, List.forall_mem_singleton.mpr hw⟩) _

@[simp] theorem computePoint_tame (f : Format → Point → Except Failure Point) (v : Value) :
    GivesTame m (v.computePoint f) := by
  simp [computePoint]

@[simp] theorem computeEverywhere_tame (f : Format → Point → Point) (v : Value) :
    GivesTame m (v.computeEverywhere f) := computePoint_tame _ v

@[simp] theorem computeReciprocal_tame (f : Format → Point → Except Fault Point) (v : Value) :
    GivesTame m (v.computeReciprocal f) := computePoint_tame _ v

@[simp] theorem ofComplex_tame (z : Except Failure Complex) : GivesTame m (ofComplex z) :=
  gives_map.mpr fun _ _ => trivial

theorem outsideDomain_tame {m' : Modes} {what : String} {fallback : Except Failure Value}
    (h : GivesTame m fallback) : GivesTame m (outsideDomain m' what fallback) :=
  gives_ite.mpr ⟨fun _ => h, fun _ => gives_error _⟩

/-! ## Trigonometric functions -/

theorem sin_tame (hv : v.Tame m) : GivesTame m (v.sin m) := by
  cases v with
  | complex z => exact ofComplex_tame _
  | _ => simp only [sin, computeReal_tame hv]

theorem cos_tame (hv : v.Tame m) : GivesTame m (v.cos m) := by
  cases v with
  | complex z => exact ofComplex_tame _
  | _ => simp only [cos, computeReal_tame hv]

theorem tan_tame (hv : v.Tame m) : GivesTame m (v.tan m) := by
  cases v with
  | complex z => exact ofComplex_tame _
  | _ => simp only [tan, computeReal_tame hv]

theorem reciprocalOf_tame (hv : v.Tame m) (g : Format → Binary → Binary)
    (h : Format → Point → Except Fault Point) (name zeroOf : String) :
    GivesTame m (reciprocalOf m g h name zeroOf v) := by
  cases v with
  | complex z => exact computeReciprocal_tame _ _
  | _ => simp only [reciprocalOf, compute_one_tame hv]

theorem inverseOnUnit_tame (hv : v.Tame m) (g : Format → Binary → Binary) (h : Format → Point → Point)
    (name : String) : GivesTame m (inverseOnUnit m g h name v) := by
  cases v with
  | complex z => exact computeEverywhere_tame _ _
  | _ =>
    exact gives_bind.mpr fun o _ => gives_ite.mpr
      ⟨fun _ => outsideDomain_tame (computeEverywhere_tame _ _), fun _ => compute_one_tame hv _⟩

theorem arctan_tame (hv : v.Tame m) : GivesTame m (v.arctan m) := by
  cases v with
  | complex z => exact computeEverywhere_tame _ _
  | _ => simp only [arctan, computeReal_tame hv]

theorem arctan2_tame (hv : v.Tame m) (hw : w.Tame m) : GivesTame m (v.arctan2 m w) :=
  gives_ite.mpr ⟨fun _ => gives_error _, fun _ => computeReal2_tame hv hw _⟩

@[simp] theorem argument_tame (v : Value) : GivesTame m (v.argument m) := by
  simp [argument]

/-! ## Exponential, logarithmic and hyperbolic functions -/

theorem exp_tame (hv : v.Tame m) : GivesTame m v.exp := by
  cases v with
  | complex z => exact ofComplex_tame _
  | _ => simp only [exp, computeReal_tame hv]

theorem ln_tame (hv : v.Tame m) : GivesTame m (v.ln m) := by
  cases v with
  | complex z => exact ofComplex_tame _
  | _ =>
    exact gives_bind.mpr fun below _ => gives_ite.mpr
      ⟨fun _ => outsideDomain_tame (gives_bind.mpr fun z _ => ofComplex_tame _), fun _ => computeReal_tame hv _⟩

@[simp] theorem lnOver_tame (z : Complex) (base : Binary) : GivesTame m (lnOver z base) := by
  simp [lnOver]

theorem logFixed_tame (hv : v.Tame m) (base : Nat) (lnBase : Binary) (name : String) :
    GivesTame m (logFixed m base lnBase name v) := by
  cases v with
  | complex z => exact lnOver_tame _ _
  | _ =>
    exact gives_bind.mpr fun below _ => gives_ite.mpr
      ⟨fun _ => outsideDomain_tame (gives_bind.mpr fun z _ => lnOver_tame _ _), fun _ => computeReal_tame hv _⟩

theorem logBase_tame (hv : v.Tame m) (hw : w.Tame m) : GivesTame m (v.logBase m w) := by
  unfold logBase
  extract_lets quotient
  have hquotient : GivesTame m quotient :=
    gives_bind.mpr fun _ _ => gives_bind.mpr fun _ _ => gives_bind.mpr fun _ _ => gives_bind.mpr fun _ _ =>
      ofComplex_tame _
  simp [hquotient, outsideDomain_tame, computeReal2_tame hv hw]

theorem hyperbolic_tame (hv : v.Tame m) (f : Format → Binary → Binary)
    (g : Format → Point → Except Failure Point) : GivesTame m (hyperbolic f g v) := by
  cases v with
  | complex z => exact computePoint_tame _ _
  | _ => simp only [hyperbolic, computeReal_tame hv]

theorem hyperbolicEverywhere_tame (hv : v.Tame m) (f : Format → Binary → Binary) (g : Format → Point → Point) :
    GivesTame m (hyperbolicEverywhere f g v) := hyperbolic_tame hv _ _

theorem reciprocalHyperbolic_tame (hv : v.Tame m) (f : Format → Binary → Binary)
    (g : Format → Point → Except Fault Point) : GivesTame m (reciprocalHyperbolic f g v) := by
  cases v with
  | complex z => exact computeReciprocal_tame _ _
  | _ => simp only [reciprocalHyperbolic, computeReal_tame hv]

theorem csch_tame (hv : v.Tame m) : GivesTame m v.csch :=
  gives_ite.mpr ⟨fun _ => gives_error _, fun _ => reciprocalHyperbolic_tame hv _ _⟩

theorem coth_tame (hv : v.Tame m) : GivesTame m v.coth :=
  gives_ite.mpr ⟨fun _ => gives_error _, fun _ => reciprocalHyperbolic_tame hv _ _⟩

theorem arcosh_tame (hv : v.Tame m) : GivesTame m (v.arcosh m) := by
  simp [arcosh, outsideDomain_tame, compute_one_tame hv]

theorem artanh_tame (hv : v.Tame m) : GivesTame m (v.artanh m) := by
  unfold artanh
  dsimp only
  split
  · exact hyperbolicEverywhere_tame hv _ _
  · refine gives_bind.mpr fun o _ => ?_
    split
    · exact gives_error _
    · exact outsideDomain_tame (computeEverywhere_tame _ _)
    · exact hyperbolicEverywhere_tame hv _ _

/-! ## Powers and roots -/

@[simp] theorem complexPower_tame (v w : Value) : GivesTame m (v.complexPower w) := by
  simp [complexPower]

/-- Brought to one kind, the values are a decimal zero and a negative decimal. -/
def ZeroToNegative (v w : Value) : Prop := ∃ o, v.promote w = .ok o ∧ o.ZeroToNegative

/-- **A power of tame values is tame**, but for that of a decimal zero to a negative exponent. -/
theorem power_tame (hv : v.Tame m) (hw : w.Tame m) (h : ¬ v.ZeroToNegative w) : GivesTame m (v.power m w) := by
  -- a complex power is no decimal, so only the power of promoted operands counts
  have hreal : GivesTame m (do (← promote v w).power) :=
    gives_bind.mpr fun o ho => Operands.power_tame (promote_tame hv hw o ho) fun hzero => h ⟨o, ho, hzero⟩
  refine gives_ite.mpr ⟨fun _ => complexPower_tame v w, fun _ => gives_bind.mpr fun negative _ => ?_⟩
  exact gives_ite.mpr ⟨fun _ => outsideDomain_tame (complexPower_tame v w), fun _ => hreal⟩

theorem sqrt_tame (hv : v.Tame m) : GivesTame m (v.sqrt m) := by
  cases v with
  | complex z => exact ofComplex_tame _
  | _ =>
    exact gives_bind.mpr fun negative _ => gives_ite.mpr
      ⟨fun _ => outsideDomain_tame (gives_bind.mpr fun z _ => ofComplex_tame _), fun _ => computeReal_tame hv _⟩

theorem cubeRoot_tame (hv : v.Tame m) : GivesTame m v.cubeRoot := by
  cases v with
  | complex z => exact ofComplex_tame _
  | _ => simp only [cubeRoot, computeReal_tame hv]

theorem nthRoot_tame (hv : v.Tame m) (hw : w.Tame m) : GivesTame m (v.nthRoot m w) := by
  unfold nthRoot
  extract_lets asComplex
  have hcomplex : GivesTame m asComplex :=
    gives_bind.mpr fun _ _ => gives_bind.mpr fun _ _ => gives_bind.mpr fun _ _ => ofComplex_tame _
  simp [hcomplex, outsideDomain_tame, computeReal2_tame hv hw]

/-! ## Functions of integers -/

/-- The real number that a value counts as is tame. -/
theorem tame_of_realOrNone? {x : Value} (hv : v.Tame m) (h : v.realOrNone? = some x) : x.Tame m := by
  cases v with
  | complex z =>
    simp only [realOrNone?] at h
    split at h <;> cases h
    trivial
  | _ =>
    cases h
    exact hv

theorem gamma_tame (hv : v.Tame m) : GivesTame m v.gamma := by
  unfold gamma
  cases hx : v.realOrNone? with
  | none => exact computeEverywhere_tame _ _
  | some x =>
    have htame := tame_of_realOrNone? hv hx
    simp [compute_one_tame htame]

theorem factorial_tame (hv : v.Tame m) : GivesTame m v.factorial := by
  unfold factorial
  cases hx : v.realOrNone? with
  | none => exact gives_error _
  | some x =>
    have hgamma : GivesTame m (do gamma (← x.add (.integer 1))) :=
      (add_tame (tame_of_realOrNone? hv hx) (tame_integer 1)).bind fun _ => gamma_tame
    dsimp only
    split
    · split
      · exact hgamma
      split
      · exact gives_error _
      · exact gives_ok.mpr trivial
    · exact hgamma

@[simp] theorem combinations_tame (v w : Value) : GivesTame m (v.combinations w) := by
  simp [combinations]

@[simp] theorem permutations_tame (v w : Value) : GivesTame m (v.permutations w) := by
  simp [permutations]

@[simp] theorem gcd_tame (args : List Value) : GivesTame m (gcd args) := by
  simp [gcd]

@[simp] theorem lcm_tame (args : List Value) : GivesTame m (lcm args) := by
  simp [lcm]

@[simp] theorem isPrime_tame (v : Value) : GivesTame m v.isPrime := by
  simp [isPrime]

@[simp] theorem nextPrime_tame (v : Value) : GivesTame m v.nextPrime := by
  simp [nextPrime]

/-! ## Functions of any number of arguments -/

/-- Real arguments are the arguments. -/
theorem eq_of_realArguments {name : String} {vs : List Value} (h : realArguments name args = .ok vs) :
    vs = args := by
  unfold realArguments at h
  split at h <;> cases h
  rfl

theorem prefer_tame (wanted : Int) (hv : v.Tame m) (hw : w.Tame m) : GivesTame m (prefer wanted v w) := by
  refine gives_bind.mpr fun _ _ => gives_bind.mpr fun o _ => ?_
  split
  · exact gives_ok.mpr hw
  · exact gives_ok.mpr hv

/-- The least or greatest argument is one of the arguments. -/
theorem extreme_tame (h : ∀ v ∈ args, v.Tame m) (wanted : Int) (name : String) :
    GivesTame m (extreme wanted name args) := by
  refine gives_bind.mpr fun vs hvs => ?_
  obtain rfl := eq_of_realArguments hvs
  cases vs with
  | nil => exact gives_error _
  | cons v rest =>
    obtain ⟨hv, hrest⟩ := List.forall_mem_cons.mp h
    exact Gives.foldlM (fun _ hb a ha => prefer_tame wanted hb (hrest a ha)) v hv

theorem sum_tame (h : ∀ v ∈ args, v.Tame m) : GivesTame m (sum args) := by
  cases args with
  | nil => exact gives_error _
  | cons v rest =>
    obtain ⟨hv, hrest⟩ := List.forall_mem_cons.mp h
    exact Gives.foldlM (fun _ hb a ha => add_tame hb (hrest a ha)) v hv

@[simp] theorem ofDoubles_tame (f : List Binary → Binary) (args : List Value) :
    GivesTame m (ofDoubles f args) := by
  simp [ofDoubles]

theorem meanOf_tame (h : ∀ v ∈ args, v.Tame m) : GivesTame m (meanOf args) := by
  unfold meanOf
  split
  · refine (sum_tame h).bind fun total htotal => ?_
    cases total with
    | decimal x ctx =>
      -- the count is rounded to the context of the sum as well
      exact Gives.bind (gives_ofFault.mpr (Context.givesFinite_plus rfl)) fun count hcount =>
        Operands.div_tame ⟨htotal.1, htotal.2, hcount⟩
    | _ => exact gives_ok.mpr htotal
  · exact ofDoubles_tame _ _

/-- The median is an argument in the middle, or the mean of two. -/
theorem medianOf_tame (h : ∀ v ∈ args, v.Tame m) : GivesTame m (medianOf args) := by
  unfold medianOf
  split
  · exact gives_error _
  · extract_lets ordered n
    have hordered : ∀ v ∈ ordered, v.Tame m := fun v hv => h v (List.mem_mergeSort.mp hv)
    split
    · rename_i v _ _ hdrop
      have hmem : v ∈ ordered.drop n := by
        rw [hdrop]
        exact List.mem_cons_self
      exact gives_ok.mpr (hordered v (List.mem_of_mem_drop hmem))
    · exact meanOf_tame fun v hv => hordered v (List.mem_of_mem_drop (List.mem_of_mem_take hv))

theorem mean_tame (h : ∀ v ∈ args, v.Tame m) : GivesTame m (mean args) := by
  refine gives_bind.mpr fun vs hvs => ?_
  obtain rfl := eq_of_realArguments hvs
  exact meanOf_tame h

theorem median_tame (h : ∀ v ∈ args, v.Tame m) : GivesTame m (median args) := by
  refine gives_bind.mpr fun vs hvs => ?_
  obtain rfl := eq_of_realArguments hvs
  exact gives_ite.mpr ⟨fun _ => medianOf_tame h, fun _ => ofDoubles_tame _ _⟩

@[simp] theorem variance_tame (args : List Value) : GivesTame m (variance args) := by
  simp [variance]

@[simp] theorem deviation_tame (args : List Value) : GivesTame m (deviation args) := by
  simp [deviation]

/-! ## Parts and roundings -/

theorem abs_tame (hv : v.Tame m) : v.abs.Tame m := by
  cases v with
  | decimal x ctx =>
    obtain ⟨s, c, e, rfl⟩ := Decimal.exists_of_isFinite hv.2
    exact ⟨hv.1, rfl⟩
  | _ => trivial

theorem integral_tame (hv : v.Tame m) (name : String) (round : Binary → Option Int) (mode : Rounding) :
    GivesTame m (integral name round mode v) := by
  cases v with
  | decimal x ctx =>
    exact Gives.bind (gives_ofFault.mpr (Decimal.givesFinite_toIntegral hv.2 mode))
      fun y hy => gives_ok.mpr ⟨hv.1, hy⟩
  | _ => simp [integral]

theorem realPart_tame (hv : v.Tame m) : v.realPart.Tame m := by
  cases v with
  | decimal x ctx => exact hv
  | _ => trivial

@[simp] theorem imaginaryPart_tame (v : Value) : v.imaginaryPart.Tame m := by
  cases v <;> trivial

theorem conjugate_tame (hv : v.Tame m) : v.conjugate.Tame m := by
  cases v with
  | decimal x ctx => exact hv
  | _ => trivial

end Value

@[simp] theorem randomInteger_tame {m : Modes} (draw : Nat) (low high : Value) :
    GivesTame m (randomInteger draw low high) := by
  simp [randomInteger]

/-! ## Rules -/

variable {m : Modes} {v w : Value} {args : List Value}

namespace Builtin

/-- The rule raises a decimal zero to a negative exponent. -/
def RaisesZero (rule : Builtin) (args : List Value) : Prop :=
  rule = .power ∧ ∃ v w, args = [v, w] ∧ v.ZeroToNegative w

theorem one_tame (hv : v.Tame m) (rule : Builtin) : GivesTame m (rule.one m v) := by
  unfold one
  split
  · exact Value.sin_tame hv
  · exact Value.cos_tame hv
  · exact Value.tan_tame hv
  · exact Value.reciprocalOf_tame hv _ _ _ _
  · exact Value.reciprocalOf_tame hv _ _ _ _
  · exact Value.reciprocalOf_tame hv _ _ _ _
  · exact Value.inverseOnUnit_tame hv _ _ _
  · exact Value.inverseOnUnit_tame hv _ _ _
  · exact Value.arctan_tame hv
  · exact Value.hyperbolicEverywhere_tame hv _ _
  · exact Value.hyperbolicEverywhere_tame hv _ _
  · exact Value.hyperbolic_tame hv _ _
  · exact Value.csch_tame hv
  · exact Value.reciprocalHyperbolic_tame hv _ _
  · exact Value.coth_tame hv
  · exact Value.hyperbolicEverywhere_tame hv _ _
  · exact Value.arcosh_tame hv
  · exact Value.artanh_tame hv
  · exact Value.exp_tame hv
  · exact Value.ln_tame hv
  · exact Value.logFixed_tame hv _ _ _
  · exact Value.logFixed_tame hv _ _ _
  · exact Value.sqrt_tame hv
  · exact Value.cubeRoot_tame hv
  · exact Value.factorial_tame hv
  · exact Value.gamma_tame hv
  · exact gives_ok.mpr (Value.abs_tame hv)
  · exact Value.integral_tame hv _ _ _
  · exact Value.integral_tame hv _ _ _
  · exact Modes.round_tame hv
  · exact gives_ok.mpr (Value.realPart_tame hv)
  · exact gives_ok.mpr (Value.imaginaryPart_tame v)
  · exact gives_ok.mpr (Value.conjugate_tame hv)
  · exact Value.argument_tame v
  · exact Value.isPrime_tame v
  · exact Value.nextPrime_tame v
  · exact gives_error _

theorem two_tame (hv : v.Tame m) (hw : w.Tame m) (draw : Nat) {rule : Builtin}
    (h : ¬ rule.RaisesZero [v, w]) : GivesTame m (rule.two m draw v w) := by
  unfold two
  split
  · exact Value.arctan2_tame hv hw
  · exact Value.logBase_tame hv hw
  · exact Value.power_tame hv hw fun hzero => h ⟨rfl, v, w, rfl, hzero⟩
  · exact Value.nthRoot_tame hv hw
  · exact Value.combinations_tame v w
  · exact Value.permutations_tame v w
  · exact randomInteger_tame draw v w
  · exact gives_error _

/-- **The built-in functions give tame results of tame arguments**, unless they raise zero to a negative
    exponent. -/
theorem apply_tame (hargs : ∀ v ∈ args, v.Tame m) (draw : Nat) {rule : Builtin} (h : ¬ rule.RaisesZero args) :
    GivesTame m (rule.apply m draw args) := by
  unfold apply
  split
  · exact Value.extreme_tame hargs _ _
  · exact Value.extreme_tame hargs _ _
  · exact Value.sum_tame hargs
  · exact Value.mean_tame hargs
  · exact Value.median_tame hargs
  · exact Value.deviation_tame args
  · exact Value.variance_tame args
  · exact Value.gcd_tame args
  · exact Value.lcm_tame args
  · exact gives_ok.mpr trivial
  · exact one_tame (hargs _ List.mem_cons_self) rule
  · exact two_tame (hargs _ List.mem_cons_self) (hargs _ (List.mem_cons_of_mem _ List.mem_cons_self)) draw h
  · exact gives_error _

end Builtin

/-- A prefix operator of the calculator gives a tame result of a tame operand. -/
theorem UnaryRule.apply_tame {rule : UnaryRule} (own : (OperatorRule.unary rule).isHost = false)
    (hv : v.Tame m) : GivesTame m (rule.apply v) := by
  cases rule with
  | identity => exact gives_ok.mpr hv
  | negation => exact Value.neg_tame hv
  | host call => cases own

namespace BinaryRule

/-- The rule raises a decimal zero to a negative exponent. -/
def RaisesZero (rule : BinaryRule) (o : Operands) : Prop :=
  match rule with
  | power => o.ZeroToNegative
  | generalPower => o.values.1.ZeroToNegative o.values.2
  | _ => False

@[simp] theorem ordered_tame (o : Operands) (holds : Int → Bool) : GivesTame m (ordered o holds) := by
  simp [ordered, truth]

/-- Tame operands are tame values. -/
theorem values_tame {o : Operands} (ho : o.Tame m) : o.values.1.Tame m ∧ o.values.2.Tame m := by
  cases o with
  | decimal x y c d => exact ⟨⟨ho.1, ho.2.1⟩, ho.1, ho.2.2⟩
  | _ => exact ⟨trivial, trivial⟩

/-- **The binary operators of the calculator give tame results of tame operands**, unless they raise zero to a
    negative exponent. -/
theorem apply_tame {rule : BinaryRule} (own : (OperatorRule.binary rule).isHost = false) {o : Operands}
    (ho : o.Tame m) (h : ¬ rule.RaisesZero o) : GivesTame m (rule.apply m o) := by
  obtain ⟨hv, hw⟩ := values_tame ho
  cases rule with
  | add => exact Operands.add_tame ho
  | subtract => exact Operands.sub_tame ho
  | multiply => exact Operands.mul_tame ho
  | divide => exact Operands.div_tame ho
  | modulo => exact Operands.modulo_tame ho
  | floorDivide => exact Operands.floorDivide_tame ho
  | power => exact Operands.power_tame ho h
  | guardedModulo => exact gives_ite.mpr ⟨fun _ => gives_error _, fun _ => Operands.modulo_tame ho⟩
  | guardedFloorDivide => exact gives_ite.mpr ⟨fun _ => gives_error _, fun _ => Operands.floorDivide_tame ho⟩
  | generalPower => exact Value.power_tame hv hw h
  | host call => cases own
  | _ => simp [apply, truth]

end BinaryRule

end SciCalc
