/-
  The built-in functions and operators are blameless.

  A function of numbers is computed in a format that its arguments call for, and what goes wrong in it is
  outside a domain or a fault of plain arithmetic.  The functions of integers and of real numbers name
  themselves in their failures; a name that is clear keeps the message clear.
-/
import SciCalc.Function.Rules
import SciCalc.Operator.Rules
import SciCalc.Proofs.Value.Blame

namespace SciCalc

open Attempt

namespace Value

open Elementary (Point)

/-! ## Computing -/

@[simp] theorem noNumber_not_blamesRow (x : Decimal) : ¬ (noNumber x).BlamesRow := by
  unfold noNumber
  split
  · exact fault_not_blamesRow _
  · dsimp only
    split <;> exact fault_not_blamesRow _

@[simp] theorem toBits_blameless (f : Format) (v : Value) : Blameless (v.toBits f) := by
  cases v with
  | decimal x ctx =>
    simp only [toBits]
    split
    · cases f.readDecimal? _ <;> simp
    · simp
    · simp
  | _ => simp [toBits]

@[simp] theorem ofComputed_blameless (ctx? : Option Context) (z : Point) : Blameless (ofComputed ctx? z) := by
  unfold ofComputed
  split
  · simp
  · cases ctx? <;> simp

@[simp] theorem compute_blameless {f : Format → List Binary → Except Failure Point}
    (h : ∀ p xs, Blameless (f p xs)) (args : List Value) : Blameless (compute f args) := by
  simp [compute, h]

@[simp] theorem computeReal_blameless (f : Format → Binary → Binary) (v : Value) :
    Blameless (v.computeReal f) := by
  simp [computeReal]

@[simp] theorem computeReal2_blameless {f : Format → Binary → Binary → Except Failure Binary}
    (h : ∀ p x y, Blameless (f p x y)) (v w : Value) : Blameless (computeReal2 f v w) := by
  refine compute_blameless ?_ _
  intro p xs
  split
  · exact blameless_map.mpr (h _ _ _)
  · exact blameless_ok _

@[simp] theorem computePoint_blameless {f : Format → Point → Except Failure Point}
    (h : ∀ p z, Blameless (f p z)) (v : Value) : Blameless (v.computePoint f) := by
  simp [computePoint, h]

@[simp] theorem computeEverywhere_blameless (f : Format → Point → Point) (v : Value) :
    Blameless (v.computeEverywhere f) := by
  simp [computeEverywhere]

@[simp] theorem computeReciprocal_blameless (f : Format → Point → Except Fault Point) (v : Value) :
    Blameless (v.computeReciprocal f) := by
  simp [computeReciprocal]

@[simp] theorem outsideDomain_blameless {m : Modes} {what : String} {fallback : Except Failure Value}
    (h : Blameless fallback) : Blameless (outsideDomain m what fallback) := by
  simp [outsideDomain, h]

@[simp] theorem ofComplex_blameless (z : Except Failure Complex) : Blameless (ofComplex z) ↔ Blameless z :=
  blameless_map

@[simp] theorem compareInt_blameless (v : Value) (n : Int) : Blameless (v.compareInt n) := by
  cases v with
  | decimal x ctx =>
    simp only [compareInt]
    split <;> simp
  | _ => simp [compareInt]

@[simp] theorem isBelow_blameless (v : Value) (n : Int) : Blameless (v.isBelow n) := by
  simp [isBelow]

@[simp] theorem isAtMost_blameless (v : Value) (n : Int) : Blameless (v.isAtMost n) := by
  simp [isAtMost]

@[simp] theorem compareMagnitudeToOne_blameless (v : Value) : Blameless v.compareMagnitudeToOne := by
  cases v <;> simp [compareMagnitudeToOne]

/-! ## Trigonometric functions -/

@[simp] theorem sin_blameless (m : Modes) (v : Value) : Blameless (v.sin m) := by
  cases v <;> simp [sin]

@[simp] theorem cos_blameless (m : Modes) (v : Value) : Blameless (v.cos m) := by
  cases v <;> simp [cos]

@[simp] theorem tan_blameless (m : Modes) (v : Value) : Blameless (v.tan m) := by
  cases v <;> simp [tan]

@[simp] theorem reciprocalOf_blameless (m : Modes) (g : Format → Binary → Binary)
    (h : Format → Point → Except Fault Point) (name zeroOf : String) (v : Value) :
    Blameless (reciprocalOf m g h name zeroOf v) := by
  cases v <;> simp [reciprocalOf]

@[simp] theorem inverseOnUnit_blameless (m : Modes) (g : Format → Binary → Binary)
    (h : Format → Point → Point) (name : String) (v : Value) : Blameless (inverseOnUnit m g h name v) := by
  cases v <;> simp [inverseOnUnit]

@[simp] theorem arctan_blameless (m : Modes) (v : Value) : Blameless (v.arctan m) := by
  cases v <;> simp [arctan]

@[simp] theorem arctan2_blameless (m : Modes) (v w : Value) : Blameless (v.arctan2 m w) := by
  have name : Clear "atan2" := by decide
  simp [arctan2, name]

@[simp] theorem argument_blameless (m : Modes) (v : Value) : Blameless (v.argument m) := by
  simp [argument]

/-! ## Exponential, logarithmic and hyperbolic functions -/

@[simp] theorem exp_blameless (v : Value) : Blameless v.exp := by
  cases v <;> simp [exp]

@[simp] theorem ln_blameless (m : Modes) (v : Value) : Blameless (v.ln m) := by
  cases v <;> simp [ln]

@[simp] theorem lnOver_blameless (z : Complex) (base : Binary) : Blameless (lnOver z base) := by
  simp [lnOver]

@[simp] theorem logFixed_blameless (m : Modes) (base : Nat) (lnBase : Binary) (name : String) (v : Value) :
    Blameless (logFixed m base lnBase name v) := by
  cases v <;> simp [logFixed]

@[simp] theorem isOne_blameless (v : Value) : Blameless v.isOne := by
  cases v with
  | decimal x ctx =>
    simp only [isOne]
    split <;> simp
  | _ => simp [isOne]

@[simp] theorem logBase_blameless (m : Modes) (v w : Value) : Blameless (v.logBase m w) := by
  simp [logBase]

@[simp] theorem hyperbolic_blameless (f : Format → Binary → Binary)
    {g : Format → Point → Except Failure Point} (h : ∀ p z, Blameless (g p z)) (v : Value) :
    Blameless (hyperbolic f g v) := by
  cases v <;> simp [hyperbolic, h]

@[simp] theorem hyperbolicEverywhere_blameless (f : Format → Binary → Binary) (g : Format → Point → Point)
    (v : Value) : Blameless (hyperbolicEverywhere f g v) := by
  simp [hyperbolicEverywhere]

@[simp] theorem reciprocalHyperbolic_blameless (f : Format → Binary → Binary)
    (g : Format → Point → Except Fault Point) (v : Value) : Blameless (reciprocalHyperbolic f g v) := by
  cases v <;> simp [reciprocalHyperbolic]

@[simp] theorem tanh_blameless (v : Value) : Blameless v.tanh := by
  simp [tanh]

@[simp] theorem csch_blameless (v : Value) : Blameless v.csch := by
  simp [csch]

@[simp] theorem sech_blameless (v : Value) : Blameless v.sech := by
  simp [sech]

@[simp] theorem coth_blameless (v : Value) : Blameless v.coth := by
  simp [coth]

@[simp] theorem arcosh_blameless (m : Modes) (v : Value) : Blameless (v.arcosh m) := by
  unfold arcosh
  simp

@[simp] theorem artanh_blameless (m : Modes) (v : Value) : Blameless (v.artanh m) := by
  unfold artanh
  dsimp only
  split
  · exact hyperbolicEverywhere_blameless _ _ _
  · rw [blameless_bind]
    refine ⟨compareMagnitudeToOne_blameless v, ?_⟩
    intro o _
    split <;> simp

/-! ## Powers and roots -/

@[simp] theorem complexPower_blameless (v w : Value) : Blameless (v.complexPower w) := by
  simp [complexPower]

@[simp] theorem power_blameless (m : Modes) (v w : Value) : Blameless (v.power m w) := by
  simp [power, isNegative]

@[simp] theorem sqrt_blameless (m : Modes) (v : Value) : Blameless (v.sqrt m) := by
  cases v <;> simp [sqrt, isNegative]

@[simp] theorem cubeRoot_blameless (v : Value) : Blameless v.cubeRoot := by
  cases v <;> simp [cubeRoot]

@[simp] theorem rootByPower_blameless (f : Format) (x k : Binary) : Blameless (rootByPower f x k) := by
  simp [rootByPower]

@[simp] theorem nthRoot_blameless (m : Modes) (v n : Value) : Blameless (v.nthRoot m n) := by
  simp [nthRoot, isNegative]

/-! ## Functions of integers -/

@[simp] theorem wholeNumber_blameless {name : String} (h : Clear name) (v : Value) :
    Blameless (v.wholeNumber name) := by
  have refused : ¬ (Failure.numeric (.integerArguments name)).BlamesRow :=
    numeric_not_blamesRow (by simp [h])
  unfold wholeNumber
  cases v.toInteger? <;> simp [refused]

@[simp] theorem gamma_blameless (v : Value) : Blameless v.gamma := by
  unfold gamma
  cases v.realOrNone? <;> simp

@[simp] theorem factorial_blameless (v : Value) : Blameless v.factorial := by
  unfold factorial
  cases v.realOrNone? with
  | none => simp
  | some x =>
    dsimp only
    split <;> simp

@[simp] theorem combinations_blameless (v w : Value) : Blameless (v.combinations w) := by
  have name : Clear "comb" := by decide
  simp [combinations, name]

@[simp] theorem permutations_blameless (v w : Value) : Blameless (v.permutations w) := by
  have name : Clear "perm" := by decide
  simp [permutations, name]

@[simp] theorem gcd_blameless (args : List Value) : Blameless (gcd args) := by
  have name : Clear "gcd" := by decide
  simp [gcd, name]

@[simp] theorem lcm_blameless (args : List Value) : Blameless (lcm args) := by
  have name : Clear "lcm" := by decide
  simp [lcm, name]

@[simp] theorem isPrime_blameless (v : Value) : Blameless v.isPrime := by
  have name : Clear "isprime" := by decide
  simp [isPrime, name]

@[simp] theorem nextPrime_blameless (v : Value) : Blameless v.nextPrime := by
  have name : Clear "nextprime" := by decide
  simp [nextPrime, name]

/-! ## Functions of any number of arguments -/

@[simp] theorem realArguments_blameless {name : String} (h : Clear name) (args : List Value) :
    Blameless (realArguments name args) := by
  have refused : ¬ (Failure.numeric (.realArguments name)).BlamesRow :=
    numeric_not_blamesRow (by simp [h])
  simp [realArguments, refused]

@[simp] theorem noArguments_not_blamesRow : ¬ noArguments.BlamesRow := unexpected_not_blamesRow _ _

@[simp] theorem prefer_blameless (wanted : Int) (best candidate : Value) :
    Blameless (prefer wanted best candidate) := by
  simp [prefer]

@[simp] theorem extreme_blameless (wanted : Int) {name : String} (h : Clear name) (args : List Value) :
    Blameless (extreme wanted name args) := by
  unfold extreme
  rw [blameless_bind]
  refine ⟨realArguments_blameless h args, ?_⟩
  intro vs _
  cases vs <;> simp

@[simp] theorem sum_blameless (args : List Value) : Blameless (sum args) := by
  cases args <;> simp [sum]

@[simp] theorem ofDoubles_blameless (f : List Binary → Binary) (args : List Value) :
    Blameless (ofDoubles f args) := by
  simp [ofDoubles]

@[simp] theorem meanOf_blameless (args : List Value) : Blameless (meanOf args) := by
  unfold meanOf
  split
  · rw [blameless_bind]
    refine ⟨sum_blameless args, ?_⟩
    intro total _
    cases total <;> simp
  · exact ofDoubles_blameless _ _

@[simp] theorem mean_blameless (args : List Value) : Blameless (mean args) := by
  have name : Clear "mean" := by decide
  simp [mean, name]

@[simp] theorem medianOf_blameless (args : List Value) : Blameless (medianOf args) := by
  unfold medianOf
  split
  · simp
  · dsimp only
    split <;> simp

@[simp] theorem median_blameless (args : List Value) : Blameless (median args) := by
  have name : Clear "median" := by decide
  simp [median, name]

@[simp] theorem variance_blameless (args : List Value) : Blameless (variance args) := by
  have name : Clear "var" := by decide
  simp [variance, name]

@[simp] theorem deviation_blameless (args : List Value) : Blameless (deviation args) := by
  have name : Clear "std" := by decide
  simp [deviation, name]

/-! ## Roundings -/

@[simp] theorem integral_blameless {name : String} (h : Clear name) (round : Binary → Option Int)
    (mode : Rounding) (v : Value) : Blameless (integral name round mode v) := by
  have refused : ¬ (Failure.numeric (.complexRounding name)).BlamesRow :=
    numeric_not_blamesRow (by simp [h])
  cases v <;> simp [integral, refused]

@[simp] theorem ceil_blameless (v : Value) : Blameless v.ceil := integral_blameless (by decide) _ _ v

@[simp] theorem floor_blameless (v : Value) : Blameless v.floor := integral_blameless (by decide) _ _ v

end Value

@[simp] theorem randomInteger_blameless (draw : Nat) (low high : Value) :
    Blameless (randomInteger draw low high) := by
  have name : Clear "randint" := by decide
  simp [randomInteger, name]

/-! ## Rules -/

namespace Builtin

@[simp] theorem wrongArguments_not_blamesRow : ¬ wrongArguments.BlamesRow := unexpected_not_blamesRow _ _

@[simp] theorem one_blameless (m : Modes) (rule : Builtin) (v : Value) : Blameless (rule.one m v) := by
  unfold one
  split <;>
    simp [Value.csc, Value.sec, Value.cot, Value.arcsin, Value.arccos, Value.log10, Value.log2, Value.sinh,
      Value.cosh, Value.arsinh]

@[simp] theorem two_blameless (m : Modes) (draw : Nat) (rule : Builtin) (v w : Value) :
    Blameless (rule.two m draw v w) := by
  unfold two
  split <;> simp

/-- **The built-in functions are blameless.** -/
theorem apply_blameless (m : Modes) (draw : Nat) (rule : Builtin) (args : List Value) :
    Blameless (rule.apply m draw args) := by
  have least : Clear "min" := by decide
  have greatest : Clear "max" := by decide
  unfold apply
  split <;> simp [Value.least, Value.greatest, least, greatest]

end Builtin

/-- The rule belongs to the program around the calculator. -/
def OperatorRule.isHost : OperatorRule → Bool
  | .unary (.host _) => true
  | .binary (.host _) => true
  | _ => false

/-- A prefix operator of the calculator is blameless. -/
theorem UnaryRule.apply_blameless {rule : UnaryRule} (own : (OperatorRule.unary rule).isHost = false)
    (v : Value) : Blameless (rule.apply v) := by
  cases rule with
  | host call => cases own
  | _ => simp [apply]

/-- A binary operator of the calculator is blameless. -/
theorem BinaryRule.apply_blameless {rule : BinaryRule} (own : (OperatorRule.binary rule).isHost = false)
    (m : Modes) (o : Operands) : Blameless (rule.apply m o) := by
  cases rule with
  | host call => cases own
  | _ => simp [apply, ordered]

end SciCalc
