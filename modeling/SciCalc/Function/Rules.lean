/-
  The built-in rules: what each built-in function computes.

  `draw` numbers the draws of random numbers within an evaluation.
-/
import SciCalc.Function.Combinatorics
import SciCalc.Function.Exponential
import SciCalc.Function.Statistics
import SciCalc.Function.Trigonometry
import SciCalc.Function.Registry

namespace SciCalc

namespace Value

/-! ## Parts and roundings -/

/-- The magnitude. -/
def abs : Value → Value
  | complex z => .real z.magnitude
  | integer n => .integer n.natAbs
  | decimal x ctx => .decimal x.abs ctx
  | real x => .real x.abs

/-- A value rounded to an integer; infinite and undefined doubles stay. -/
def integral (name : String) (round : Binary → Option Int) (mode : Rounding) : Value → Except Failure Value
  | complex _ => .error (.numeric (.complexRounding name))
  | integer n => .ok (.integer n)
  | decimal x ctx => do return .decimal (← ofFault (x.toIntegral mode)) ctx
  | real x => .ok (.real (match x.isFinite, round x with
      | true, some n => Double.ofInt n
      | _, _ => x))

/-- The least integer that is not less. -/
def ceil : Value → Except Failure Value := integral "ceil" Binary.ceil? .ceiling

/-- The greatest integer that is not greater. -/
def floor : Value → Except Failure Value := integral "floor" Binary.floor? .floor

/-- The real part. -/
def realPart : Value → Value
  | complex z => .real z.re
  | v => v

/-- The imaginary part. -/
def imaginaryPart : Value → Value
  | complex z => .real z.im
  | _ => .real .zero

/-- The conjugate. -/
def conjugate : Value → Value
  | complex z => .complex z.conjugate
  | v => v

end Value

/-! ## Random numbers -/

/-- The number `2 ^ 64`. -/
def wordCount : Nat := 0x10000000000000000

/-- A number below `2 ^ 64` that depends on every bit of another one. -/
def scramble (n : Nat) : Nat :=
  let step (x shift factor : Nat) : Nat := ((x ^^^ (x >>> shift)) * factor) % wordCount
  let x := ((n + 1) * 0x9e3779b97f4a7c15) % wordCount
  let x := step (step x 30 0xbf58476d1ce4e5b9) 27 0x94d049bb133111eb
  x ^^^ (x >>> 31)

/-- A random double from zero to one, one excluded. -/
def randomUnit (draw : Nat) : Binary := Format.double.round false (scramble draw >>> 11) (-53)

/-- A random natural number below a positive one. -/
def randomBelow (draw n : Nat) : Nat :=
  let bits := n.log2 / 64 + 2
  ((List.range bits).foldl (fun acc i => acc * wordCount + scramble (draw + 7919 * i)) 0) % n

/-- A random integer between two bounds. -/
def randomInteger (draw : Nat) (low high : Value) : Except Failure Value := do
  let a ← low.wholeNumber "randint"
  let b ← high.wholeNumber "randint"
  if b < a then .error (.numeric .emptyRange)
  else return .integer (a + randomBelow draw (b - a + 1).toNat)

/-! ## Application -/

namespace Builtin

/-- The failure of a rule that is given a number of arguments it does not take. -/
def wrongArguments : Failure := .unexpected "TypeError" "wrong number of arguments"

/-- A rule of one argument. -/
def one (m : Modes) (rule : Builtin) (v : Value) : Except Failure Value :=
  match rule with
  | .sin => v.sin m
  | .cos => v.cos m
  | .tan => v.tan m
  | .csc => v.csc m
  | .sec => v.sec m
  | .cot => v.cot m
  | .arcsin => v.arcsin m
  | .arccos => v.arccos m
  | .arctan => v.arctan m
  | .sinh => v.sinh
  | .cosh => v.cosh
  | .tanh => v.tanh
  | .csch => v.csch
  | .sech => v.sech
  | .coth => v.coth
  | .arsinh => v.arsinh
  | .arcosh => v.arcosh m
  | .artanh => v.artanh m
  | .exp => v.exp
  | .ln => v.ln m
  | .log10 => v.log10 m
  | .log2 => v.log2 m
  | .sqrt => v.sqrt m
  | .cubeRoot => v.cubeRoot
  | .factorial => v.factorial
  | .gamma => v.gamma
  | .abs => .ok v.abs
  | .ceil => v.ceil
  | .floor => v.floor
  | .round => m.round v
  | .realPart => .ok v.realPart
  | .imaginaryPart => .ok v.imaginaryPart
  | .conjugate => .ok v.conjugate
  | .argument => v.argument m
  | .isPrime => v.isPrime
  | .nextPrime => v.nextPrime
  | _ => .error wrongArguments

/-- A rule of two arguments. -/
def two (m : Modes) (draw : Nat) (rule : Builtin) (v w : Value) : Except Failure Value :=
  match rule with
  | .arctan2 => v.arctan2 m w
  | .logBase => v.logBase m w
  | .power => v.power m w
  | .nthRoot => v.nthRoot m w
  | .combinations => v.combinations w
  | .permutations => v.permutations w
  | .randomInteger => SciCalc.randomInteger draw v w
  | _ => .error wrongArguments

/-- **What a built-in rule computes.** -/
def apply (m : Modes) (draw : Nat) (rule : Builtin) (args : List Value) : Except Failure Value :=
  match rule, args with
  | .least, args => Value.least args
  | .greatest, args => Value.greatest args
  | .sum, args => Value.sum args
  | .mean, args => Value.mean args
  | .median, args => Value.median args
  | .deviation, args => Value.deviation args
  | .variance, args => Value.variance args
  | .gcd, args => Value.gcd args
  | .lcm, args => Value.lcm args
  | .random, [] => .ok (.real (randomUnit draw))
  | rule, [v] => rule.one m v
  | rule, [v, w] => rule.two m draw v w
  | _, _ => .error wrongArguments

end Builtin

namespace Registry

/-- The built-in functions. -/
def builtinFunctions : List Function :=
  Builtin.entries.map fun e => ⟨e.name, e.arity, .builtin e.rule, e.description, e.category, false⟩

/-- The built-in functions with the default aliases. -/
def builtins : Registry := ⟨builtinFunctions, defaultAliases⟩

end Registry

end SciCalc
