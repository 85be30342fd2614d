/-
  The built-in functions: what there is, under which names, and what is told about each.
-/
namespace SciCalc

/-- How many arguments a function takes. -/
inductive Arity where
  /-- So many. -/
  | exactly (count : Nat)
  /-- One or more. -/
  | variadic
deriving DecidableEq, Inhabited

/-- A built-in rule of computation. -/
inductive Builtin where
  | sin
  | cos
  | tan
  | csc
  | sec
  | cot
  | arcsin
  | arccos
  | arctan
  | arctan2
  | sinh
  | cosh
  | tanh
  | csch
  | sech
  | coth
  | arsinh
  | arcosh
  | artanh
  | exp
  | ln
  | log10
  | log2
  | logBase
  | power
  | sqrt
  | cubeRoot
  | nthRoot
  | factorial
  | gamma
  | combinations
  | permutations
  | abs
  | ceil
  | floor
  | round
  | least
  | greatest
  | sum
  | mean
  | median
  | deviation
  | variance
  | realPart
  | imaginaryPart
  | conjugate
  | argument
  | gcd
  | lcm
  | isPrime
  | nextPrime
  | random
  | randomInteger
deriving DecidableEq, Inhabited

namespace Builtin

/-- A built-in function: its name, how many arguments it takes, its rule, its help text and its group. -/
structure Entry where
  name : String
  arity : Arity
  rule : Builtin
  description : String
  category : String
deriving DecidableEq

/-- A function of a fixed number of arguments. -/
def fixed (name : String) (count : Nat) (rule : Builtin) (description category : String) : Entry :=
  ⟨name, .exactly count, rule, description, category⟩

/-- A function of one argument or more. -/
def many (name : String) (rule : Builtin) (description category : String) : Entry :=
  ⟨name, .variadic, rule, description, category⟩

/-- The built-in functions in the order in which they are listed. -/
def entries : List Entry :=
  [
    fixed "sin" 1 .sin "Sine" "trigonometric",
    fixed "cos" 1 .cos "Cosine" "trigonometric",
    fixed "tan" 1 .tan "Tangent" "trigonometric",
    fixed "csc" 1 .csc "Cosecant" "trigonometric",
    fixed "sec" 1 .sec "Secant" "trigonometric",
    fixed "cot" 1 .cot "Cotangent" "trigonometric",
    fixed "asin" 1 .arcsin "Inverse sine" "trigonometric",
    fixed "acos" 1 .arccos "Inverse cosine" "trigonometric",
    fixed "atan" 1 .arctan "Inverse tangent" "trigonometric",
    fixed "atan2" 2 .arctan2 "Angle of the point (x, y), called as atan2(y, x)" "trigonometric",
    fixed "sinh" 1 .sinh "Hyperbolic sine" "hyperbolic",
    fixed "cosh" 1 .cosh "Hyperbolic cosine" "hyperbolic",
    fixed "tanh" 1 .tanh "Hyperbolic tangent" "hyperbolic",
    fixed "csch" 1 .csch "Hyperbolic cosecant" "hyperbolic",
    fixed "sech" 1 .sech "Hyperbolic secant" "hyperbolic",
    fixed "coth" 1 .coth "Hyperbolic cotangent" "hyperbolic",
    fixed "asinh" 1 .arsinh "Inverse hyperbolic sine" "hyperbolic",
    fixed "acosh" 1 .arcosh "Inverse hyperbolic cosine" "hyperbolic",
    fixed "atanh" 1 .artanh "Inverse hyperbolic tangent" "hyperbolic",
    fixed "exp" 1 .exp "Exponential function e^x" "logarithmic",
    fixed "ln" 1 .ln "Natural logarithm" "logarithmic",
    fixed "log" 1 .log10 "Base-10 logarithm" "logarithmic",
    fixed "log10" 1 .log10 "Base-10 logarithm" "logarithmic",
    fixed "log2" 1 .log2 "Base-2 logarithm" "logarithmic",
    fixed "logb" 2 .logBase "Logarithm of x in the given base" "logarithmic",
    fixed "pow" 2 .power "x raised to the power y" "power",
    fixed "sqrt" 1 .sqrt "Square root" "power",
    fixed "cbrt" 1 .cubeRoot "Cube root" "power",
    fixed "nthroot" 2 .nthRoot "n-th root of x" "power",
    fixed "factorial" 1 .factorial "Factorial (gamma(x + 1) for non-integers)" "special",
    fixed "gamma" 1 .gamma "Gamma function" "special",
    fixed "comb" 2 .combinations "Number of combinations C(n, k)" "special",
    fixed "perm" 2 .permutations "Number of permutations P(n, k)" "special",
    fixed "abs" 1 .abs "Absolute value or complex magnitude" "rounding",
    fixed "ceil" 1 .ceil "Smallest integer not less than x" "rounding",
    fixed "floor" 1 .floor "Largest integer not greater than x" "rounding",
    fixed "round" 1 .round "Round to an integer using the rounding mode" "rounding",
    many "min" .least "Smallest argument" "statistical",
    many "max" .greatest "Largest argument" "statistical",
    many "sum" .sum "Sum of the arguments" "statistical",
    many "mean" .mean "Arithmetic mean" "statistical",
    many "median" .median "Median" "statistical",
    many "std" .deviation "Population standard deviation" "statistical",
    many "var" .variance "Population variance" "statistical",
    fixed "re" 1 .realPart "Real part" "complex",
    fixed "im" 1 .imaginaryPart "Imaginary part" "complex",
    fixed "conj" 1 .conjugate "Complex conjugate" "complex",
    fixed "arg" 1 .argument "Argument (phase angle)" "complex",
    many "gcd" .gcd "Greatest common divisor" "number_theory",
    many "lcm" .lcm "Least common multiple" "number_theory",
    fixed "isprime" 1 .isPrime "1 if the argument is prime, else 0" "number_theory",
    fixed "nextprime" 1 .nextPrime "Smallest prime greater than the argument" "number_theory",
    fixed "random" 0 .random "Uniform random number in [0, 1)" "random",
    fixed "randint" 2 .randomInteger "Random integer in [low, high]" "random"
  ]

example : entries.length = 54 := rfl

end Builtin

end SciCalc
