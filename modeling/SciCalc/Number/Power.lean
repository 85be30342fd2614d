/-
  Powers.

  A power of a natural number or an integer is the one of the core library, so that a definition means the
  same whatever else is in scope.
-/
namespace SciCalc

attribute [scoped instance (high)] instPowNat

end SciCalc
