/-
  Searches whose function keeps a counter.

  1. **Counted attempts** (`Counted`) — attempts that find a counter and leave one behind, also when they fail.  One
     settles to a plain attempt if it comes to the same from zero and leaves zero behind (`Settles`).

  2. **Searches** (`settles_root?`, `settles_integral`) — a root search and a quadrature of a function whose values
     settle settle as well: they evaluate the function at one point after the other, and nothing else counts.
-/
import SciCalc.Proofs.Attempt
import SciCalc.Solver.Quadrature

namespace SciCalc

/-! ## Counted attempts -/

/-- An attempt with a counter: what it comes to, and the counter that it leaves behind. -/
def Counted (α : Type) : Type := Nat → Except Failure α × Nat

/-- The next attempt finds the counter that the last one has left; a failure ends the attempt. -/
instance : Monad Counted where
  pure a := fun n => (.ok a, n)
  bind p q := fun n =>
    match p n with
    | (.ok a, n') => q a n'
    | (.error failure, n') => (.error failure, n')

/-- A plain attempt leaves the counter alone. -/
instance : MonadLift (Except Failure) Counted := ⟨fun r n => (r, n)⟩

/-- **From zero the attempt comes to what the plain one comes to, and the counter is zero again.** -/
def Settles {α : Type} (p : Counted α) (r : Except Failure α) : Prop := p 0 = (r, 0)

theorem settles_pure {α : Type} (a : α) : Settles (pure a) (.ok a) := rfl

theorem settles_lift {α : Type} (r : Except Failure α) : Settles (liftM r) (liftM r) := rfl

theorem Settles.bind {α β : Type} {p : Counted α} {r : Except Failure α} {q : α → Counted β}
    {g : α → Except Failure β} (h : Settles p r) (hq : ∀ a, Settles (q a) (g a)) : Settles (p >>= q) (r >>= g) := by
  have hp : p 0 = (r, 0) := h
  show (match p 0 with
    | (.ok a, n) => q a n
    | (.error failure, n) => (.error failure, n)) = (r >>= g, 0)
  rw [hp]
  cases r with
  | error failure => rfl
  | ok a => exact hq a

namespace Solver

variable {f : Scalar Counted} {g : Scalar (Except Failure)}

/-! ## Root search -/

theorem settles_valueAt (h : ∀ x, Settles (f x) (g x)) (x : Binary) : Settles (valueAt f x) (valueAt g x) :=
  h x.toDouble

theorem settles_secantFrom (h : ∀ x, Settles (f x) (g x)) (fuel : Nat) : ∀ x₀ y₀ x₁ best,
    Settles (secantFrom f fuel x₀ y₀ x₁ best) (secantFrom g fuel x₀ y₀ x₁ best) := by
  induction fuel with
  | zero => exact fun _ _ _ _ => rfl
  | succ fuel ih =>
    intro x₀ y₀ x₁ best
    rw [secantFrom, secantFrom]
    refine (settles_valueAt h x₁).bind fun y₁ => ?_
    dsimp only
    split
    · exact settles_pure _
    · split
      · exact settles_pure _
      · split
        · exact settles_pure _
        · exact ih _ _ _ _

/-- **A root search settles** if the values of the function do. -/
theorem settles_root? (h : ∀ x, Settles (f x) (g x)) (first : Binary) (further : List Binary) :
    Settles (root? f first further) (root? g first further) := by
  unfold root?
  refine (settles_valueAt h first).bind fun y => ?_
  split
  · exact settles_pure _
  · split
    · exact settles_pure _
    · refine (settles_secantFrom h _ _ _ _ _).bind fun found => ?_
      split
      · exact settles_pure _
      · refine (settles_valueAt h _).bind fun z => ?_
        refine (settles_lift _).bind fun negligible => ?_
        split
        · exact settles_pure _
        · exact settles_pure _

/-! ## Quadrature -/

theorem settles_weightedSum (h : ∀ x, Settles (f x) (g x)) (ns : List Node) : ∀ sum special,
    Settles (weightedSum f sum special ns) (weightedSum g sum special ns) := by
  induction ns with
  | nil =>
    intro sum special
    cases special with
    | none => exact settles_pure _
    | some x => exact settles_pure _
  | cons n rest ih =>
    intro sum special
    rw [weightedSum, weightedSum]
    refine (settles_valueAt h n.point).bind fun y => ?_
    split
    · exact ih _ _
    · exact ih _ _

theorem settles_refine (h : ∀ x, Settles (f x) (g x)) (degree : Nat) (last : Option Binary) (ns : List Node) :
    Settles (refine f degree last ns) (refine g degree last ns) :=
  (settles_weightedSum h ns _ _).bind fun _ => settles_pure _

theorem settles_approximate (h : ∀ x, Settles (f x) (g x)) (interval : Interval) (backwards : Bool) (fuel : Nat) :
    ∀ degree found, Settles (approximate f interval backwards fuel degree found)
      (approximate g interval backwards fuel degree found) := by
  induction fuel with
  | zero => exact fun _ _ => rfl
  | succ fuel ih =>
    intro degree found
    rw [approximate, approximate]
    dsimp only
    refine (settles_refine h degree _ _).bind fun x => ?_
    split
    · refine (settles_lift _).bind fun accurate => ?_
      split
      · exact settles_pure _
      · exact ih _ _
    · exact ih _ _

theorem settles_integralOver (h : ∀ x, Settles (f x) (g x)) (interval : Interval) (backwards : Bool) :
    Settles (integralOver f interval backwards) (integralOver g interval backwards) :=
  (settles_approximate h interval backwards _ _ _).bind fun _ => settles_pure _

theorem settles_folded (h : ∀ x, Settles (f x) (g x)) (x : Binary) : Settles (folded f x) (folded g x) :=
  (h x.neg).bind fun _ => (h x).bind fun _ => settles_pure _

/-- **A quadrature settles** if the values of the function do. -/
theorem settles_integral (h : ∀ x, Settles (f x) (g x)) (fold : Bool) (a b : Binary) :
    Settles (integral f fold a b) (integral g fold a b) := by
  unfold integral
  split
  · exact settles_integralOver (settles_folded h) _ _
  · exact settles_integralOver h _ _

end Solver

end SciCalc
