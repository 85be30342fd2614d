/-
  The least and the greatest argument.

  1. **Stacks** (`run_stands`) — what stands on the stack of an evaluation and is real, is a value of the regime.

  2. **Best values** (`Value.Best`) — the best of some values is one of them, and none of them comes before it in the
     order that is asked for.  Preferring a candidate to the best value so far gives the best of all so far
     (`Best.prefer`), so that a fold gives the best value of all (`Best.foldlM`).

  3. **Where there is one** (`exists_extreme_iff`) — a comparison fails only over an undefined decimal, or over an
     integer that is too large for a double beside it.

  4. **Theorem** (`least_greatest_perm`) — the order of the arguments makes a difference to whether the least and the
     greatest argument are found only where an integer is too large, and to what they are only where a double is
     undefined (`order_decides`).

  The crux is that a comparison that does not fail is exact, so that whatever conversions the order of the arguments
  brings about, the value that is left is a least one of all.
-/
import SciCalc.Function.Statistics
import SciCalc.Proofs.Value.Order
import SciCalc.Proofs.Value.Rereading

namespace SciCalc

open Attempt

/-! ## Stacks -/

namespace Value

variable {m : Modes} {v : Value}

/-- A real value is an ordinary one: a double is one of double precision, and in the exact regime it is not whole. -/
structure Ordinary (m : Modes) (v : Value) : Prop where
  /-- The value is not complex. -/
  isReal : v.isComplex = false
  /-- A double is one of double precision. -/
  double : ∀ x, v = .real x → x.IsDouble
  /-- In the exact regime a whole double is an integer. -/
  fraction : m.regime = .exact → ∀ x, v = .real x → x.isIntegral = false

/-- An ordinary value of the regime that is read again as itself can stand on the stack. -/
theorem Ordinary.stands (h : v.Ordinary m) (native : v.Native m) (again : m.Rereads v) : v.Stands m := by
  cases v with
  | complex z => cases h.isReal
  | integer n => exact native
  | decimal x ctx => exact native
  | real x =>
    refine ⟨h.double x rfl, ?_⟩
    cases hregime : m.regime with
    | decimal => exact absurd hregime native
    | exact => exact Or.inr ⟨rfl, h.fraction hregime x rfl⟩
    | double =>
      have hkept : m.normalize (.real x) = .ok (.real x) := by
        rcases again (fun h => by rw [hregime] at h; cases h) with hkept | ⟨-, hkept⟩ <;> exact hkept
      obtain ⟨y, hcheck, hnormal⟩ := bind_eq_ok.mp hkept
      obtain rfl := Modes.eq_of_check hcheck
      exact Or.inl ⟨rfl, hcheck⟩

end Value

/-- **What stands on the stack of an evaluation**, if it is an ordinary value. -/
theorem Evaluation.run_stands {call : Caller} {env : Environment}
    (hleast : Limit.leastPrecision ≤ env.modes.precision) (ts : List Token) :
    Gives (Machine.Holds fun v => v.Ordinary env.modes → v.Stands env.modes) (run call env start ts) := by
  have stands : ∀ {r : Except Failure Value}, Gives (Value.Native env.modes) r → Gives env.modes.Rereads r →
      Gives (fun v => v.Ordinary env.modes → v.Stands env.modes) r := fun native again v hv ordinary =>
    ordinary.stands (native v hv) (again v hv)
  refine run_holds (fun v => ?_) (fun text => ?_) ts fun v hv => absurd hv List.not_mem_nil
  · exact stands (Modes.normalize_native hleast v) (Modes.normalize_rereads hleast v)
  · exact stands (Modes.literal_native hleast text) (Modes.literal_rereads hleast text)

namespace Value

variable {m : Modes} {u v w best candidate : Value} {vs ws seen rest : List Value} {o : Ordering}

/-! ## Best values -/

/-- All values can be compared, or there is nothing to compare. -/
def Comparable (vs : List Value) : Prop := vs.length = 1 ∨ ∀ u ∈ vs, u.isComparable = true

/-- The value is on the side `o` of the other one, where both have places. -/
def Before (o : Ordering) (v w : Value) : Prop :=
  ∃ p q, v.place? = some p ∧ w.place? = some q ∧ cmp p q = o

/-- **The value is the best of the values**: none of them stands on the side `o` of it. -/
structure Best (o : Ordering) (vs : List Value) (v : Value) : Prop where
  /-- It is one of them. -/
  mem : v ∈ vs
  /-- None comes before it. -/
  unbeaten : ∀ u ∈ vs, ¬ Before o u v
  /-- They have been compared. -/
  comparable : Comparable vs

theorem compareAt_eq_iff {p q : Place} {o : Ordering} (ho : o ≠ .eq) :
    compareAt p q = Operands.compare.sign (some o) ↔ cmp p q = o := by
  rw [compareAt]
  cases cmp p q <;> cases o <;> first | exact absurd rfl ho | decide

/-- What comes before a value that comes before another one comes before the other one as well. -/
theorem Before.trans (huv : Before o u v) (hvw : Before o v w) : Before o u w := by
  obtain ⟨p, q, hp, hq, hpq⟩ := huv
  obtain ⟨q', r, hq', hr, hqr⟩ := hvw
  obtain rfl : q = q' := Option.some.inj (hq.symm.trans hq')
  refine ⟨p, r, hp, hr, ?_⟩
  cases o with
  | lt => exact (cmp_eq_lt_iff _ _).mpr (((cmp_eq_lt_iff _ _).mp hpq).trans ((cmp_eq_lt_iff _ _).mp hqr))
  | eq => exact (cmp_eq_eq_iff _ _).mpr (((cmp_eq_eq_iff _ _).mp hpq).trans ((cmp_eq_eq_iff _ _).mp hqr))
  | gt => exact (cmp_eq_gt_iff _ _).mpr (((cmp_eq_gt_iff _ _).mp hqr).trans ((cmp_eq_gt_iff _ _).mp hpq))

/-- No value comes before itself. -/
theorem Before.irrefl (ho : o ≠ .eq) : ¬ Before o v v := by
  rintro ⟨p, q, hp, hq, hpq⟩
  obtain rfl : p = q := Option.some.inj (hp.symm.trans hq)
  rw [cmp_self_eq_eq] at hpq
  exact ho hpq.symm

/-- Of two places neither of which comes before the other both are one. -/
theorem eq_of_cmp_ne {p q : Place} (ho : o ≠ .eq) (hpq : cmp p q ≠ o) (hqp : cmp q p ≠ o) : p = q := by
  cases o with
  | eq => exact absurd rfl ho
  | lt =>
    rw [ne_eq, cmp_eq_lt_iff, not_lt] at hpq hqp
    exact le_antisymm hqp hpq
  | gt =>
    rw [ne_eq, cmp_eq_gt_iff, not_lt] at hpq hqp
    exact le_antisymm hpq hqp

/-- **A step of the search**: the candidate is taken exactly if it comes before the best value so far.  There is no
    step only where the two cannot be compared. -/
theorem prefer_cases (hleast : Limit.leastPrecision ≤ m.precision) (ho : o ≠ .eq) (hb : best.Stands m)
    (hc : candidate.Stands m) :
    (∃ u, prefer (Operands.compare.sign (some o)) best candidate = .ok u ∧
      candidate.isComparable = true ∧ best.isComparable = true ∧
      (Before o candidate best ∧ u = candidate ∨ ¬ Before o candidate best ∧ u = best)) ∨
    ∃ f, prefer (Operands.compare.sign (some o)) best candidate = .error f ∧
      (candidate.isComparable = false ∨ best.isComparable = false ∨ Crowded [candidate, best]) := by
  have hprefer : prefer (Operands.compare.sign (some o)) best candidate
      = (candidate.promote best >>= Operands.compare) >>= fun n =>
        pure (if n = Operands.compare.sign (some o) then candidate else best) := by
    unfold prefer
    cases candidate.promote best <;> rfl
  rw [hprefer]
  rcases comparing_of_stands hleast hc hb with
    ⟨hp, hq, hcompare⟩ | ⟨hnone, hcandidate, hbest, hcompare⟩ | ⟨hcompare, hreason⟩
  · rename_i p q
    refine Or.inl ⟨_, by rw [hcompare]; rfl, isComparable_of_place? hp, isComparable_of_place? hq, ?_⟩
    by_cases hbefore : cmp p q = o
    · exact Or.inl ⟨⟨p, q, hp, hq, hbefore⟩, if_pos ((compareAt_eq_iff ho).mpr hbefore)⟩
    · refine Or.inr ⟨?_, if_neg fun h => hbefore ((compareAt_eq_iff ho).mp h)⟩
      rintro ⟨p', q', hp', hq', h⟩
      obtain rfl : p = p' := Option.some.inj (hp.symm.trans hp')
      obtain rfl : q = q' := Option.some.inj (hq.symm.trans hq')
      exact hbefore h
  · -- what has no place counts as equal, so that the best value stays
    refine Or.inl ⟨_, by rw [hcompare]; rfl, hcandidate, hbest, Or.inr ⟨?_, if_neg ?_⟩⟩
    · rintro ⟨p, q, hp, hq, -⟩
      rcases hnone with hnone | hnone
      · rw [hp] at hnone
        cases hnone
      · rw [hq] at hnone
        cases hnone
    · cases o with
      | eq => exact absurd rfl ho
      | lt | gt => decide
  · rw [hcompare]
    exact Or.inr ⟨_, rfl, hreason⟩

/-- **A step keeps the best value.** -/
theorem Best.prefer (hleast : Limit.leastPrecision ≤ m.precision) (ho : o ≠ .eq) (hb : best.Stands m)
    (hc : candidate.Stands m) (h : Best o seen best) :
    Gives (Best o (seen ++ [candidate])) (prefer (Operands.compare.sign (some o)) best candidate) := by
  intro v hv
  rcases prefer_cases hleast ho hb hc with ⟨v', hv', hcandidate, hbest, hcases⟩ | ⟨f, herror, -⟩
  swap
  · rw [herror] at hv
    cases hv
  obtain rfl : v' = v := Except.ok.inj (hv'.symm.trans hv)
  have comparable : Comparable (seen ++ [candidate]) := by
    refine Or.inr (List.forall_mem_append.mpr ⟨?_, List.forall_mem_singleton.mpr hcandidate⟩)
    rcases h.comparable with hone | hall
    · obtain ⟨u, rfl⟩ := List.length_eq_one_iff.mp hone
      rw [← List.mem_singleton.mp h.mem]
      exact List.forall_mem_singleton.mpr hbest
    · exact hall
  rcases hcases with ⟨hbefore, rfl⟩ | ⟨hafter, rfl⟩
  · refine ⟨by simp, List.forall_mem_append.mpr ⟨fun u hu => ?_, ?_⟩, comparable⟩
    · -- what comes before the candidate would come before the old best value
      exact fun h' => h.unbeaten u hu (h'.trans hbefore)
    · exact List.forall_mem_singleton.mpr (Before.irrefl ho)
  · exact ⟨List.mem_append_left _ h.mem,
      List.forall_mem_append.mpr ⟨h.unbeaten, List.forall_mem_singleton.mpr hafter⟩, comparable⟩

/-- **A fold gives the best value of all.** -/
theorem Best.foldlM (hleast : Limit.leastPrecision ≤ m.precision) (ho : o ≠ .eq) (hseen : ∀ u ∈ seen, u.Stands m)
    (hrest : ∀ u ∈ rest, u.Stands m) (h : Best o seen best) :
    Gives (Best o (seen ++ rest)) (rest.foldlM (Value.prefer (Operands.compare.sign (some o))) best) := by
  induction rest generalizing seen best with
  | nil =>
    rw [List.append_nil]
    exact gives_ok.mpr h
  | cons c rest ih =>
    obtain ⟨hc, hrest⟩ := List.forall_mem_cons.mp hrest
    rw [List.foldlM_cons, List.append_cons]
    refine (h.prefer hleast ho (hseen _ h.mem) hc).bind fun v hv => ih ?_ hrest hv
    exact List.forall_mem_append.mpr ⟨hseen, List.forall_mem_singleton.mpr hc⟩

/-! ## Where there is one -/

theorem Crowded.mono (h : Crowded vs) (hsub : vs ⊆ ws) : Crowded ws := by
  obtain ⟨n, x, hn, hx, hlarge⟩ := h
  exact ⟨n, x, hsub hn, hsub hx, hlarge⟩

/-- A fold finds a value if all can be compared, as long as no integer is too large for a double beside it. -/
theorem exists_foldlM (hleast : Limit.leastPrecision ≤ m.precision) (ho : o ≠ .eq)
    (hall : ∀ u ∈ best :: rest, u.Stands m) (hcrowd : ¬ Crowded (best :: rest))
    (hcomparable : ∀ u ∈ best :: rest, u.isComparable = true) :
    ∃ v, rest.foldlM (Value.prefer (Operands.compare.sign (some o))) best = .ok v := by
  induction rest generalizing best with
  | nil => exact ⟨best, rfl⟩
  | cons c rest ih =>
    obtain ⟨hb, hc, hrest⟩ := List.forall_mem_cons.mp hall |>.imp_right List.forall_mem_cons.mp
    obtain ⟨hbest, hcandidate, hothers⟩ :=
      List.forall_mem_cons.mp hcomparable |>.imp_right List.forall_mem_cons.mp
    rcases prefer_cases hleast ho hb hc with ⟨v, hv, -, -, hcases⟩ | ⟨f, -, hreason⟩
    · rw [List.foldlM_cons, hv]
      -- the value that is preferred is one of the two
      rcases hcases with ⟨-, rfl⟩ | ⟨-, rfl⟩
      · exact ih (List.forall_mem_cons.mpr ⟨hc, hrest⟩) (fun h => hcrowd (h.mono (List.subset_cons_self _ _)))
          (List.forall_mem_cons.mpr ⟨hcandidate, hothers⟩)
      · exact ih (List.forall_mem_cons.mpr ⟨hb, hrest⟩)
          (fun h => hcrowd (h.mono (List.cons_subset_cons _ (List.subset_cons_self _ _))))
          (List.forall_mem_cons.mpr ⟨hbest, hothers⟩)
    · rcases hreason with hno | hno | hlarge
      · rw [hno] at hcandidate
        cases hcandidate
      · rw [hno] at hbest
        cases hbest
      · exact absurd (hlarge.mono (by simp)) hcrowd

variable {name : String}

/-- The extreme of real values is found by a fold. -/
theorem extreme_cons (n : Int) (name : String) (hreal : ∀ u ∈ v :: rest, u.isComplex = false) :
    extreme n name (v :: rest) = rest.foldlM (prefer n) v := by
  have hnone : (v :: rest).any (·.isComplex) = false := by
    rw [List.any_eq_false]
    exact fun u hu => Bool.eq_false_iff.mp (hreal u hu)
  rw [extreme, realArguments, hnone, if_neg Bool.false_ne_true]
  rfl

theorem Stands.isComplex (h : v.Stands m) : v.isComplex = false := by
  cases v with
  | complex z => exact absurd h id
  | _ => rfl

/-- **The extreme of values is the best of them.** -/
theorem best_of_extreme (hleast : Limit.leastPrecision ≤ m.precision) (ho : o ≠ .eq) (hall : ∀ u ∈ vs, u.Stands m) :
    Gives (Best o vs) (extreme (Operands.compare.sign (some o)) name vs) := by
  cases vs with
  | nil => exact gives_error _
  | cons v rest =>
    rw [extreme_cons _ _ fun u hu => (hall u hu).isComplex]
    have hone : Best o [v] v :=
      ⟨List.mem_singleton_self v, List.forall_mem_singleton.mpr (Before.irrefl ho), Or.inl rfl⟩
    have hv := (List.forall_mem_cons.mp hall).1
    exact hone.foldlM hleast ho (List.forall_mem_singleton.mpr hv) (List.forall_mem_cons.mp hall).2

/-- **Values have an extreme** exactly if there is only one of them or all can be compared, as long as no integer is
    too large for a double beside it. -/
theorem exists_extreme_iff (hleast : Limit.leastPrecision ≤ m.precision) (ho : o ≠ .eq) (hall : ∀ u ∈ vs, u.Stands m)
    (hcrowd : ¬ Crowded vs) (hne : vs ≠ []) :
    (∃ v, extreme (Operands.compare.sign (some o)) name vs = .ok v) ↔ Comparable vs := by
  refine ⟨fun ⟨v, hv⟩ => (best_of_extreme hleast ho hall v hv).comparable, fun h => ?_⟩
  obtain ⟨v, rest, rfl⟩ := List.exists_cons_of_ne_nil hne
  rw [extreme_cons _ _ fun u hu => (hall u hu).isComplex]
  rcases h with hone | hcomparable
  · obtain rfl : rest = [] := List.length_eq_zero_iff.mp (Nat.succ.inj hone)
    exact ⟨v, rfl⟩
  · exact exists_foldlM hleast ho hall hcrowd hcomparable

/-! ## Theorem -/

/-- The best of the same values in another order has the same place, as long as no double is undefined. -/
theorem Best.place?_eq (ho : o ≠ .eq) (hv : Best o vs v) (hw : Best o ws w) (hperm : vs.Perm ws)
    (defined : ∀ x, .real x ∈ vs → x.isNaN = false) : v.place? = w.place? := by
  have hwmem : w ∈ vs := hperm.mem_iff.mpr hw.mem
  rcases hv.comparable with hone | hcomparable
  · obtain ⟨u, rfl⟩ := List.length_eq_one_iff.mp hone
    rw [List.mem_singleton.mp hv.mem, List.mem_singleton.mp hwmem]
  · have exists_place : ∀ u ∈ vs, ∃ p, u.place? = some p := fun u hu =>
      exists_place?_of_isComparable (hcomparable u hu) fun x hx => defined x (hx ▸ hu)
    obtain ⟨p, hp⟩ := exists_place v hv.mem
    obtain ⟨q, hq⟩ := exists_place w hwmem
    have hpq : cmp p q ≠ o := fun h => hw.unbeaten v (hperm.mem_iff.mp hv.mem) ⟨p, q, hp, hq, h⟩
    have hqp : cmp q p ≠ o := fun h => hv.unbeaten w hwmem ⟨q, p, hq, hp, h⟩
    rw [hp, hq, eq_of_cmp_ne ho hpq hqp]

/-- A half can stand on the stack in the exact regime. -/
theorem half_stands : (Value.real Double.half).Stands { Modes.initial with regime := .exact } :=
  ⟨by decide, Or.inr ⟨rfl, by decide⟩⟩

/-- **The least and the greatest argument in any order of the arguments.**  Of values of one regime the least is one
    that is not greater than any, and the greatest is one that is not less than any.  As long as no integer is too
    large for a double beside it, there are such values exactly if there is only one argument or all can be compared,
    in whatever order they are.  As long as no double is undefined, they have the same place in another order. -/
theorem least_greatest_perm (hleast : Limit.leastPrecision ≤ m.precision) (hall : ∀ u ∈ vs, u.Stands m)
    (hne : vs ≠ []) (hperm : vs.Perm ws) :
    (∀ choose ∈ [least, greatest],
      (¬ Crowded vs → ((∃ v, choose vs = .ok v) ↔ Comparable vs) ∧ ((∃ w, choose ws = .ok w) ↔ Comparable vs)) ∧
      ((∀ x, .real x ∈ vs → x.isNaN = false) →
        ∀ v w, choose vs = .ok v → choose ws = .ok w → v.place? = w.place?)) ∧
    (∀ v, least vs = .ok v → v ∈ vs ∧ ∀ u ∈ vs, ∀ p q, u.place? = some p → v.place? = some q → q ≤ p) ∧
    (∀ v, greatest vs = .ok v → v ∈ vs ∧ ∀ u ∈ vs, ∀ p q, u.place? = some p → v.place? = some q → p ≤ q) := by
  have hall' : ∀ u ∈ ws, u.Stands m := fun u hu => hall u (hperm.mem_iff.mpr hu)
  have hne' : ws ≠ [] := by
    rintro rfl
    exact hne hperm.eq_nil
  have hcomparable : Comparable ws ↔ Comparable vs := by
    rw [Comparable, Comparable, hperm.length_eq]
    exact or_congr_right (forall_congr' fun u => by rw [hperm.mem_iff])
  have same : ∀ {o : Ordering}, o ≠ .eq → ∀ name,
      (¬ Crowded vs →
        ((∃ v, extreme (Operands.compare.sign (some o)) name vs = .ok v) ↔ Comparable vs) ∧
        ((∃ w, extreme (Operands.compare.sign (some o)) name ws = .ok w) ↔ Comparable vs)) ∧
      ((∀ x, .real x ∈ vs → x.isNaN = false) →
        ∀ v w, extreme (Operands.compare.sign (some o)) name vs = .ok v →
          extreme (Operands.compare.sign (some o)) name ws = .ok w → v.place? = w.place?) := by
    intro o ho name
    refine ⟨fun hcrowd => ⟨exists_extreme_iff hleast ho hall hcrowd hne, ?_⟩, fun defined v w hv hw => ?_⟩
    · rw [← hcomparable]
      exact exists_extreme_iff hleast ho hall' (fun h => hcrowd (h.mono hperm.symm.subset)) hne'
    · exact (best_of_extreme hleast ho hall v hv).place?_eq ho (best_of_extreme hleast ho hall' w hw) hperm defined
  refine ⟨?_, fun v hv => ?_, fun v hv => ?_⟩
  · have hleast' := same (by decide : Ordering.lt ≠ .eq) "min"
    have hgreatest' := same (by decide : Ordering.gt ≠ .eq) "max"
    exact List.forall_mem_cons.mpr ⟨hleast', List.forall_mem_singleton.mpr hgreatest'⟩
  · have hbest := best_of_extreme (o := .lt) hleast (by decide) hall v hv
    refine ⟨hbest.mem, fun u hu p q hp hq => ?_⟩
    exact not_lt.mp fun hlt => hbest.unbeaten u hu ⟨p, q, hp, hq, (cmp_eq_lt_iff _ _).mpr hlt⟩
  · have hbest := best_of_extreme (o := .gt) hleast (by decide) hall v hv
    refine ⟨hbest.mem, fun u hu p q hp hq => ?_⟩
    exact not_lt.mp fun hlt => hbest.unbeaten u hu ⟨p, q, hp, hq, (cmp_eq_gt_iff _ _).mpr hlt⟩

/-- Two integers and a half in the exact regime. -/
theorem least_greatest_perm_half :
    let m := { Modes.initial with regime := .exact }
    let vs : List Value := [.integer 3, .real Double.half, .integer 1]
    let ws : List Value := [.real Double.half, .integer 1, .integer 3]
    (∀ u ∈ vs, u.Stands m) ∧ vs.Perm ws ∧
      ∃ v w, least vs = .ok v ∧ least ws = .ok w ∧ v.place? = w.place? := by
  intro m vs ws
  have hleast : Limit.leastPrecision ≤ m.precision := by decide
  have hall : ∀ u ∈ vs, u.Stands m :=
    List.forall_mem_cons.mpr ⟨rfl, List.forall_mem_cons.mpr ⟨half_stands, List.forall_mem_singleton.mpr rfl⟩⟩
  have hperm : vs.Perm ws := by decide
  have hcrowd : ¬ Crowded vs := by
    rintro ⟨n, x, hn, -, hlarge⟩
    have hsmall : n = 3 ∨ n = 1 := by simpa [vs] using hn
    rcases hsmall with rfl | rfl
    · exact hlarge (Double.ofInt 3) rfl
    · exact hlarge (Double.ofInt 1) rfl
  have defined : ∀ x, .real x ∈ vs → x.isNaN = false := by
    intro x hx
    obtain rfl : x = Double.half := by simpa [vs] using hx
    rfl
  have hcomparable : Comparable vs := Or.inr (by decide)
  obtain ⟨hexists, hsame⟩ := (least_greatest_perm hleast hall (by decide) hperm).1 least (by simp)
  obtain ⟨v, hv⟩ := (hexists hcrowd).1.mpr hcomparable
  obtain ⟨w, hw⟩ := (hexists hcrowd).2.mpr hcomparable
  exact ⟨hall, hperm, v, w, hv, hw, hsame defined v w hv hw⟩

/-- **Where the order of the arguments matters.**  The half is the least of a half, one and an integer beyond all
    doubles.  It is found if one comes before the half, and not if the half is compared with the large integer.  Of an
    undefined double and one the first is the least. -/
theorem order_decides :
    let m := { Modes.initial with regime := .exact }
    let vs : List Value := [.integer (10 ^ 400), .integer 1, .real Double.half]
    let ws : List Value := [.integer (10 ^ 400), .real Double.half, .integer 1]
    let us : List Value := [.real .nan, .integer 1]
    ((∀ v ∈ vs, v.Stands m) ∧ vs.Perm ws ∧
      (least vs).toOption = some (.real Double.half) ∧ (least ws).toOption = none) ∧
    (∀ v ∈ us, v.Stands m) ∧ (least us).toOption = some (.real .nan) ∧
      (least us.reverse).toOption = some (.integer 1) := by
  intro m vs ws us
  refine ⟨⟨?_, (List.Perm.swap _ _ _).cons _, by decide +kernel, by decide +kernel⟩, ?_, rfl, rfl⟩
  · exact List.forall_mem_cons.mpr ⟨rfl, List.forall_mem_cons.mpr ⟨rfl, List.forall_mem_singleton.mpr half_stands⟩⟩
  · exact List.forall_mem_cons.mpr ⟨⟨by decide, Or.inr ⟨rfl, rfl⟩⟩, List.forall_mem_singleton.mpr rfl⟩

end Value

end SciCalc
