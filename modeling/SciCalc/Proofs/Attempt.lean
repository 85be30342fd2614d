/-
  Computations that may fail.

  Equations for the first step of a computation in `Except`, what it means for a computation of two steps to
  end well, and a judgment on whatever a computation gives.
-/
namespace SciCalc.Attempt

variable {ε α β : Type}

@[simp] theorem ok_bind (a : α) (g : α → Except ε β) : (Except.ok a >>= g) = g a := rfl

@[simp] theorem error_bind (e : ε) (g : α → Except ε β) : (Except.error e >>= g) = Except.error e := rfl

@[simp] theorem pure_eq_ok (a : α) : (pure a : Except ε α) = .ok a := rfl

@[simp] theorem map_ok (g : α → β) (a : α) : Except.map g (Except.ok a : Except ε α) = .ok (g a) := rfl

@[simp] theorem map_error (g : α → β) (e : ε) : Except.map g (Except.error e : Except ε α) = .error e := rfl

/-- An attempt that renames its failure ends well if it did before. -/
@[simp] theorem mapError_eq_ok {g : ε → β} {r : Except ε α} {a : α} : r.mapError g = .ok a ↔ r = .ok a := by
  cases r with
  | error e => exact ⟨nofun, nofun⟩
  | ok a' => exact ⟨fun h => congrArg _ (Except.ok.inj h), fun h => congrArg _ (Except.ok.inj h)⟩

theorem toOption_eq_some {r : Except ε α} {a : α} : r.toOption = some a ↔ r = .ok a := by
  cases r with
  | error e => exact ⟨nofun, nofun⟩
  | ok a' => exact ⟨fun h => congrArg _ (Option.some.inj h), fun h => congrArg _ (Except.ok.inj h)⟩

theorem toOption_eq_none {r : Except ε α} : r.toOption = none ↔ ∃ e, r = .error e := by
  cases r with
  | error e => exact ⟨fun _ => ⟨e, rfl⟩, fun _ => rfl⟩
  | ok a => exact ⟨nofun, fun ⟨_, h⟩ => nomatch h⟩

/-- Two steps end well if both do. -/
theorem bind_eq_ok {r : Except ε α} {g : α → Except ε β} {b : β} :
    (r >>= g) = .ok b ↔ ∃ a, r = .ok a ∧ g a = .ok b := by
  cases r with
  | error e => simp
  | ok a => simp

/-- Two steps fail if one of them does. -/
theorem bind_eq_error {r : Except ε α} {g : α → Except ε β} {e : ε} :
    (r >>= g) = .error e ↔ r = .error e ∨ ∃ a, r = .ok a ∧ g a = .error e := by
  cases r with
  | error e' => simp
  | ok a => simp

/-- A row of attempts fails as one of them does. -/
theorem exists_of_mapM_eq_error {f : α → Except ε β} {as : List α} {e : ε} (h : as.mapM f = .error e) :
    ∃ a ∈ as, f a = .error e := by
  induction as with
  | nil => cases h
  | cons a as ih =>
    rw [List.mapM_cons] at h
    rcases bind_eq_error.mp h with hfirst | ⟨b, -, h⟩
    · exact ⟨a, List.mem_cons_self, hfirst⟩
    · rcases bind_eq_error.mp h with hrest | ⟨bs, -, h⟩
      · obtain ⟨a', ha', hfailed⟩ := ih hrest
        exact ⟨a', List.mem_cons_of_mem _ ha', hfailed⟩
      · cases h

/-- A row of attempts ends well only if each of them does. -/
theorem exists_of_mem_of_mapM {f : α → Except ε β} {as : List α} {bs : List β} (h : as.mapM f = .ok bs) {a : α}
    (ha : a ∈ as) : ∃ b, f a = .ok b := by
  induction as generalizing bs with
  | nil => cases ha
  | cons a' as ih =>
    rw [List.mapM_cons] at h
    obtain ⟨b, hb, h⟩ := bind_eq_ok.mp h
    obtain ⟨bs, hbs, -⟩ := bind_eq_ok.mp h
    rcases List.mem_cons.mp ha with rfl | ha
    · exact ⟨b, hb⟩
    · exact ih hbs ha

/-- What is made of a result has a result to be made of. -/
theorem exists_of_map_eq_ok {r : Except ε α} {g : α → β} {b : β} (h : r.map g = .ok b) :
    ∃ a, r = .ok a ∧ g a = b := by
  cases r with
  | error e => cases h
  | ok a =>
    cases h
    exact ⟨a, rfl, rfl⟩

/-- The failure of a computation, if it fails. -/
def failure? : Except ε α → Option ε
  | .ok _ => none
  | .error e => some e

@[simp] theorem failure?_ok (a : α) : failure? (Except.ok a : Except ε α) = none := rfl

@[simp] theorem failure?_error (e : ε) : failure? (Except.error e : Except ε α) = some e := rfl

/-! ## What a computation gives -/

/-- Whatever the computation gives has the property. -/
def Gives (p : α → Prop) (r : Except ε α) : Prop := ∀ a, r = .ok a → p a

section

variable {p : β → Prop} {q : α → Prop}

@[simp] theorem gives_ok {a : α} : Gives q (.ok a : Except ε α) ↔ q a := by
  constructor
  · intro h
    exact h a rfl
  · intro h b hb
    cases hb
    exact h

@[simp] theorem gives_error (e : ε) : Gives q (.error e : Except ε α) := by
  intro a h
  cases h

/-- The second step gives what it gives for a result of the first. -/
@[simp] theorem gives_bind {r : Except ε α} {g : α → Except ε β} :
    Gives p (r >>= g) ↔ ∀ a, r = .ok a → Gives p (g a) := by
  cases r with
  | error e => simp
  | ok a => simp

/-- What is known of the first step helps with the second. -/
theorem Gives.bind {r : Except ε α} {g : α → Except ε β} (hr : Gives q r) (hg : ∀ a, q a → Gives p (g a)) :
    Gives p (r >>= g) :=
  gives_bind.mpr fun a ha => hg a (hr a ha)

@[simp] theorem gives_map {r : Except ε α} {g : α → β} : Gives p (r.map g) ↔ Gives (fun a => p (g a)) r := by
  cases r with
  | error e => simp
  | ok a => simp

@[simp] theorem gives_ite {c : Prop} [Decidable c] {r s : Except ε α} :
    Gives q (if c then r else s) ↔ (c → Gives q r) ∧ (¬ c → Gives q s) := by
  by_cases h : c
  · simp [h]
  · simp [h]

/-- What every step keeps holds behind a fold. -/
theorem Gives.foldlM {f : β → α → Except ε β} {as : List α} (h : ∀ b, p b → ∀ a ∈ as, Gives p (f b a)) :
    ∀ b, p b → Gives p (as.foldlM f b) := by
  induction as with
  | nil => exact fun b hb => gives_ok.mpr hb
  | cons a as ih =>
    intro b hb
    rw [List.foldlM_cons]
    exact (h b hb a List.mem_cons_self).bind (ih fun b hb a ha => h b hb a (List.mem_cons_of_mem _ ha))

end

end SciCalc.Attempt
