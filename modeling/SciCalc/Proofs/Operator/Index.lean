/-
  Symbols after any requests to a table of operators.

  1. **Requests** (`Request`, `answer`) — an operator is installed under a new key, or it is installed or takes the
     place of another one.  A request that is refused leaves the table as it was (`answer_of_refused`), its index
     included; one that is accepted changes one key (`find?_answer`).

  2. **Invariant** (`Searchable`) — the index is that of the operators, and the symbols of all operators are valid.
     The operator in whose place another one comes may have been the last one with its symbol: the index is made
     anew from what is listed then, so that nothing has to be known of what was there before
     (`Searchable.answer`).

  3. **Theorem** (`symbols_after_requests`) — after any requests the longest symbol at a position of a text is found
     in the index, as is every symbol.  No symbol is empty, so that nothing is found behind the end of a text.
-/
import Mathlib.Data.List.Induction
import SciCalc.Proofs.Operator.Symbol

namespace SciCalc.Operators

variable {t : Operators} {o : Operator} {d : Description} {f : Failure} {text symbol : String}

/-! ## Requests -/

/-- What can be asked of a table: to install an operator under a new key, and to install one in any case. -/
inductive Request where
  | register (d : Description)
  | extend (d : Description)

/-- The operator that is asked for. -/
def Request.description : Request → Description
  | register d => d
  | extend d => d

/-- **What a request leads to**: whether it is refused, and the table afterwards. -/
def answer (t : Operators) : Request → Except Failure Unit × Operators
  | .register d => t.registering d.key d.check
  | .extend d => t.extending d.check

/-- The table after a request. -/
def serve (t : Operators) (q : Request) : Operators := (t.answer q).2

/-- A request is refused and changes nothing, or an operator that has been checked is installed. -/
theorem answer_cases (t : Operators) (q : Request) :
    (∃ f, t.answer q = (.error f, t)) ∨
      ∃ o, q.description.check = .ok o ∧ t.answer q = (.ok (), t.install o) := by
  have extended : ∀ d : Description, (∃ f, t.extending d.check = (.error f, t)) ∨
      ∃ o, d.check = .ok o ∧ t.extending d.check = (.ok (), t.install o) := by
    intro d
    cases hcheck : d.check with
    | error f => exact Or.inl ⟨f, rfl⟩
    | ok o => exact Or.inr ⟨o, rfl, rfl⟩
  cases q with
  | extend d => exact extended d
  | register d =>
    show (∃ f, t.registering d.key d.check = _) ∨ ∃ o, d.check = .ok o ∧ t.registering d.key d.check = _
    unfold registering
    split
    · exact Or.inl ⟨_, rfl⟩
    · exact extended d

/-- **A request that is refused leaves the table as it was.** -/
theorem answer_of_refused {q : Request} (h : (t.answer q).1 = .error f) : (t.answer q).2 = t := by
  rcases t.answer_cases q with ⟨g, hanswer⟩ | ⟨o, -, hanswer⟩
  · rw [hanswer]
  · rw [hanswer] at h
    cases h

/-- What has been checked has the key and the symbol that are described, and the symbol is valid. -/
theorem check_eq_ok (h : d.check = .ok o) :
    o.key = d.key ∧ o.symbol = d.symbol ∧ isValidSymbol d.symbol = true := by
  unfold Description.check at h
  split at h
  · cases h
  · cases h
  · split at h
    · rename_i hvalid
      cases h
      exact ⟨rfl, rfl, hvalid⟩
    · cases h

/-- An operator that is put among others is the one of its key, and those of other keys stay. -/
theorem find?_put (o : Operator) (ops : List Operator) (key : String) :
    (put o ops).find? (·.key = key) = if key = o.key then some o else ops.find? (·.key = key) := by
  induction ops with
  | nil => simp [put, eq_comm]
  | cons p ops ih =>
    rw [put]
    by_cases hkey : key = o.key
    · subst hkey
      rw [if_pos rfl] at ih ⊢
      split
      · exact List.find?_cons_of_pos (decide_eq_true rfl)
      · rename_i hne
        rw [List.find?_cons_of_neg (by simpa using hne), ih]
    · rw [if_neg hkey] at ih ⊢
      split
      · rename_i heq
        rw [List.find?_cons_of_neg (by simpa using Ne.symm hkey),
          List.find?_cons_of_neg (by simpa [heq] using Ne.symm hkey)]
      · rw [List.find?_cons, List.find?_cons, ih]

/-- What is put among others and these are all that there is. -/
theorem mem_of_mem_put {o p : Operator} {ops : List Operator} (h : p ∈ put o ops) : p = o ∨ p ∈ ops := by
  induction ops with
  | nil => exact Or.inl (List.mem_singleton.mp h)
  | cons q ops ih =>
    rw [put] at h
    split at h
    · exact (List.mem_cons.mp h).imp_right (List.mem_cons_of_mem q)
    · rcases List.mem_cons.mp h with rfl | h
      · exact Or.inr List.mem_cons_self
      · exact (ih h).imp_right (List.mem_cons_of_mem q)

/-- **A request that is accepted changes what is found under one key.** -/
theorem find?_answer {q : Request} (h : (t.answer q).1 = .ok ()) :
    ∃ o, q.description.check = .ok o ∧ o.key = q.description.key ∧
      ∀ key, (t.answer q).2.find? key = if key = o.key then some o else t.find? key := by
  rcases t.answer_cases q with ⟨g, hanswer⟩ | ⟨o, hcheck, hanswer⟩
  · rw [hanswer] at h
    cases h
  · rw [hanswer]
    exact ⟨o, hcheck, (check_eq_ok hcheck).1, find?_put o t.all⟩

/-! ## Invariant -/

/-- Symbols can be searched for in the table. -/
structure Searchable (t : Operators) : Prop where
  /-- The index is that of the operators. -/
  indexed : t.Indexed
  /-- The symbols of the operators are valid. -/
  valid : ∀ o ∈ t.all, isValidSymbol o.symbol = true

/-- The operators without a calculator can be searched. -/
theorem searchable_basic : Searchable basic := ⟨indexed_basic, by decide +kernel⟩

/-- **A request leaves a table that can be searched.** -/
theorem Searchable.serve (s : t.Searchable) (q : Request) : (t.serve q).Searchable := by
  unfold Operators.serve
  rcases t.answer_cases q with ⟨f, hanswer⟩ | ⟨o, hcheck, hanswer⟩
  · rw [hanswer]
    exact s
  · rw [hanswer]
    refine ⟨indexed_install t o, fun p hp => ?_⟩
    obtain ⟨-, hsymbol, hvalid⟩ := check_eq_ok hcheck
    rcases mem_of_mem_put hp with rfl | hp
    · rw [hsymbol, hvalid]
    · exact s.valid p hp

/-- After any requests the table can be searched. -/
theorem searchable_of_requests (requests : List Request) : (requests.foldl Operators.serve basic).Searchable := by
  induction requests using List.reverseRecOn with
  | nil => exact searchable_basic
  | append_singleton requests q ih =>
    rw [List.foldl_append]
    exact ih.serve q

/-- The table of a calculator is one that requests lead to. -/
theorem exists_requests_calculator : ∃ requests : List Request, requests.foldl Operators.serve basic = calculator :=
  ⟨[.extend ⟨"^", "^", 2, .identity, .generalPower, 9, "right", "Exponentiation"⟩,
    .extend ⟨"**", "**", 2, .identity, .generalPower, 9, "right", "Exponentiation"⟩,
    .extend ⟨"%", "%", 2, .identity, .guardedModulo, 6, "left", "Remainder"⟩,
    .extend ⟨"//", "//", 2, .identity, .guardedFloorDivide, 6, "left", "Floor division"⟩], rfl⟩

/-! ## Positions -/

/-- The symbol of an operator stands in a text behind so many characters. -/
def StandsAt (t : Operators) (text : String) (position : Nat) (symbol : String) : Prop :=
  (∃ o ∈ t.all, o.symbol = symbol) ∧
    ∃ front rest, text.toList = front ++ (symbol.toList ++ rest) ∧ front.length = position

/-- A valid symbol is not empty. -/
theorem ne_nil_of_isValidSymbol (h : isValidSymbol symbol = true) : symbol.toList ≠ [] := by
  intro hnil
  rw [isValidSymbol, hnil] at h
  cases h

/-- **A symbol stands at a position if the rest of the text begins with it.** -/
theorem Searchable.standsAt_iff (s : t.Searchable) {position : Nat} :
    t.StandsAt text position symbol ↔ t.Begins (text.toList.drop position) symbol := by
  rw [StandsAt, Begins, s.indexed.isSymbol_iff]
  refine and_congr_right fun hwritten => ?_
  obtain ⟨o, ho, hsymbol⟩ := hwritten
  constructor
  · rintro ⟨front, rest, hsplit, rfl⟩
    rw [hsplit, List.drop_left]
    exact List.prefix_append _ _
  · rintro ⟨rest, hrest⟩
    refine ⟨text.toList.take position, rest, ?_, ?_⟩
    · rw [hrest, List.take_append_drop]
    · -- a symbol is not empty, so that the text does not end in front of the position
      have hne : symbol.toList ≠ [] := hsymbol ▸ ne_nil_of_isValidSymbol (s.valid o ho)
      have hlength := congrArg List.length hrest
      rw [List.length_append, List.length_drop] at hlength
      have := List.length_pos_iff.mpr hne
      rw [List.length_take]
      omega

/-- From a position that is not negative on a text is searched behind so many characters. -/
theorem symbolAt?_natCast (t : Operators) (text : String) (position : Nat) :
    t.symbolAt? text position = t.longestSymbol (text.toList.drop position) := by
  show t.longestSymbol (text.toList.drop (if (position : Int) < 0 then _ else (position : Int)).toNat) = _
  rw [if_neg (by omega), Int.toNat_natCast]

/-! ## Theorem -/

/-- **What is found after any requests** to the table of operators without a calculator.  At a position of a text
    the longest symbol that stands there is found, and none exactly if none stands there; a text is a symbol exactly
    if an operator is written with it.  A further request that is refused leaves the table as it was, index and all;
    one that is accepted passed the check, and puts its operator under its key and changes no other key. -/
theorem symbols_after_requests (requests : List Request) :
    let t := requests.foldl Operators.serve basic
    (∀ (text : String) (position : Nat),
      (∀ symbol, t.symbolAt? text position = some symbol ↔
        t.StandsAt text position symbol ∧ ∀ s, t.StandsAt text position s → s.length ≤ symbol.length) ∧
      (t.symbolAt? text position = none ↔ ∀ s, ¬ t.StandsAt text position s)) ∧
    (∀ s, t.isSymbol s = true ↔ ∃ o ∈ t.all, o.symbol = s) ∧
    ∀ q, (∀ f, (t.answer q).1 = .error f → (t.answer q).2 = t) ∧
      ((t.answer q).1 = .ok () → ∃ o, q.description.check = .ok o ∧ o.key = q.description.key ∧
        ∀ key, (t.answer q).2.find? key = if key = o.key then some o else t.find? key) := by
  intro t
  have s : t.Searchable := searchable_of_requests requests
  refine ⟨fun text position => ?_, fun _ => s.indexed.isSymbol_iff, fun q => ⟨fun _ => answer_of_refused, find?_answer⟩⟩
  have hlongest : ∀ symbol, t.symbolAt? text position = some symbol ↔
      t.StandsAt text position symbol ∧ ∀ s, t.StandsAt text position s → s.length ≤ symbol.length := by
    intro symbol
    rw [symbolAt?_natCast, longestSymbol_eq_some_iff s.indexed, s.standsAt_iff]
    simp only [s.standsAt_iff]
  refine ⟨hlongest, fun hnone u hu => ?_, fun hnone => ?_⟩
  · rw [symbolAt?_natCast] at hnone
    exact s.indexed.not_begins hnone (s.standsAt_iff.mp hu)
  · cases hfind : t.symbolAt? text position with
    | none => rfl
    | some symbol => exact absurd ((hlongest symbol).mp hfind).1 (hnone symbol)

/-- A symbol is given up with the last operator that is written with it. -/
example :
    let t := basic.serve (.extend ⟨"<", "<<", 2, .identity, .less, 4, "left", ""⟩)
    t.symbolAt? "1<<=2" 1 = some "<<" ∧ t.isSymbol "<" = false ∧ t.symbolAt? "1<2" 1 = none := by
  decide +kernel

end SciCalc.Operators
