/-
  The longest symbol in front of a text.

  1. **Index** (`Indexed`, `indexed_reindex`) — the index has the symbols of the operators, the longest ones first,
     after it has been made anew.

  2. **Choosing** (`longestSymbol_eq_some_iff`) — the first symbol of the index in front of a text is one that no
     other one there exceeds.  Symbols of one length in front of the same text are one symbol, so that there is no
     choice.

  3. **What stands behind it** (`longestSymbol_of_front`, `longestSymbol_of_blank`) — what follows the longest
     symbol can be cut off anywhere, and it can be replaced by a blank if symbols have no blanks, as in the two
     tables that there are (`Separable`).
-/
import SciCalc.Operator.Basic

namespace SciCalc.Operators

variable {ops : Operators} {cs rest : List Char} {symbol : String}

/-! ## Index -/

/-- **The index is that of the operators.** -/
structure Indexed (ops : Operators) : Prop where
  /-- The symbols are those of the operators. -/
  symbols : ∀ s, s ∈ ops.symbols ↔ ∃ o ∈ ops.all, o.symbol = s
  /-- The same symbols are searched. -/
  searched : ∀ s, s ∈ ops.longestFirst ↔ s ∈ ops.symbols
  /-- No symbol stands in front of a longer one. -/
  sorted : ops.longestFirst.Pairwise fun s t => t.length ≤ s.length

/-- What is among the symbols when one has been put in its place. -/
theorem mem_place {s t : String} {symbols : List String} : t ∈ place s symbols ↔ t = s ∨ t ∈ symbols := by
  induction symbols with
  | nil => exact List.mem_cons
  | cons u symbols ih =>
    rw [place]
    split
    · rw [List.mem_cons, ih, List.mem_cons]
      exact or_left_comm
    · exact List.mem_cons

/-- The longest symbols stay first. -/
theorem pairwise_place {s : String} {symbols : List String}
    (h : symbols.Pairwise fun s t => t.length ≤ s.length) :
    (place s symbols).Pairwise fun s t => t.length ≤ s.length := by
  induction symbols with
  | nil => exact List.pairwise_singleton _ s
  | cons u symbols ih =>
    obtain ⟨hfirst, hrest⟩ := List.pairwise_cons.mp h
    rw [place]
    split
    · rename_i hlonger
      refine List.pairwise_cons.mpr ⟨fun t ht => ?_, ih hrest⟩
      rcases mem_place.mp ht with rfl | ht
      · exact Nat.le_of_lt hlonger
      · exact hfirst t ht
    · rename_i hle
      have hle := Nat.not_lt.mp hle
      refine List.pairwise_cons.mpr ⟨List.forall_mem_cons.mpr ⟨hle, fun t ht => ?_⟩, h⟩
      exact Nat.le_trans (hfirst t ht) hle

/-- All symbols that are put in their places are there, the longest ones first. -/
theorem foldr_place (symbols : List String) :
    (∀ s, s ∈ symbols.foldr place [] ↔ s ∈ symbols) ∧
      (symbols.foldr place []).Pairwise fun s t => t.length ≤ s.length := by
  induction symbols with
  | nil => exact ⟨fun _ => Iff.rfl, .nil⟩
  | cons s symbols ih =>
    refine ⟨fun t => ?_, pairwise_place ih.2⟩
    rw [List.foldr_cons, mem_place, ih.1, List.mem_cons]

/-- **An index that is made anew is that of the operators.** -/
theorem indexed_reindex (ops : Operators) : ops.reindex.Indexed where
  symbols s := by
    show s ∈ (ops.all.map (·.symbol)).eraseDups ↔ _
    rw [List.mem_eraseDups, List.mem_map]
    rfl
  searched := (foldr_place _).1
  sorted := (foldr_place _).2

/-- The index is that of the operators when one has been installed. -/
theorem indexed_install (ops : Operators) (o : Operator) : (ops.install o).Indexed := indexed_reindex _

theorem indexed_basic : Indexed basic := indexed_reindex _

theorem indexed_calculator : Indexed calculator := indexed_reindex _

/-- A text is a symbol if an operator is written with it. -/
theorem Indexed.isSymbol_iff (indexed : ops.Indexed) :
    ops.isSymbol symbol = true ↔ ∃ o ∈ ops.all, o.symbol = symbol := by
  rw [isSymbol, List.contains_iff_mem, indexed.symbols]

/-! ## Choosing -/

/-- The text begins with the symbol of an operator. -/
def Begins (ops : Operators) (cs : List Char) (symbol : String) : Prop :=
  ops.isSymbol symbol = true ∧ symbol.toList <+: cs

/-- The symbols among which the first one is chosen are those that the text begins with. -/
theorem Indexed.begins_iff (indexed : ops.Indexed) :
    ops.Begins cs symbol ↔ symbol ∈ ops.longestFirst ∧ symbol.toList.isPrefixOf cs = true := by
  rw [Begins, isSymbol, List.contains_iff_mem, indexed.searched, List.isPrefixOf_iff_prefix]

/-- Of two symbols that a text begins with, one of the same length is the same one. -/
theorem Begins.eq_of_length {s t : String} (hs : ops.Begins cs s) (ht : ops.Begins cs t)
    (h : s.length = t.length) : s = t := by
  rw [← String.toList_inj]
  refine (List.prefix_of_prefix_length_le hs.2 ht.2 ?_).eq_of_length ?_
  · exact Nat.le_of_eq h
  · exact h

/-- Where there is no longest symbol, the text begins with none. -/
theorem Indexed.not_begins (indexed : ops.Indexed) (h : ops.longestSymbol cs = none) :
    ¬ ops.Begins cs symbol := by
  rw [indexed.begins_iff]
  rintro ⟨hmem, hfront⟩
  exact List.find?_eq_none.mp h symbol hmem hfront

/-- The first symbol of the index is not exceeded. -/
theorem Indexed.longest (indexed : ops.Indexed) (h : ops.longestSymbol cs = some symbol) :
    ops.Begins cs symbol ∧ ∀ s, ops.Begins cs s → s.length ≤ symbol.length := by
  obtain ⟨hfront, before, behind, hsplit, hbefore⟩ := List.find?_eq_some_iff_append.mp h
  have hsorted := indexed.sorted
  rw [hsplit, List.pairwise_append, List.pairwise_cons] at hsorted
  refine ⟨indexed.begins_iff.mpr ⟨hsplit ▸ List.mem_append_right _ List.mem_cons_self, hfront⟩, fun s hs => ?_⟩
  obtain ⟨hmem, hs⟩ := indexed.begins_iff.mp hs
  rw [hsplit, List.mem_append, List.mem_cons] at hmem
  rcases hmem with hmem | rfl | hmem
  · -- what stands earlier in the index does not stand in front of the text
    have hnot := hbefore s hmem
    rw [hs] at hnot
    cases hnot
  · exact Nat.le_refl _
  · exact hsorted.2.1.1 s hmem

/-- **The longest symbol is the one that a text begins with and that no other one exceeds.** -/
theorem longestSymbol_eq_some_iff (indexed : ops.Indexed) :
    ops.longestSymbol cs = some symbol ↔
      ops.Begins cs symbol ∧ ∀ s, ops.Begins cs s → s.length ≤ symbol.length := by
  refine ⟨indexed.longest, ?_⟩
  rintro ⟨hbegins, hlongest⟩
  cases h : ops.longestSymbol cs with
  | none => exact absurd hbegins (indexed.not_begins h)
  | some t =>
    obtain ⟨ht, hle⟩ := indexed.longest h
    rw [ht.eq_of_length hbegins (Nat.le_antisymm (hlongest t ht) (hle symbol hbegins))]

/-! ## What stands behind it -/

/-- **Symbols are neither empty nor do they have blanks**, and the index is that of the operators. -/
structure Separable (ops : Operators) : Prop where
  /-- The symbols can be searched. -/
  indexed : ops.Indexed
  /-- No symbol is empty. -/
  nonempty : ∀ o ∈ ops.all, o.symbol.toList ≠ []
  /-- No symbol has a blank. -/
  solid : ∀ o ∈ ops.all, ∀ c ∈ o.symbol.toList, Text.isBlank c = false

/-- Characters are looked at one by one. -/
theorem Indexed.separable (indexed : ops.Indexed)
    (h : (ops.all.all fun o => !o.symbol.toList.isEmpty && o.symbol.toList.all fun c => !Text.isBlank c) = true) :
    ops.Separable := by
  have hsymbol := List.all_eq_true.mp h
  simp only [Bool.and_eq_true, List.all_eq_true, Bool.not_eq_true'] at hsymbol
  exact ⟨indexed, fun o ho => List.isEmpty_eq_false_iff.mp (hsymbol o ho).1, fun o ho => (hsymbol o ho).2⟩

/-- The symbols of the operators without a calculator can be separated. -/
theorem separable_basic : Separable basic := indexed_basic.separable (by decide +kernel)

/-- The symbols of the operators of a calculator can be separated. -/
theorem separable_calculator : Separable calculator := indexed_calculator.separable (by decide +kernel)

/-- The symbols of both tables can be separated. -/
theorem separable_of_table (table : ops = .basic ∨ ops = .calculator) : ops.Separable := by
  rcases table with rfl | rfl
  · exact separable_basic
  · exact separable_calculator

namespace Separable

theorem ne_nil (h : ops.Separable) {s : String} (hs : ops.isSymbol s = true) : s.toList ≠ [] := by
  obtain ⟨o, ho, rfl⟩ := h.indexed.isSymbol_iff.mp hs
  exact h.nonempty o ho

theorem isBlank_eq_false (h : ops.Separable) {s : String} (hs : ops.isSymbol s = true) {c : Char}
    (hc : c ∈ s.toList) : Text.isBlank c = false := by
  obtain ⟨o, ho, rfl⟩ := h.indexed.isSymbol_iff.mp hs
  exact h.solid o ho c hc

end Separable

/-- The longest symbol stays the longest if no longer one comes to stand in front of the text. -/
theorem longestSymbol_of_imp (indexed : ops.Indexed) {ds : List Char}
    (h : ops.longestSymbol cs = some symbol)
    (hfront : symbol.toList <+: ds)
    (hlonger : ∀ s, ops.Begins ds s → symbol.length < s.length → ops.Begins cs s) :
    ops.longestSymbol ds = some symbol := by
  obtain ⟨hbegins, hlongest⟩ := indexed.longest h
  refine (longestSymbol_eq_some_iff indexed).mpr ⟨⟨hbegins.1, hfront⟩, fun s hs => ?_⟩
  rcases Nat.lt_or_ge symbol.length s.length with hlt | hle
  · exact hlongest s (hlonger s hs hlt)
  · exact hle

/-- **What follows the longest symbol can be cut off.** -/
theorem longestSymbol_of_front (indexed : ops.Indexed) {rest' : List Char} (hrest : rest' <+: rest)
    (h : ops.longestSymbol (symbol.toList ++ rest) = some symbol) :
    ops.longestSymbol (symbol.toList ++ rest') = some symbol := by
  refine longestSymbol_of_imp indexed h (List.prefix_append _ _) fun s hs _ => ⟨hs.1, hs.2.trans ?_⟩
  exact (List.prefix_append_right_inj _).mpr hrest

/-- **A blank ends the longest symbol.** -/
theorem longestSymbol_of_blank (separable : ops.Separable) {b : Char} (hb : Text.isBlank b = true)
    {rest' : List Char} (h : ops.longestSymbol (symbol.toList ++ rest) = some symbol) :
    ops.longestSymbol (symbol.toList ++ b :: rest') = some symbol := by
  refine longestSymbol_of_imp separable.indexed h (List.prefix_append _ _) fun s hs hlonger => ?_
  have hfront : symbol.toList ++ [b] <+: symbol.toList ++ b :: rest' :=
    (List.prefix_append_right_inj _).mpr ⟨rest', rfl⟩
  have hlength : (symbol.toList ++ [b]).length ≤ s.toList.length := by
    rw [List.length_append]
    exact hlonger
  -- a longer symbol would have the blank in it
  have hblank : symbol.toList ++ [b] <+: s.toList := List.prefix_of_prefix_length_le hfront hs.2 hlength
  have hmem : b ∈ s.toList := hblank.subset (List.mem_append_right _ List.mem_cons_self)
  rw [separable.isBlank_eq_false hs.1 hmem] at hb
  cases hb

end SciCalc.Operators
