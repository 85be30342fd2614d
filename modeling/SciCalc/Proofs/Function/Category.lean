/-
  Functions by category.

  1. **Listings** (`mem_categories`, `nodup_categories`) — every category is that of a function and is listed once.
     A query is taken in lower case, while a function keeps its category as it was given (`mem_byCategory`).

  2. **How often a function is listed** (`count_listed`) — once for each category that is its own category in lower
     case.  No two functions have one name, whatever is asked of a registry (`nodup_names_serve`), so that functions
     are counted by their names.

  3. **Theorem** (`categories_partition_iff`) — the categories partition the functions exactly if each function has a
     category in lower case.
-/
import Mathlib.Data.List.Perm.Basic
import SciCalc.Proofs.Function.Resolution

namespace SciCalc

open Attempt

namespace Registry

variable {r : Registry} {f : Function} {category query : String}

/-! ## Listings -/

theorem mem_distinct {s : String} {names : List String} : s ∈ distinct names ↔ s ∈ names := by
  induction names with
  | nil => exact Iff.rfl
  | cons t names ih =>
    rw [distinct, List.mem_cons, List.mem_cons, List.mem_filter, ih, decide_eq_true_eq]
    by_cases h : s = t
    · exact iff_of_true (Or.inl h) (Or.inl h)
    · exact or_congr_right (and_iff_left h)

theorem nodup_distinct (names : List String) : (distinct names).Nodup := by
  induction names with
  | nil => exact List.nodup_nil
  | cons t names ih =>
    refine List.nodup_cons.mpr ⟨fun hmem => ?_, ih.filter _⟩
    exact of_decide_eq_true (List.mem_filter.mp hmem).2 rfl

/-- The categories are those of the functions. -/
theorem mem_categories : category ∈ r.categories ↔ ∃ f ∈ r.functions, f.category = category := by
  rw [categories, sorted, List.mem_mergeSort, mem_distinct, List.mem_map]

/-- Every category is listed once. -/
theorem nodup_categories (r : Registry) : r.categories.Nodup :=
  (List.mergeSort_perm _ _).nodup_iff.mpr (nodup_distinct _)

/-- The functions of a category are those that have it as the query has it in lower case. -/
theorem mem_byCategory : f ∈ r.byCategory query ↔ f ∈ r.functions ∧ f.category = Text.lower query := by
  rw [byCategory, List.mem_filter, decide_eq_true_eq]

/-- The functions of all categories, one category behind the other. -/
def listed (r : Registry) : List Function := r.categories.flatMap r.byCategory

/-! ## How often a function is listed -/

/-- Among the functions of a category each one is found once. -/
theorem count_byCategory (names : (r.functions.map (·.name)).Nodup) (hf : f ∈ r.functions) (query : String) :
    ((r.byCategory query).map (·.name)).count f.name = if Text.lower query = f.category then 1 else 0 := by
  have hnodup : ((r.byCategory query).map (·.name)).Nodup := names.sublist (List.filter_sublist.map _)
  have hmem : f.name ∈ (r.byCategory query).map (·.name) ↔ Text.lower query = f.category := by
    rw [List.mem_map]
    constructor
    · rintro ⟨g, hg, hname⟩
      obtain ⟨hg, hcategory⟩ := mem_byCategory.mp hg
      obtain rfl := List.inj_on_of_nodup_map names hg hf hname
      exact hcategory.symm
    · exact fun h => ⟨f, mem_byCategory.mpr ⟨hf, h.symm⟩, rfl⟩
  split
  · rename_i hcategory
    exact List.count_eq_one_of_mem hnodup (hmem.mpr hcategory)
  · rename_i hcategory
    exact List.count_eq_zero_of_not_mem fun h => hcategory (hmem.mp h)

/-- **A function is listed as often as there are categories that are its own in lower case.** -/
theorem count_listed (names : (r.functions.map (·.name)).Nodup) (hf : f ∈ r.functions) :
    (r.listed.map (·.name)).count f.name = (r.categories.filter (Text.lower · = f.category)).length := by
  unfold listed
  induction r.categories with
  | nil => rfl
  | cons c cs ih =>
    rw [List.flatMap_cons, List.map_append, List.count_append, ih, count_byCategory names hf, List.filter_cons]
    split
    · rename_i hcategory
      rw [if_pos (decide_eq_true hcategory), List.length_cons, Nat.add_comm]
    · rename_i hcategory
      rw [if_neg (by simpa using hcategory), Nat.zero_add]

/-- Where every category is in lower case, all functions are listed, each of them once. -/
theorem listed_perm (names : (r.functions.map (·.name)).Nodup)
    (lowered : ∀ f ∈ r.functions, Text.lower f.category = f.category) : r.listed.Perm r.functions := by
  have hfunctions : r.functions.Nodup := names.of_map _
  have hlower : ∀ c ∈ r.categories, Text.lower c = c := by
    intro c hc
    obtain ⟨f, hf, rfl⟩ := mem_categories.mp hc
    exact lowered f hf
  -- two categories that are in lower case have no function in common
  have hapart : r.categories.Pairwise fun c d => (r.byCategory c).Disjoint (r.byCategory d) := by
    refine (nodup_categories r).imp_of_mem fun {c d} hc hd hne f hfc hfd => hne ?_
    rw [← hlower c hc, ← hlower d hd, ← (mem_byCategory.mp hfc).2, (mem_byCategory.mp hfd).2]
  refine (List.perm_ext_iff_of_nodup (List.nodup_flatMap.mpr ⟨fun _ _ => hfunctions.filter _, hapart⟩)
    hfunctions).mpr fun f => ?_
  rw [List.mem_flatMap]
  constructor
  · rintro ⟨c, -, hf⟩
    exact (mem_byCategory.mp hf).1
  · exact fun hf => ⟨f.category, mem_categories.mpr ⟨f, hf, rfl⟩, mem_byCategory.mpr ⟨hf, (lowered f hf).symm⟩⟩

/-! ## Requests -/

/-- The functions stay, or one is added under a name that is not taken, or those of a name are given up. -/
inductive Alters (r : Registry) (r' : Registry) : Prop where
  | same : r'.functions = r.functions → Alters r r'
  | added (f : Function) : r.isTaken f.name = false → r'.functions = r.functions ++ [f] → Alters r r'
  | erased (key : String) : r'.functions = (r.erase key).functions → Alters r r'

/-- **What a request does to the functions.** -/
theorem alters_serve (r : Registry) (q : Request) : r.Alters (r.serve q) := by
  cases q with
  | register name arity implementation description category userDefined =>
    refine after_induction (.same rfl) fun r' h => ?_
    obtain ⟨⟨r', added⟩, hregister, rfl⟩ := exists_of_map_eq_ok h
    obtain ⟨t, a, i, -, -, -, -, hadd⟩ := exists_add_of_register hregister
    rcases r.add_cases ⟨Text.lower t, a, i, description, category, userDefined⟩ with ⟨-, hcase⟩ | ⟨hfree, hcase⟩
    · cases hcase.symm.trans hadd
      exact .same rfl
    · cases hcase.symm.trans hadd
      exact .added _ hfree rfl
  | remove name =>
    refine after_induction (.same rfl) fun r' h => ?_
    obtain ⟨⟨r', removed⟩, hremove, rfl⟩ := exists_of_map_eq_ok h
    rcases remove_cases hremove with rfl | ⟨f, -, -, rfl⟩
    · exact .same rfl
    · exact .erased f.name rfl
  | createAlias name target =>
    refine after_induction (.same rfl) fun r' h => .same ?_
    cases renaming_createAlias h <;> rfl
  | removeAlias name => exact .same rfl

/-- A request leaves the names of functions distinct. -/
theorem nodup_names_serve (names : (r.functions.map (·.name)).Nodup) (q : Request) :
    ((r.serve q).functions.map (·.name)).Nodup := by
  cases r.alters_serve q with
  | same hsame => rwa [hsame]
  | added f hfree hadded =>
    rw [hadded]
    exact nodup_append_name names (isTaken_eq_false_iff.mp hfree).1
  | erased key herased =>
    rw [herased]
    exact names.sublist (List.filter_sublist.map _)

/-- After any requests the names of functions are distinct if they were at the beginning. -/
theorem nodup_names_of_requests (names : (r.functions.map (·.name)).Nodup) (requests : List Request) :
    ((requests.foldl serve r).functions.map (·.name)).Nodup := by
  induction requests generalizing r with
  | nil => exact names
  | cons q requests ih => exact ih (nodup_names_serve names q)

/-! ## Theorem -/

/-- **The categories after any requests** to a registry that was empty, or that of a new calculator.  A function is
    listed under its own category exactly if this is in lower case; among the functions of all categories, one
    behind the other, it is listed once for each category that is its own in lower case; and the categories
    partition the functions exactly if all of them are in lower case. -/
theorem categories_partition_iff {start : Registry}
    (fresh : start = builtins ∨ ∃ withAliases, start = empty withAliases) (requests : List Request) :
    let r := requests.foldl serve start
    (∀ f ∈ r.functions, (f ∈ r.byCategory f.category ↔ Text.lower f.category = f.category) ∧
      (r.listed.map (·.name)).count f.name = (r.categories.filter (Text.lower · = f.category)).length) ∧
    (((∀ f ∈ r.functions, f ∈ r.byCategory f.category) ∧ r.listed.Perm r.functions ∧
        (r.functions.map (·.name)).Nodup) ↔
      ∀ f ∈ r.functions, Text.lower f.category = f.category) := by
  intro r
  have names : (r.functions.map (·.name)).Nodup := by
    refine nodup_names_of_requests ?_ requests
    rcases fresh with rfl | ⟨withAliases, rfl⟩
    · exact resolving_builtins.names
    · exact List.nodup_nil
  have hown : ∀ f ∈ r.functions, f ∈ r.byCategory f.category ↔ Text.lower f.category = f.category := fun f hf => by
    rw [mem_byCategory, and_iff_right hf, eq_comm]
  refine ⟨fun f hf => ⟨hown f hf, count_listed names hf⟩, fun h f hf => (hown f hf).mp (h.1 f hf), fun lowered => ?_⟩
  exact ⟨fun f hf => (hown f hf).mpr (lowered f hf), listed_perm names lowered, names⟩

/-- A function of one argument for examples. -/
def sampleRequest (name category : String) : Request :=
  .register (.text name) (.integer 1) (some (.host fun _ => .ok (.integer 0))) "" category true

/-- Of two functions whose categories are one in lower case, one is listed twice and the other one not at all. -/
theorem categories_partition_twice :
    let r := [sampleRequest "f" "Math", sampleRequest "g" "math"].foldl serve (empty true)
    (empty true = builtins ∨ ∃ withAliases, empty true = empty withAliases) ∧
      r.categories = ["Math", "math"] ∧
      (r.listed.map (·.name)).count "f" = 0 ∧ (r.listed.map (·.name)).count "g" = 2 := by
  intro r
  have fresh : empty true = builtins ∨ ∃ withAliases, empty true = empty withAliases := Or.inr ⟨true, rfl⟩
  obtain ⟨hlisted, -⟩ := categories_partition_iff fresh [sampleRequest "f" "Math", sampleRequest "g" "math"]
  have hgiven : r.functions.map (·.category) = ["Math", "math"] := by decide +kernel
  have hcategories : r.categories = ["Math", "math"] := by
    rw [categories, hgiven]
    exact List.mergeSort_of_pairwise (by decide)
  refine ⟨fresh, hcategories, ?_, ?_⟩
  · refine (hlisted r.functions[0] (List.getElem_mem _)).2.trans ?_
    rw [hcategories]
    decide +kernel
  · refine (hlisted r.functions[1] (List.getElem_mem _)).2.trans ?_
    rw [hcategories]
    decide +kernel

/-- A function whose category has a capital letter is not listed under it. -/
theorem not_always_listed :
    let r := [sampleRequest "f" "Math"].foldl serve (empty true)
    ∃ f ∈ r.functions, f.name = "f" ∧ f.category = "Math" ∧ f ∉ r.byCategory f.category := by
  intro r
  refine ⟨r.functions[0], List.getElem_mem _, by decide +kernel, by decide +kernel, fun h => ?_⟩
  exact absurd (mem_byCategory.mp h).2 (by decide +kernel)

end Registry

end SciCalc
