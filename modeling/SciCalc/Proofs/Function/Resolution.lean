/-
  What names stand for.

  1. **Requests** (`Request`, `serve`) — all that can be asked of the functions and aliases by name.  A request that
     is refused changes nothing.

  2. **Names that resolve** (`Resolving`) — no name is that of a function and of an alias, each alias stands for a
     function that there is, and the built-in functions are all there.  Each request keeps this.

  3. **Theorem** (`names_resolve`) — after any requests to the registry of a new calculator a name is found exactly
     if it is listed, directly or one step behind an alias, and the built-in functions are found as they were.

  The crux is that nobody can take a name away from a built-in function: it cannot be removed, and no alias can
  come in front of it.
-/
import Mathlib.Data.List.Induction
import SciCalc.Proofs.Function.Registry
import SciCalc.Proofs.Text.Lower

namespace SciCalc

open Attempt

namespace Registry

variable {r r' : Registry} {f : Function}

/-! ## Requests -/

/-- What can be asked of the functions and aliases. -/
inductive Request where
  | register (name arity : Plain) (implementation : Option Implementation) (description category : String)
      (userDefined : Bool)
  | remove (name : String)
  | createAlias (name target : Plain)
  | removeAlias (name : String)

/-- The registry that an attempt leads to; a refused one leads nowhere. -/
def after (r : Registry) (attempt : Except Failure Registry) : Registry :=
  match attempt with
  | .ok r' => r'
  | .error _ => r

/-- **The registry after a request.** -/
def serve (r : Registry) : Request → Registry
  | .register name arity implementation description category userDefined =>
    r.after ((r.register name arity implementation description category userDefined).map (·.1))
  | .remove name => r.after ((r.remove name).map (·.1))
  | .createAlias name target => r.after (r.createAlias name target)
  | .removeAlias name => (r.removeAlias name).1

/-- What holds of a registry and of what an attempt leads to holds behind the attempt. -/
theorem after_induction {p : Registry → Prop} {attempt : Except Failure Registry} (before : p r)
    (h : ∀ r', attempt = .ok r' → p r') : p (r.after attempt) := by
  cases attempt with
  | error failure => exact before
  | ok r' => exact h r' rfl

/-! ## Names that resolve -/

/-- Names stand for what they should. -/
structure Resolving (r : Registry) : Prop where
  /-- No two functions have one name. -/
  names : (r.functions.map (·.name)).Nodup
  /-- The names of functions are in lower case. -/
  lowered : ∀ f ∈ r.functions, Text.lower f.name = f.name
  /-- No name is an alias twice. -/
  keys : (r.aliasTable.map (·.1)).Nodup
  /-- An alias stands for a function that there is. -/
  targets : ∀ entry ∈ r.aliasTable, (r.lookup? entry.2).isSome
  /-- An alias is no name of a function. -/
  apart : ∀ entry ∈ r.aliasTable, r.lookup? entry.1 = none
  /-- The built-in functions are there. -/
  builtin : ∀ f ∈ builtinFunctions, f ∈ r.functions

/-- The names of a new calculator resolve. -/
theorem resolving_builtins : builtins.Resolving where
  names := orderly_builtins.names
  lowered := by decide +kernel
  keys := orderly_builtins.keys
  targets := orderly_builtins.targets
  apart := by decide +kernel
  builtin _ h := h

/-- **A function that is added under a name that is not taken leaves the names resolving.** -/
theorem Resolving.add (s : r.Resolving) (hfree : r.isTaken f.name = false) (hlower : Text.lower f.name = f.name) :
    Resolving { r with functions := r.functions ++ [f] } := by
  obtain ⟨hname, halias⟩ := isTaken_eq_false_iff.mp hfree
  refine ⟨nodup_append_name s.names hname, ?_, s.keys, fun entry hentry => ?_, fun entry hentry => ?_, ?_⟩
  · exact List.forall_mem_append.mpr ⟨s.lowered, List.forall_mem_singleton.mpr hlower⟩
  · exact isSome_lookup?_append (s.targets entry hentry)
  · rw [lookup?_eq_none_iff]
    refine List.forall_mem_append.mpr ⟨lookup?_eq_none_iff.mp (s.apart entry hentry), ?_⟩
    exact List.forall_mem_singleton.mpr (Ne.symm (halias entry hentry))
  · exact fun g hg => List.mem_append_left _ (s.builtin g hg)

/-- **Giving up a function that is not built in leaves the names resolving.** -/
theorem Resolving.erase (s : r.Resolving) {key : String} (hkey : ∀ g ∈ builtinFunctions, g.name ≠ key) :
    (r.erase key).Resolving := by
  refine ⟨s.names.sublist (List.filter_sublist.map _), fun g hg => s.lowered g (mem_of_mem_erase hg),
    s.keys.sublist (List.filter_sublist.map _), fun entry hentry => ?_, fun entry hentry => ?_, fun g hg => ?_⟩
  · obtain ⟨hentry, hne⟩ := List.mem_filter.mp hentry
    exact isSome_lookup?_erase (s.targets entry hentry) (of_decide_eq_true hne)
  · have hapart := lookup?_eq_none_iff.mp (s.apart entry (List.mem_filter.mp hentry).1)
    exact lookup?_eq_none_iff.mpr fun g hg => hapart g (mem_of_mem_erase hg)
  · exact List.mem_filter.mpr ⟨s.builtin g hg, decide_eq_true (hkey g hg)⟩

/-- **A change of the aliases leaves the names resolving.** -/
theorem Resolving.renaming (s : r.Resolving) (h : Renaming r r') : r'.Resolving := by
  cases h with
  | @aliased key target hfree htarget =>
    refine ⟨s.names, s.lowered, nodup_setAlias s.keys, fun entry hentry => ?_, fun entry hentry => ?_, s.builtin⟩
    · rcases mem_of_mem_setAlias hentry with rfl | hold
      · exact htarget
      · exact s.targets entry hold
    · rcases mem_of_mem_setAlias hentry with rfl | hold
      · exact hfree
      · exact s.apart entry hold
  | unaliased =>
    exact ⟨s.names, s.lowered, s.keys.sublist (List.filter_sublist.map _),
      fun entry hentry => s.targets entry (List.mem_filter.mp hentry).1,
      fun entry hentry => s.apart entry (List.mem_filter.mp hentry).1, s.builtin⟩

/-- A function of the user has no name of a built-in one. -/
theorem Resolving.name_ne_of_userDefined (s : r.Resolving) (hf : f ∈ r.functions) (huser : f.userDefined = true) :
    ∀ g ∈ builtinFunctions, g.name ≠ f.name := by
  intro g hg hname
  obtain rfl := List.inj_on_of_nodup_map s.names (s.builtin g hg) hf hname
  obtain ⟨e, -, rfl⟩ := List.mem_map.mp hg
  cases huser

/-- **A request leaves the names resolving.** -/
theorem Resolving.serve (s : r.Resolving) (q : Request) : (r.serve q).Resolving := by
  cases q with
  | register name arity implementation description category userDefined =>
    refine after_induction s fun r' h => ?_
    obtain ⟨⟨r', added⟩, hregister, rfl⟩ := exists_of_map_eq_ok h
    obtain ⟨t, a, i, -, hvalid, -, -, hadd⟩ := exists_add_of_register hregister
    rcases r.add_cases ⟨Text.lower t, a, i, description, category, userDefined⟩ with ⟨-, hcase⟩ | ⟨hfree, hcase⟩
    · cases hcase.symm.trans hadd
      exact s
    · cases hcase.symm.trans hadd
      exact s.add hfree (Text.lower_lower_of_isValidName hvalid)
  | remove name =>
    refine after_induction s fun r' h => ?_
    obtain ⟨⟨r', removed⟩, hremove, rfl⟩ := exists_of_map_eq_ok h
    rcases remove_cases hremove with rfl | ⟨f, hf, huser, rfl⟩
    · exact s
    · exact s.erase (s.name_ne_of_userDefined hf huser)
  | createAlias name target => exact after_induction s fun r' h => s.renaming (renaming_createAlias h)
  | removeAlias name => exact s.renaming .unaliased

/-! ## Theorem -/

/-- An alias stands for a name of a function, which is no alias. -/
theorem Resolving.aliasTarget? (s : r.Resolving) {key target : String} (h : r.aliasTarget? key = some target) :
    r.lookup? key = none ∧ (r.lookup? target).isSome ∧ r.aliasTarget? target = none := by
  have hmem := (aliasTarget?_eq_some_iff s.keys).mp h
  have htarget : (r.lookup? target).isSome := s.targets _ hmem
  refine ⟨s.apart _ hmem, htarget, Option.eq_none_iff_forall_ne_some.mpr fun further hfurther => ?_⟩
  -- an alias of that name would not be the name of a function
  have hnone : r.lookup? target = none := s.apart _ ((aliasTarget?_eq_some_iff s.keys).mp hfurther)
  rw [hnone] at htarget
  cases htarget

/-- A name is found if it is listed, as that of a function or as an alias. -/
theorem Resolving.contains_iff (s : r.Resolving) (name : String) :
    r.contains name = true ↔
      (r.lookup? (Text.lower name)).isSome ∨ (r.aliasTarget? (Text.lower name)).isSome := by
  rw [contains_eq_isTaken s.targets, isTaken, Bool.or_eq_true]

/-- The name of a function finds it, in any case of letters. -/
theorem Resolving.find?_eq_some (s : r.Resolving) (hf : f ∈ r.functions) {name : String}
    (hname : Text.lower name = f.name) : r.find? name = some f := by
  have hlookup : r.lookup? f.name = some f := (find?_key_eq_some_iff s.names).mpr ⟨hf, rfl⟩
  have halias : r.aliasTarget? f.name = none := Option.eq_none_iff_forall_ne_some.mpr fun target htarget => by
    rw [(s.aliasTarget? htarget).1] at hlookup
    cases hlookup
  rw [find?, resolve, hname, halias, Option.getD_none, hlookup]

/-- After any requests the names resolve. -/
theorem resolving_of_requests (requests : List Request) : (requests.foldl serve builtins).Resolving := by
  induction requests using List.reverseRecOn with
  | nil => exact resolving_builtins
  | append_singleton requests q ih =>
    rw [List.foldl_concat]
    exact ih.serve q

/-- **What names stand for after any requests** to the registry of a new calculator.  No name is that of a function
    and an alias; each function is found under its own name, which is in lower case; each alias stands for a
    function that there is, and not for an alias; a name is found exactly if its lower-case form is listed; and the
    built-in functions are found as they were, in any case of letters. -/
theorem names_resolve (requests : List Request) :
    let r := requests.foldl serve builtins
    (∀ key, r.lookup? key = none ∨ r.aliasTarget? key = none) ∧
    (∀ f ∈ r.functions, Text.lower f.name = f.name ∧ r.lookup? f.name = some f) ∧
    (∀ key target, r.aliasTarget? key = some target →
      (r.lookup? target).isSome ∧ r.aliasTarget? target = none) ∧
    (∀ name, r.contains name = true ↔
      (r.lookup? (Text.lower name)).isSome ∨ (r.aliasTarget? (Text.lower name)).isSome) ∧
    (∀ f ∈ builtinFunctions, ∀ name, Text.lower name = f.name → r.find? name = some f) := by
  intro r
  have s : r.Resolving := resolving_of_requests requests
  refine ⟨fun key => ?_, fun f hf => ⟨s.lowered f hf, (find?_key_eq_some_iff s.names).mpr ⟨hf, rfl⟩⟩,
    fun key target h => (s.aliasTarget? h).2, s.contains_iff, fun f hf name => s.find?_eq_some (s.builtin f hf)⟩
  cases htarget : r.aliasTarget? key with
  | none => exact Or.inr rfl
  | some target => exact Or.inl (s.aliasTarget? htarget).1

end Registry

end SciCalc
