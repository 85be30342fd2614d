/-
  What changes of functions and aliases keep.

  1. **Changes** (`Revision`, `Renaming`) — a function of the user is added under a name that is not taken, or
     given up with its aliases; an alias is made for a function that there is, or taken away.

  2. **Order among the functions** (`Registry.Orderly`) — no change touches the built-in functions, no two
     functions have one name, and every alias stands for a function that there is.

  3. **Only built-in functions** (`builtinsOnly_eq`) — when the functions of the user are given up, the built-in
     ones are left with the aliases that stand for them (`Registry.builtinAliases`).
-/
import Mathlib.Data.List.Nodup
import Mathlib.Logic.Relation
import SciCalc.Proofs.Calculator.Operation

namespace SciCalc

open Attempt

/-- The arity is the one that the implementation takes: a defined function has one argument for each of its
    parameters. -/
def Implementation.Takes : Implementation → Arity → Prop
  | .defined _ parameters _, arity => arity = .exactly parameters.length
  | _, _ => True

namespace Registry

variable {r r' : Registry} {f g : Function}

/-! ## Changes -/

/-- A change of the functions. -/
inductive Revision (r : Registry) : Registry → Prop where
  /-- A function of the user is added; its name was not taken. -/
  | added {f : Function} : r.isTaken f.name = false → f.userDefined = true → f.implementation.Takes f.arity →
      Revision r { r with functions := r.functions ++ [f] }
  /-- The functions of a name, which are functions of the user, are given up with their aliases. -/
  | erased {key : String} : (∀ f ∈ r.functions, f.name = key → f.userDefined = true) →
      Revision r (r.erase key)

/-- A change of the aliases. -/
inductive Renaming (r : Registry) : Registry → Prop where
  /-- An alias of a function that there is, under a name that no function has. -/
  | aliased {key target : String} : r.lookup? key = none → (r.lookup? target).isSome →
      Renaming r { r with aliasTable := setAlias key target r.aliasTable }
  | unaliased {key : String} : Renaming r { r with aliasTable := r.aliasTable.filter (·.1 ≠ key) }

/-- Changes of the functions, one behind the other. -/
abbrev Revisions : Registry → Registry → Prop := Relation.ReflTransGen Revision

/-! ## Looking up -/

theorem isSome_lookup?_iff {key : String} : (r.lookup? key).isSome ↔ ∃ f ∈ r.functions, f.name = key := by
  simp [lookup?]

/-- What is found under one of distinct keys is what is listed with the key. -/
theorem find?_key_eq_some_iff {α : Type} {key : α → String} {entries : List α} (keys : (entries.map key).Nodup)
    {k : String} {a : α} : entries.find? (key · = k) = some a ↔ a ∈ entries ∧ key a = k := by
  constructor
  · exact fun h => ⟨List.mem_of_find?_eq_some h, by simpa using List.find?_some h⟩
  · rintro ⟨ha, rfl⟩
    have hsome : (entries.find? (key · = key a)).isSome := List.find?_isSome.mpr ⟨a, ha, by simp⟩
    obtain ⟨b, hb⟩ := Option.isSome_iff_exists.mp hsome
    have hkey : key b = key a := by simpa using List.find?_some hb
    rw [hb, List.inj_on_of_nodup_map keys (List.mem_of_find?_eq_some hb) ha hkey]

/-- An alias stands for the target that is listed with it. -/
theorem aliasTarget?_eq_some_iff (keys : (r.aliasTable.map (·.1)).Nodup) {key target : String} :
    r.aliasTarget? key = some target ↔ (key, target) ∈ r.aliasTable := by
  rw [aliasTarget?, Option.map_eq_some_iff]
  constructor
  · rintro ⟨⟨key', target'⟩, hfind, rfl⟩
    obtain ⟨hmem, rfl⟩ := (find?_key_eq_some_iff keys).mp hfind
    exact hmem
  · exact fun hmem => ⟨(key, target), (find?_key_eq_some_iff keys).mpr ⟨hmem, rfl⟩, rfl⟩

/-- An entry of a table in which one has been set is that one or an old one. -/
theorem mem_of_mem_setAlias {key target : String} {table : List (String × String)} {entry : String × String}
    (h : entry ∈ setAlias key target table) : entry = (key, target) ∨ entry ∈ table := by
  induction table with
  | nil => exact Or.inl (List.mem_singleton.mp h)
  | cons first rest ih =>
    rw [setAlias] at h
    split at h
    · exact (List.mem_cons.mp h).imp id (List.mem_cons_of_mem _)
    · rcases List.mem_cons.mp h with rfl | h
      · exact Or.inr List.mem_cons_self
      · exact (ih h).imp id (List.mem_cons_of_mem _)

/-- Setting an entry leaves the keys distinct. -/
theorem nodup_setAlias {key target : String} {table : List (String × String)}
    (keys : (table.map (·.1)).Nodup) : ((setAlias key target table).map (·.1)).Nodup := by
  induction table with
  | nil => simp [setAlias]
  | cons first rest ih =>
    obtain ⟨hnew, hrest⟩ := List.nodup_cons.mp keys
    rw [setAlias]
    split
    · rename_i heq
      rw [List.map_cons]
      exact List.nodup_cons.mpr ⟨heq ▸ hnew, hrest⟩
    · rename_i hne
      rw [List.map_cons]
      refine List.nodup_cons.mpr ⟨fun hmem => ?_, ih hrest⟩
      obtain ⟨entry, hentry, heq⟩ := List.mem_map.mp hmem
      rcases mem_of_mem_setAlias hentry with rfl | hold
      · exact hne heq.symm
      · exact hnew (List.mem_map.mpr ⟨entry, hold, heq⟩)

/-- The name of no function is that of none. -/
theorem lookup?_eq_none_iff {key : String} : r.lookup? key = none ↔ ∀ f ∈ r.functions, f.name ≠ key := by
  simp [lookup?]

/-- A name that is not taken is that of no function and no alias. -/
theorem isTaken_eq_false_iff {key : String} :
    r.isTaken key = false ↔ r.lookup? key = none ∧ ∀ entry ∈ r.aliasTable, entry.1 ≠ key := by
  simp [isTaken, aliasTarget?]

/-- A name is taken if it is listed. -/
theorem isTaken_iff {key : String} :
    r.isTaken key = true ↔ (∃ f ∈ r.functions, f.name = key) ∨ ∃ entry ∈ r.aliasTable, entry.1 = key := by
  rw [isTaken, Bool.or_eq_true, isSome_lookup?_iff]
  simp [aliasTarget?]

/-- Where less is listed, fewer names are taken. -/
theorem isTaken_of_subset (hfunctions : r'.functions ⊆ r.functions) (haliases : r'.aliasTable ⊆ r.aliasTable)
    {key : String} (h : r'.isTaken key = true) : r.isTaken key = true := by
  rcases isTaken_iff.mp h with ⟨f, hf, hname⟩ | ⟨entry, hentry, hkey⟩
  · exact isTaken_iff.mpr (Or.inl ⟨f, hfunctions hf, hname⟩)
  · exact isTaken_iff.mpr (Or.inr ⟨entry, haliases hentry, hkey⟩)

/-- **A name is found if it is taken**, as no alias leads nowhere. -/
theorem contains_eq_isTaken (targets : ∀ entry ∈ r.aliasTable, (r.lookup? entry.2).isSome) (name : String) :
    r.contains name = r.isTaken (Text.lower name) := by
  rw [contains, find?, resolve, isTaken]
  cases htarget : r.aliasTarget? (Text.lower name) with
  | none => simp
  | some target =>
    obtain ⟨entry, hfind, rfl⟩ := Option.map_eq_some_iff.mp htarget
    rw [Option.getD_some, targets entry (List.mem_of_find?_eq_some hfind)]
    simp

/-- A new name behind distinct ones is distinct from them. -/
theorem nodup_append_name (names : (r.functions.map (·.name)).Nodup) (hname : r.lookup? f.name = none) :
    ((r.functions ++ [f]).map (·.name)).Nodup := by
  rw [List.map_append]
  refine List.nodup_append.mpr ⟨names, List.nodup_singleton _, fun a ha b hb heq => ?_⟩
  obtain ⟨g, hg, rfl⟩ := List.mem_map.mp ha
  exact lookup?_eq_none_iff.mp hname g hg (heq.trans (List.mem_singleton.mp hb))

/-- What is found is still found when a function is added. -/
theorem isSome_lookup?_append {key : String} (h : (r.lookup? key).isSome) :
    (lookup? { r with functions := r.functions ++ [f] } key).isSome := by
  obtain ⟨g, hg, hname⟩ := isSome_lookup?_iff.mp h
  exact isSome_lookup?_iff.mpr ⟨g, List.mem_append_left _ hg, hname⟩

/-- What is found is still found when a function of another name is given up. -/
theorem isSome_lookup?_erase {key other : String} (h : (r.lookup? key).isSome) (hne : key ≠ other) :
    ((r.erase other).lookup? key).isSome := by
  obtain ⟨g, hg, rfl⟩ := isSome_lookup?_iff.mp h
  exact isSome_lookup?_iff.mpr ⟨g, List.mem_filter.mpr ⟨hg, decide_eq_true hne⟩, rfl⟩

/-! ## What changes keep -/

/-- The functions and aliases are in order. -/
structure Orderly (r : Registry) : Prop where
  /-- No two functions have one name. -/
  names : (r.functions.map (·.name)).Nodup
  /-- The functions that the user did not make are the built-in ones. -/
  builtin : r.functions.filter (!·.userDefined) = builtinFunctions
  /-- No name is an alias twice. -/
  keys : (r.aliasTable.map (·.1)).Nodup
  /-- An alias stands for a function that there is. -/
  targets : ∀ entry ∈ r.aliasTable, (r.lookup? entry.2).isSome
  /-- Each function has the arity that its implementation takes. -/
  takes : ∀ f ∈ r.functions, f.implementation.Takes f.arity

/-- The built-in functions are in order. -/
theorem orderly_builtins : builtins.Orderly where
  names := by decide +kernel
  builtin := List.filter_eq_self.mpr fun f h => by
    obtain ⟨e, -, rfl⟩ := List.mem_map.mp h
    rfl
  keys := by decide
  targets := by decide +kernel
  takes f h := by
    obtain ⟨e, -, rfl⟩ := List.mem_map.mp h
    trivial

/-- Two functions of one name are the same. -/
theorem Orderly.eq_of_name (o : r.Orderly) (hf : f ∈ r.functions) (hg : g ∈ r.functions)
    (h : f.name = g.name) : f = g := List.inj_on_of_nodup_map o.names hf hg h

/-- A function of a registry that the user did not make is a built-in one. -/
theorem Orderly.mem_builtinFunctions_iff (o : r.Orderly) :
    f ∈ builtinFunctions ↔ f ∈ r.functions ∧ f.userDefined = false := by
  rw [← o.builtin, List.mem_filter, Bool.not_eq_true']

/-- **A change of the functions keeps the order.** -/
theorem Orderly.revision (o : r.Orderly) (h : Revision r r') : r'.Orderly := by
  cases h with
  | @added f hfree huser htakes =>
    refine ⟨nodup_append_name o.names (isTaken_eq_false_iff.mp hfree).1, ?_, o.keys,
      fun entry hentry => isSome_lookup?_append (o.targets entry hentry), fun g hg => ?_⟩
    · rw [List.filter_append, o.builtin]
      simp [huser]
    · rcases List.mem_append.mp hg with hg | hg
      · exact o.takes g hg
      · rwa [List.mem_singleton.mp hg]
  | @erased key huser =>
    refine ⟨o.names.sublist (List.filter_sublist.map _), ?_, o.keys.sublist (List.filter_sublist.map _),
      fun entry hentry => ?_, fun f hf => o.takes f (mem_of_mem_erase hf)⟩
    · -- no built-in function has the name that is given up
      rw [← o.builtin]
      show (r.functions.filter _).filter _ = _
      rw [List.filter_filter]
      refine List.filter_congr fun f hf => ?_
      by_cases hname : f.name = key
      · simp [huser f hf hname]
      · simp [hname]
    · obtain ⟨hentry, hne⟩ := List.mem_filter.mp hentry
      exact isSome_lookup?_erase (o.targets entry hentry) (of_decide_eq_true hne)

/-- **A change of the aliases keeps the order.** -/
theorem Orderly.renaming (o : r.Orderly) (h : Renaming r r') : r'.Orderly := by
  cases h with
  | @aliased key target hfree htarget =>
    refine ⟨o.names, o.builtin, nodup_setAlias o.keys, fun entry hentry => ?_, o.takes⟩
    rcases mem_of_mem_setAlias hentry with rfl | hold
    · exact htarget
    · exact o.targets entry hold
  | unaliased =>
    exact ⟨o.names, o.builtin, o.keys.sublist (List.filter_sublist.map _),
      fun entry hentry => o.targets entry (List.mem_filter.mp hentry).1, o.takes⟩

/-- Changes of the functions keep the order. -/
theorem Orderly.revisions (o : r.Orderly) (h : Revisions r r') : r'.Orderly := by
  induction h with
  | refl => exact o
  | tail _ hstep ih => exact ih.revision hstep

/-! ## The changes that requests make -/

/-- A function that is registered by the user is a new one, or its name was taken. -/
theorem revisions_register {name arity : Plain} {i : Implementation} {description category : String}
    {added : Bool} (takes : ∀ a, arityOf arity = some a → i.Takes a)
    (ok : r.register name arity (some i) description category true = .ok (r', added)) : Revisions r r' := by
  obtain ⟨s, a, i', -, -, harity, himpl, hadd⟩ := exists_add_of_register ok
  obtain rfl := Option.some.inj himpl
  rcases r.add_cases ⟨Text.lower s, a, i, description, category, true⟩ with ⟨-, hcase⟩ | ⟨hfree, hcase⟩
  · cases hcase.symm.trans hadd
    exact .refl
  · cases hcase.symm.trans hadd
    exact .single (.added hfree rfl (takes a harity))

/-- Among functions of distinct names, giving up the one of a name is a revision if the user made it. -/
theorem Orderly.revision_erase (o : r.Orderly) (hf : f ∈ r.functions) (huser : f.userDefined = true) :
    Revision r (r.erase f.name) :=
  .erased fun g hg hname => by rwa [o.eq_of_name hg hf hname]

/-- Giving up functions of the user, one by one. -/
theorem revisions_foldl_erase {gs : List Function}
    (huser : ∀ g ∈ gs, ∀ f ∈ r.functions, f.name = g.name → f.userDefined = true) :
    Revisions r (gs.foldl (fun r g => r.erase g.name) r) := by
  induction gs generalizing r with
  | nil => exact .refl
  | cons g gs ih =>
    refine .head (.erased (huser g List.mem_cons_self)) (ih fun g' hg' f hf => ?_)
    exact huser g' (List.mem_cons_of_mem _ hg') f (mem_of_mem_erase hf)

theorem Orderly.revisions_remove (o : r.Orderly) {name : String} {removed : Bool}
    (ok : r.remove name = .ok (r', removed)) : Revisions r r' := by
  rcases remove_cases ok with rfl | ⟨f, hf, huser, rfl⟩
  · exact .refl
  · exact .single (o.revision_erase hf huser)

/-- **An alias that is not refused** has a valid name that no function has, and stands for a function that there
    is. -/
theorem exists_setAlias_of_createAlias {name target : Plain} (ok : r.createAlias name target = .ok r') :
    ∃ s resolved, name = .text s ∧ Text.isValidName s = true ∧ r.lookup? (Text.lower s) = none ∧
      (r.lookup? resolved).isSome ∧
      r' = { r with aliasTable := setAlias (Text.lower s) resolved r.aliasTable } := by
  unfold createAlias at ok
  split at ok
  · cases ok
  · rename_i s hvalid
    obtain ⟨hname, hvalid⟩ := validName_eq_some hvalid
    obtain ⟨resolved, htarget, ok⟩ := bind_eq_ok.mp ok
    dsimp only at ok
    split at ok
    · cases ok
    · rename_i hfree
      cases ok
      refine ⟨s, resolved, hname, hvalid, by simpa using hfree, ?_, rfl⟩
      -- the target is the name of the function that was found
      cases target with
      | text t =>
        rw [aliasedName] at htarget
        cases hfind : r.find? t with
        | none =>
          rw [hfind] at htarget
          cases htarget
        | some f =>
          rw [hfind] at htarget
          cases htarget
          exact isSome_lookup?_iff.mpr ⟨f, mem_of_find? hfind, rfl⟩
      | _ => cases htarget

theorem renaming_createAlias {name target : Plain} (ok : r.createAlias name target = .ok r') :
    Renaming r r' := by
  obtain ⟨s, resolved, -, -, hfree, hresolved, rfl⟩ := exists_setAlias_of_createAlias ok
  exact .aliased hfree hresolved

/-! ## Aliases of built-in functions -/

/-- The aliases that stand for built-in functions. -/
def builtinAliases (r : Registry) : List (String × String) :=
  r.aliasTable.filter fun entry => (builtins.lookup? entry.2).isSome

/-- A name that is not given up by the user is no name of a built-in function. -/
theorem Orderly.lookup?_builtins (o : r.Orderly) {key : String}
    (huser : ∀ f ∈ r.functions, f.name = key → f.userDefined = true) : builtins.lookup? key = none := by
  rw [← Option.not_isSome_iff_eq_none, isSome_lookup?_iff]
  rintro ⟨f, hf, hname⟩
  obtain ⟨hmem, hbuiltin⟩ := o.mem_builtinFunctions_iff.mp hf
  rw [huser f hmem hname] at hbuiltin
  cases hbuiltin

/-- **A change of the functions leaves the aliases of built-in functions alone.** -/
theorem Orderly.builtinAliases_revision (o : r.Orderly) (h : Revision r r') :
    r'.builtinAliases = r.builtinAliases := by
  cases h with
  | added => rfl
  | @erased key huser =>
    show (r.aliasTable.filter _).filter _ = r.aliasTable.filter _
    rw [List.filter_filter]
    refine List.filter_congr fun entry _ => ?_
    by_cases hkey : entry.2 = key
    · simp [hkey, o.lookup?_builtins huser]
    · simp [hkey]

/-- Changes of the functions leave the aliases of built-in functions alone. -/
theorem Orderly.builtinAliases_revisions (o : r.Orderly) (h : Revisions r r') :
    r'.builtinAliases = r.builtinAliases := by
  induction h with
  | refl => rfl
  | tail hsteps hstep ih => exact ((o.revisions hsteps).builtinAliases_revision hstep).trans ih

/-! ## Only built-in functions -/

/-- Functions given up one by one. -/
theorem foldl_erase (gs : List Function) (r : Registry) :
    gs.foldl (fun r g => r.erase g.name) r
      = ⟨r.functions.filter (·.name ∉ gs.map (·.name)), r.aliasTable.filter (·.2 ∉ gs.map (·.name))⟩ := by
  induction gs generalizing r with
  | nil => simp
  | cons g gs ih =>
    rw [List.foldl_cons, ih (r.erase g.name)]
    simp only [erase, List.filter_filter, List.map_cons, List.mem_cons, ne_eq, not_or, Bool.decide_and,
      Bool.and_comm]

/-- **When the functions of the user are given up, the built-in functions are left with their aliases.** -/
theorem Orderly.builtinsOnly_eq (o : r.Orderly) :
    Calculator.builtinsOnly r = ⟨builtinFunctions, r.builtinAliases⟩ := by
  -- a listed function has the name of one of the user only if the user made it
  have hnames : ∀ f ∈ r.functions,
      f.name ∈ (r.functions.filter (·.userDefined)).map (·.name) ↔ f.userDefined = true := by
    intro f hf
    refine ⟨fun hmem => ?_, fun h => List.mem_map.mpr ⟨f, List.mem_filter.mpr ⟨hf, h⟩, rfl⟩⟩
    obtain ⟨g, hg, hname⟩ := List.mem_map.mp hmem
    obtain ⟨hg, huser⟩ := List.mem_filter.mp hg
    rwa [o.eq_of_name hf hg hname.symm]
  have hfunctions : r.functions.filter (·.name ∉ (r.functions.filter (·.userDefined)).map (·.name))
      = builtinFunctions := by
    rw [← o.builtin]
    refine List.filter_congr fun f hf => ?_
    rw [Bool.eq_iff_iff, decide_eq_true_eq, hnames f hf, Bool.not_eq_true, Bool.not_eq_true']
  have haliases : r.aliasTable.filter (·.2 ∉ (r.functions.filter (·.userDefined)).map (·.name))
      = r.builtinAliases := by
    refine List.filter_congr fun entry hentry => ?_
    obtain ⟨f, hf, hname⟩ := isSome_lookup?_iff.mp (o.targets entry hentry)
    have hlookup : (builtins.lookup? entry.2).isSome ↔ f.userDefined = false := by
      rw [isSome_lookup?_iff]
      constructor
      · rintro ⟨g, hg, hgname⟩
        obtain ⟨hg, hbuiltin⟩ := o.mem_builtinFunctions_iff.mp hg
        rwa [o.eq_of_name hf hg (hname.trans hgname.symm)]
      · exact fun h => ⟨f, o.mem_builtinFunctions_iff.mpr ⟨hf, h⟩, hname⟩
    rw [Bool.eq_iff_iff, hlookup, decide_eq_true_eq, ← hname, hnames f hf, Bool.not_eq_true]
  rw [Calculator.builtinsOnly, foldl_erase, hfunctions, haliases]

end Registry

end SciCalc
