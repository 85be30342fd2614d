/-
  Functions defined anew.

  1. **Looking up behind a change** (`Registry.Resolving.find?_erase`, `Registry.Resolving.find?_append`) — what a
     name finds when a function has been given up, or one has been added.

  2. **Names in every state** (`Reachable.resolving`, `Reachable.isValidName_of_isTaken`) — the names of a reachable
     calculator resolve, and the lower-case names that are taken are valid ones.

  3. **A definition that is refused** (`refused_definition_keeps_iff`) — it changes nothing, unless the name finds a
     function but is not a valid one.  Only a Kelvin sign in the name can bring that about (`kelvin_loses_function`).

  4. **A definition that is not refused** (`exists_find?_defineFunction`, `definition_local`) — it changes what its own
     name finds; the other names that found the old function find nothing, and all others find what they found.

  The crux is that the old function is given up before the new name is looked at.  Looking up lowers the name, and a
  name that is valid in lower case is valid itself but for a Kelvin sign.
-/
import SciCalc.Proofs.Calculator.Accepted
import SciCalc.Proofs.Calculator.Namespace
import SciCalc.Proofs.Function.Resolution

namespace SciCalc

open Attempt

/-! ## Looking up behind a change -/

namespace Registry

variable {r : Registry} {f : Function} {key name : String}

theorem name_of_lookup? (h : r.lookup? key = some f) : f.name = key := by
  simpa using List.find?_some h

theorem name_of_find? (h : r.find? name = some f) : f.name = r.resolve name := name_of_lookup? h

/-- Giving up a function takes the other names from no function. -/
theorem lookup?_erase (r : Registry) (key other : String) :
    (r.erase key).lookup? other = if other = key then none else r.lookup? other := by
  rw [lookup?, lookup?, erase, List.find?_filter]
  split
  · rename_i heq
    subst heq
    simp
  · rename_i hne
    refine congrArg (List.find? · r.functions) (funext fun f => ?_)
    by_cases hname : f.name = other
    · simp [hname, hne]
    · simp [hname]

/-- Giving up a function takes the aliases that stand for it, and no others. -/
theorem aliasTarget?_erase (keys : (r.aliasTable.map (·.1)).Nodup) (key other : String) :
    (r.erase key).aliasTarget? other = (r.aliasTarget? other).filter (· ≠ key) := by
  have keys' : ((r.erase key).aliasTable.map (·.1)).Nodup := keys.sublist (List.filter_sublist.map _)
  refine Option.ext fun target => ?_
  rw [aliasTarget?_eq_some_iff keys', Option.filter_eq_some_iff, aliasTarget?_eq_some_iff keys]
  exact List.mem_filter

/-- **What a name finds when a function has been given up**: nothing if it found that one, or else what it found. -/
theorem Resolving.find?_erase (s : r.Resolving) (key name : String) :
    (r.erase key).find? name = if r.resolve name = key then none else r.find? name := by
  rw [find?, find?, resolve, aliasTarget?_erase s.keys, resolve]
  cases halias : r.aliasTarget? (Text.lower name) with
  | none => exact lookup?_erase r key (Text.lower name)
  | some target =>
    rw [Option.getD_some]
    split
    · -- an alias is no name of a function
      rename_i heq
      rw [heq, Option.filter_some, if_neg (by simp), Option.getD_none, lookup?_erase, (s.aliasTarget? halias).1,
        ite_self]
    · rename_i hne
      rw [Option.filter_some, if_pos (by simpa using hne), Option.getD_some, lookup?_erase, if_neg hne]

/-- A function that is added is found behind the others. -/
theorem lookup?_append (r : Registry) (f : Function) (other : String) :
    lookup? { r with functions := r.functions ++ [f] } other
      = (r.lookup? other).or (if f.name = other then some f else none) := by
  rw [lookup?, List.find?_append, List.find?_singleton]
  simp only [decide_eq_true_eq]
  rfl

/-- **What a name finds when a function has been added** under a name that was not taken. -/
theorem Resolving.find?_append (s : r.Resolving) (hfree : r.isTaken f.name = false) (name : String) :
    find? { r with functions := r.functions ++ [f] } name
      = if Text.lower name = f.name then some f else r.find? name := by
  obtain ⟨hname, halias⟩ := Bool.or_eq_false_iff.mp hfree
  rw [Option.isSome_eq_false_iff, Option.isNone_iff_eq_none] at hname halias
  rw [find?, lookup?_append]
  show Option.or (r.find? name) (if f.name = r.resolve name then some f else none) = _
  by_cases heq : Text.lower name = f.name
  · have hresolve : r.resolve name = f.name := by rw [resolve, heq, halias, Option.getD_none]
    rw [find?, hresolve, hname, if_pos rfl, if_pos heq, Option.none_or]
  · rw [if_neg heq]
    cases htarget : r.aliasTarget? (Text.lower name) with
    | none =>
      have hresolve : r.resolve name = Text.lower name := by rw [resolve, htarget, Option.getD_none]
      rw [hresolve, if_neg (Ne.symm heq), Option.or_none]
    | some target =>
      -- an alias stands for a function that there is
      obtain ⟨g, hg⟩ := Option.isSome_iff_exists.mp (s.aliasTarget? htarget).2.1
      have hfind : r.find? name = some g := by rw [find?, resolve, htarget, Option.getD_some, hg]
      rw [hfind, Option.some_or]

/-- With an implementation that takes so many arguments, a registration is refused only for its name. -/
theorem register_eq_error {n : Nat} {i : Implementation} {description category : String} {userDefined : Bool}
    {failure : Failure} :
    r.register (.text name) (.integer n) (some i) description category userDefined = .error failure ↔
      Text.isValidName name = false ∧ failure = .registration (.functionName (Plain.text name).shown) := by
  cases hvalid : Text.isValidName name with
  | true => simp [register, validName, hvalid, arityOf]
  | false => simp [register, validName, hvalid, Plain.telling, eq_comm]

/-- Giving up functions that are not built in leaves the names resolving. -/
theorem Resolving.foldl_erase {gs : List Function} (s : r.Resolving)
    (huser : ∀ g ∈ gs, ∀ b ∈ builtinFunctions, b.name ≠ g.name) :
    (gs.foldl (fun r g => r.erase g.name) r).Resolving := by
  induction gs generalizing r with
  | nil => exact s
  | cons g gs ih =>
    exact ih (s.erase (huser g List.mem_cons_self)) fun g' hg' => huser g' (List.mem_cons_of_mem _ hg')

end Registry

namespace Calculator

variable {c : Calculator} {name m : String} {parameters : List Plain} {body : Plain}

/-! ## Names in every state -/

/-- The names without the function that is to be defined anew resolve. -/
theorem resolving_withoutOld (s : c.functions.Resolving) {p : Plain} {old : String} {ps : List String}
    {ts : List Token} (hcheck : c.checkDefinition p parameters body = .ok (old, ps, ts)) :
    (withoutOld c.functions old).Resolving := by
  unfold withoutOld
  split
  · rename_i f hfind
    have huser : f.userDefined = true := userDefined_of_checkDefinition hcheck hfind
    exact s.erase (s.name_ne_of_userDefined (Registry.mem_of_find? hfind) huser)
  · exact s

/-- **An operation leaves the names resolving.** -/
theorem resolving_perform (s : c.functions.Resolving) (op : Operation) : (c.perform op).functions.Resolving := by
  -- a refused attempt leaves the functions as they are
  have attempted : ∀ {attempt : Except Failure Calculator},
      (∀ c', attempt = .ok c' → c'.functions.Resolving) → (c.after attempt).functions.Resolving := fun h =>
    after_induction (p := fun c' => c'.functions.Resolving) s h
  cases op with
  | registerFunction name arity call description category =>
    refine attempted fun c' hc' => ?_
    obtain ⟨⟨added, c''⟩, ok, rfl⟩ := exists_of_map_eq_ok hc'
    obtain ⟨computes, functions, -, hregister, rfl⟩ := exists_of_registerFunction ok
    have hserve := s.serve (.register name arity (some (.host computes)) description category true)
    rwa [Registry.serve, hregister] at hserve
  | defineFunction p parameters body =>
    rw [perform]
    cases c.defining p parameters body with
    | refused _ heq => rwa [heq]
    | late old ps ts _ hcheck heq =>
      rw [heq]
      exact resolving_withoutOld s hcheck
    | registered old ps ts functions added hcheck hregister heq =>
      rw [heq]
      have hserve := (resolving_withoutOld s hcheck).serve (.register p (.integer ps.length)
        (some (.defined old ps ts)) (definitionText old ps body) "user" true)
      rwa [Registry.serve, hregister] at hserve
  | removeFunction name =>
    refine attempted fun c' hc' => ?_
    obtain ⟨⟨removed, c''⟩, ok, rfl⟩ := exists_of_map_eq_ok hc'
    obtain ⟨functions, hremove, rfl⟩ := exists_of_removeFunction ok
    have hserve := s.serve (.remove name)
    rwa [Registry.serve, hremove] at hserve
  | createAlias name target =>
    refine attempted fun c' ok => ?_
    obtain ⟨functions, hcreate, rfl⟩ := exists_of_createAlias ok
    exact s.renaming (Registry.renaming_createAlias hcreate)
  | removeAlias name => exact s.renaming .unaliased
  | reset =>
    refine s.foldl_erase fun g hg => ?_
    obtain ⟨hg, huser⟩ := List.mem_filter.mp hg
    exact s.name_ne_of_userDefined hg huser
  | _ => rwa [(sameVocabulary_perform c rfl).functions]

/-- **The names of a reachable calculator resolve.** -/
theorem Reachable.resolving (reached : Reachable c) : c.functions.Resolving := by
  induction reached with
  | new historySize => exact Registry.resolving_builtins
  | perform op _ ih => exact resolving_perform ih op

/-- The name that is given to a function or an alias is a valid one, as it has been accepted. -/
theorem Naming.isValidName {op : Operation} {key : String} (h : c.Naming op key) :
    Text.isValidName key = true := by
  cases h with
  | registered ok => exact Text.isValidName_lower (Accepts.registered ok).isValidName
  | defined ok => exact Text.isValidName_lower (Accepts.defined ok).isValidName
  | aliased ok => exact Text.isValidName_lower (Accepts.aliased ok).isValidName

/-- **The names that are taken in a reachable calculator are valid ones.** -/
theorem Reachable.isValidName_of_isTaken (reached : Reachable c) {key : String}
    (h : c.functions.isTaken key = true) : Text.isValidName key = true := by
  induction reached with
  | new historySize =>
    have hfunctions : ∀ f ∈ Registry.builtinFunctions, Text.isValidName f.name = true := by decide +kernel
    have haliases : ∀ entry ∈ Registry.defaultAliases, Text.isValidName entry.1 = true := by decide +kernel
    rcases Registry.isTaken_iff.mp h with ⟨f, hf, rfl⟩ | ⟨entry, hentry, rfl⟩
    · exact hfunctions f hf
    · exact haliases entry hentry
  | perform op _ ih =>
    rcases isTaken_perform h with hold | naming
    · exact ih hold
    · exact naming.isValidName

/-! ## A definition that is refused -/

/-- What is checked of a definition is not its name. -/
theorem checkDefinition_ne_functionName {p : Plain} {shown : String} :
    c.checkDefinition p parameters body ≠ .error (.registration (.functionName shown)) := by
  intro h
  rcases bind_eq_error.mp h with h | ⟨ps, -, h⟩
  · obtain ⟨parameter, -, h⟩ := exists_of_mapM_eq_error h
    unfold parameterName at h
    split at h
    · split at h
      · cases h
      · split at h <;> cases h
    · cases h
  split at h
  · cases h
  rcases bind_eq_error.mp h with h | ⟨s, -, h⟩
  · unfold definedName at h
    split at h
    · split at h <;> cases h
    · cases h
  rcases bind_eq_error.mp h with h | ⟨ts, -, h⟩
  · unfold compile at h
    split at h
    · cases h
    · rename_i ts _
      cases hrearranged : c.rearrange ts with
      | ok ps =>
        rw [hrearranged] at h
        cases h
      | error cause =>
        rw [hrearranged] at h
        rcases cause.failure_cases with hf | hf
        · cases hf.symm.trans (Except.error.inj h)
        · cases hf.symm.trans (Except.error.inj h)
  · cases h

/-- The name of a definition that is not refused for it is the one that is given. -/
theorem eq_of_definedName {s : String} (h : c.definedName (.text name) = .ok s) : s = name := by
  unfold definedName at h
  dsimp only at h
  split at h
  · cases h
  · exact (Except.ok.inj h).symm

/-- **How a definition is refused**: by a check in front of it, or for a name that is not valid when the old function
    has been given up. -/
theorem refused_cases {f : Failure} (refused : (c.defineFunction (.text name) parameters body).1 = .error f) :
    (f ≠ .registration (.functionName (Plain.text name).shown) ∧
      (c.defineFunction (.text name) parameters body).2 = c) ∨
    (f = .registration (.functionName (Plain.text name).shown) ∧ Text.isValidName name = false ∧
      (∃ ps ts, c.checkDefinition (.text name) parameters body = .ok (name, ps, ts)) ∧
      (c.defineFunction (.text name) parameters body).2
        = { c with functions := withoutOld c.functions name }) := by
  cases hcheck : c.checkDefinition (.text name) parameters body with
  | error f' =>
    have heq : c.defineFunction (.text name) parameters body = (.error f', c) := by rw [defineFunction, hcheck]
    rw [heq] at refused ⊢
    cases refused
    refine Or.inl ⟨?_, rfl⟩
    rintro rfl
    exact checkDefinition_ne_functionName hcheck
  | ok definition =>
    obtain ⟨s, ps, ts⟩ := definition
    obtain rfl : s = name := eq_of_definedName (name_of_checkDefinition hcheck)
    cases hregister : (withoutOld c.functions s).register (.text s) (.integer ps.length) (some (.defined s ps ts))
        (definitionText s ps body) "user" true with
    | error f' =>
      have heq : c.defineFunction (.text s) parameters body
          = (.error f', { c with functions := withoutOld c.functions s }) := by
        simp only [defineFunction, hcheck, hregister]
      rw [heq] at refused ⊢
      cases refused
      obtain ⟨hinvalid, hf⟩ := Registry.register_eq_error.mp hregister
      exact Or.inr ⟨hf, hinvalid, ⟨ps, ts, rfl⟩, rfl⟩
    | ok result =>
      simp only [defineFunction, hcheck, hregister] at refused
      cases refused

/-- The functions without the one that a name finds, if it finds one. -/
theorem withoutOld_of_contains {r : Registry} (h : r.contains name = true) :
    ∃ g ∈ r.functions, r.find? name = some g ∧ withoutOld r name = r.erase g.name := by
  obtain ⟨g, hg⟩ := Option.isSome_iff_exists.mp h
  exact ⟨g, Registry.mem_of_find? hg, hg, by rw [withoutOld, hg]⟩

theorem withoutOld_of_not_contains {r : Registry} (h : r.contains name = false) : withoutOld r name = r := by
  have hnone : r.find? name = none := by
    rwa [Registry.contains, Option.isSome_eq_false_iff, Option.isNone_iff_eq_none] at h
  rw [withoutOld, hnone]

/-- **When a refused definition has changed nothing.**  As long as no Kelvin sign is in the name, nothing is changed.
    In general something is changed exactly if the definition is refused for its name although the name finds a
    function; then the function is lost with its aliases, which was one of the user, and all else is as it was. -/
theorem refused_definition_keeps_iff (reached : Reachable c) {f : Failure}
    (refused : (c.defineFunction (.text name) parameters body).1 = .error f) :
    let after := (c.defineFunction (.text name) parameters body).2
    (Text.kelvinSign ∉ name.toList → after = c) ∧
    (after = c ↔
      ¬ (f = .registration (.functionName (Plain.text name).shown) ∧ c.functions.contains name = true)) ∧
    (after ≠ c → ∃ g ∈ c.functions.functions, c.functions.find? name = some g ∧ g.userDefined = true ∧
      after = { c with functions := c.functions.erase g.name }) := by
  intro after
  have unchanged : ∀ {r : Registry}, r = c.functions → { c with functions := r } = c := by
    rintro _ rfl
    rfl
  rcases refused_cases refused with ⟨hf, hafter⟩ | ⟨hf, hinvalid, ⟨ps, ts, hcheck⟩, hafter⟩
  · have hkept : after = c := hafter
    exact ⟨fun _ => hkept, iff_of_true hkept fun h => hf h.1, fun h => absurd hkept h⟩
  cases hfound : c.functions.contains name with
  | false =>
    have hkept : after = c := hafter.trans (unchanged (withoutOld_of_not_contains hfound))
    exact ⟨fun _ => hkept, iff_of_true hkept fun h => Bool.false_ne_true h.2, fun h => absurd hkept h⟩
  | true =>
    obtain ⟨g, hg, hfind, hwithout⟩ := withoutOld_of_contains hfound
    have hlost : after = { c with functions := c.functions.erase g.name } := by rw [← hwithout]; exact hafter
    -- the function is not among those that are left
    have hchanged : after ≠ c := by
      intro hkept
      have hstill : g ∈ (c.functions.erase g.name).functions := by
        rwa [show c.functions.erase g.name = c.functions from congrArg Calculator.functions (hlost.symm.trans hkept)]
      exact absurd rfl (of_decide_eq_true (List.mem_filter.mp hstill).2)
    have huser : g.userDefined = true := userDefined_of_checkDefinition hcheck hfind
    refine ⟨fun hkelvin => ?_, iff_of_false hchanged fun h => h ⟨hf, rfl⟩, fun _ => ⟨g, hg, hfind, huser, hlost⟩⟩
    -- without a Kelvin sign the name is valid, as the name in lower case is that of a function or an alias
    have htaken : c.functions.isTaken (Text.lower name) = true := by
      rwa [← Registry.contains_eq_isTaken reached.orderly.targets]
    rw [Text.isValidName_of_lower hkelvin (reached.isValidName_of_isTaken htaken)] at hinvalid
    cases hinvalid

/-- A refused definition of a letter with a function changes nothing. -/
theorem refused_definition_keeps_letter :
    let c := session 100 [.defineFunction (.text "k") [.text "x"] (.text "x")]
    ((c.defineFunction (.text "k") [.text "x"] (.text "x+")).1.toOption = none) ∧
      (c.defineFunction (.text "k") [.text "x"] (.text "x+")).2 = c := by
  intro c
  have hrefused : (c.defineFunction (.text "k") [.text "x"] (.text "x+")).1.toOption = none := by decide +kernel
  obtain ⟨f, hresult⟩ := toOption_eq_none.mp hrefused
  exact ⟨hrefused, (refused_definition_keeps_iff (reachable_session 100 _) hresult).1 (by decide)⟩

/-- The letter k written as a Kelvin sign finds the function that is named by the letter.  A definition under that
    name is refused, and the function is lost. -/
theorem kelvin_loses_function :
    let c := session 100 [.defineFunction (.text "k") [.text "x"] (.text "x")]
    let attempt := c.defineFunction (.text "\u212a") [.text "x"] (.text "x+1")
    c.functions.contains "k" = true ∧ attempt.1.toOption = none ∧ attempt.2.functions.contains "k" = false := by
  decide +kernel

/-! ## A definition that is not refused -/

/-- **The functions behind a definition**: the new one stands behind those that are left without the old one. -/
theorem exists_functions_defineFunction (reached : Reachable c) {added : Bool}
    (ok : (c.defineFunction (.text name) parameters body).1 = .ok added) :
    ∃ f : Function, f.name = Text.lower name ∧ (withoutOld c.functions name).Resolving ∧
      (withoutOld c.functions name).isTaken f.name = false ∧
      (c.defineFunction (.text name) parameters body).2.functions
        = { withoutOld c.functions name with functions := (withoutOld c.functions name).functions ++ [f] } := by
  cases c.defining (.text name) parameters body with
  | refused _ heq | late _ _ _ _ _ heq =>
    rw [heq] at ok
    cases ok
  | registered s ps ts functions added' hcheck hregister heq =>
    obtain rfl : s = name := eq_of_definedName (name_of_checkDefinition hcheck)
    have resolving := resolving_withoutOld reached.resolving hcheck
    obtain ⟨t, a, i, hname, -, -, -, hadd⟩ := Registry.exists_add_of_register hregister
    obtain rfl := Plain.text.inj hname
    -- the old function has been given up, so that its name is free
    have hfree : (withoutOld c.functions s).isTaken (Text.lower s) = false := by
      rw [← Registry.contains_eq_isTaken resolving.targets, Registry.contains]
      cases hfound : c.functions.contains s with
      | false =>
        rw [withoutOld_of_not_contains hfound]
        exact hfound
      | true =>
        obtain ⟨g, -, hfind, hwithout⟩ := withoutOld_of_contains hfound
        rw [hwithout, reached.resolving.find?_erase, if_pos (Registry.name_of_find? hfind).symm]
        rfl
    refine ⟨⟨Text.lower s, a, i, definitionText s ps body, "user", true⟩, rfl, resolving, hfree, ?_⟩
    rw [heq]
    rcases (withoutOld c.functions s).add_cases ⟨Text.lower s, a, i, definitionText s ps body, "user", true⟩
      with ⟨htaken, -⟩ | ⟨-, hcase⟩
    · rw [hfree] at htaken
      cases htaken
    · exact (Prod.ext_iff.mp (hadd.symm.trans hcase)).1

/-- What a name finds without the function that another name finds. -/
theorem find?_withoutOld (s : c.functions.Resolving) (name m : String) :
    (withoutOld c.functions name).find? m
      = if c.functions.resolve m = c.functions.resolve name then none else c.functions.find? m := by
  cases hfound : c.functions.contains name with
  | false =>
    rw [withoutOld_of_not_contains hfound]
    split
    · -- neither name finds anything
      rename_i heq
      rw [Registry.find?, heq]
      rwa [Registry.contains, Option.isSome_eq_false_iff, Option.isNone_iff_eq_none] at hfound
    · rfl
  | true =>
    obtain ⟨g, -, hfind, hwithout⟩ := withoutOld_of_contains hfound
    rw [hwithout, s.find?_erase, Registry.name_of_find? hfind]

/-- **What a name finds behind a definition**: the new function under its own name, nothing if it found the old one,
    and else what it found. -/
theorem exists_find?_defineFunction (reached : Reachable c) {added : Bool}
    (ok : (c.defineFunction (.text name) parameters body).1 = .ok added) :
    ∃ f : Function, f.name = Text.lower name ∧
      ∀ m, (c.defineFunction (.text name) parameters body).2.functions.find? m
        = if Text.lower m = Text.lower name then some f
          else if c.functions.resolve m = c.functions.resolve name then none
          else c.functions.find? m := by
  obtain ⟨f, hname, resolving, hfree, hafter⟩ := exists_functions_defineFunction reached ok
  refine ⟨f, hname, fun m => ?_⟩
  rw [hafter, resolving.find?_append hfree, hname, find?_withoutOld reached.resolving]

/-- **A definition is local.**  A name that differs from the one that is defined, in any case of letters, finds
    what it found, unless both names found one function.  Then it is an alias of a function that has been defined
    anew; if that was done under the function's own name, the alias finds nothing any more. -/
theorem definition_local (reached : Reachable c) {added : Bool}
    (ok : (c.defineFunction (.text name) parameters body).1 = .ok added) (hne : Text.lower m ≠ Text.lower name) :
    let after := (c.defineFunction (.text name) parameters body).2
    ((¬ ∃ f, c.functions.find? m = some f ∧ c.functions.find? name = some f) →
      after.functions.contains m = c.functions.contains m ∧ after.functions.find? m = c.functions.find? m) ∧
    ((c.functions.lookup? (Text.lower name)).isSome →
      (∃ f, c.functions.find? m = some f ∧ c.functions.find? name = some f) →
      after.functions.contains m = false) := by
  intro after
  obtain ⟨f, -, hfind⟩ := exists_find?_defineFunction reached ok
  have hm : after.functions.find? m
      = if c.functions.resolve m = c.functions.resolve name then none else c.functions.find? m := by
    rw [hfind, if_neg hne]
  refine ⟨fun hother => ?_, fun _ ⟨g, hg, hg'⟩ => ?_⟩
  · have hkept : after.functions.find? m = c.functions.find? m := by
      rw [hm]
      split
      · -- two names with one key find the same, and so nothing
        rename_i heq
        have hsame : c.functions.find? m = c.functions.find? name := by rw [Registry.find?, heq, Registry.find?]
        cases hfound : c.functions.find? m with
        | none => rfl
        | some g => exact absurd ⟨g, hfound, hsame ▸ hfound⟩ hother
      · rfl
    exact ⟨by rw [Registry.contains, hkept, Registry.contains], hkept⟩
  · have heq : c.functions.resolve m = c.functions.resolve name :=
      (Registry.name_of_find? hg).symm.trans (Registry.name_of_find? hg')
    rw [Registry.contains, hm, if_pos heq]
    rfl

/-- A function that is defined anew takes its alias from it and leaves the sine alone. -/
theorem definition_local_anew :
    let c := session 100 [.defineFunction (.text "f") [.text "x"] (.text "x"), .createAlias (.text "g") (.text "f")]
    let attempt := c.defineFunction (.text "f") [.text "x"] (.text "x+1")
    attempt.1.toOption = some true ∧ attempt.2.functions.find? "sin" = c.functions.find? "sin" ∧
      attempt.2.functions.contains "g" = false := by
  intro c attempt
  have hadded : attempt.1.toOption = some true := by decide +kernel
  have ok : attempt.1 = .ok true := toOption_eq_some.mp hadded
  have reached : Reachable c := reachable_session 100 _
  have hother : ¬ ∃ f, c.functions.find? "sin" = some f ∧ c.functions.find? "f" = some f := by
    rintro ⟨f, hsin, hf⟩
    have hnames : (c.functions.find? "sin").map (·.name) ≠ (c.functions.find? "f").map (·.name) := by decide +kernel
    exact hnames (by rw [hsin, hf])
  have halias : ∃ f, c.functions.find? "g" = some f ∧ c.functions.find? "f" = some f := by
    have hcontained : c.functions.contains "f" = true := by decide +kernel
    obtain ⟨f, hf⟩ := Option.isSome_iff_exists.mp hcontained
    have hkey : c.functions.resolve "g" = c.functions.resolve "f" := by decide +kernel
    exact ⟨f, by rw [Registry.find?, hkey]; exact hf, hf⟩
  exact ⟨hadded, ((definition_local (m := "sin") reached ok (by decide)).1 hother).2,
    (definition_local (m := "g") reached ok (by decide)).2 (by decide +kernel) halias⟩

/-- An alias of a function that is defined anew is lost. -/
theorem definition_takes_alias :
    let c := session 100 [.defineFunction (.text "f") [.text "x"] (.text "x"), .createAlias (.text "g") (.text "f")]
    let attempt := c.defineFunction (.text "f") [.text "x"] (.text "x+1")
    Text.lower "g" ≠ Text.lower "f" ∧ attempt.1.toOption = some true ∧
      c.functions.contains "g" = true ∧ attempt.2.functions.contains "g" = false := by
  decide +kernel

end Calculator

end SciCalc
