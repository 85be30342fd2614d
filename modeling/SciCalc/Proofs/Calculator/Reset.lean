/-
  What a reset brings back.

  1. **Order in every state** (`Reachable.orderly`) — whatever is done to a calculator, its functions and
     aliases stay in order; the size of the history stays what it was.

  2. **What a reset leaves** (`Reachable.reset_eq`) — a new calculator, but with the aliases that stand for
     built-in functions as they are.

  3. **When it leaves a new calculator** (`reset_after_session`) — when these aliases are the default ones, as
     they are after any operations that neither make nor remove an alias.
-/
import Mathlib.Data.List.Induction
import SciCalc.Proofs.Calculator.Blame
import SciCalc.Proofs.Function.Registry

namespace SciCalc

open Attempt

/-- The operation makes or removes an alias. -/
def Operation.isOfAliases : Operation → Bool
  | createAlias .. => true
  | removeAlias _ => true
  | _ => false

namespace Calculator

variable {c : Calculator}

/-! ## Order in every state -/

/-- A definition that is not refused has no name of a built-in function. -/
theorem userDefined_of_checkDefinition {name body : Plain} {parameters : List Plain} {s : String}
    {ps : List String} {ts : List Token} {f : Function}
    (ok : c.checkDefinition name parameters body = .ok (s, ps, ts)) (hfind : c.functions.find? s = some f) :
    f.userDefined = true := by
  have hname := name_of_checkDefinition ok
  unfold definedName at hname
  split at hname
  · split at hname
    · cases hname
    · rename_i huser
      cases hname
      simpa [hfind] using huser
  · cases hname

/-- What is done to the functions by an operation that is not about aliases. -/
theorem revisions_perform (o : c.functions.Orderly) {op : Operation} (h : op.isOfAliases = false) :
    Registry.Revisions c.functions (c.perform op).functions := by
  have attempted : ∀ {attempt : Except Failure Calculator},
      (∀ c', attempt = .ok c' → Registry.Revisions c.functions c'.functions) →
      Registry.Revisions c.functions (c.after attempt).functions := fun h =>
    after_induction (p := fun c' => Registry.Revisions c.functions c'.functions) .refl h
  cases op with
  | registerFunction name arity call description category =>
    refine attempted fun c' h => ?_
    obtain ⟨⟨added, c''⟩, hregister, rfl⟩ := exists_of_map_eq_ok h
    obtain ⟨computes, functions, -, ok, rfl⟩ := exists_of_registerFunction hregister
    exact Registry.revisions_register (i := .host computes) (fun _ _ => trivial) ok
  | defineFunction name parameters body =>
    show Registry.Revisions c.functions (c.defineFunction name parameters body).2.functions
    -- the old function is one of the user, as the name would be refused otherwise
    have hold : ∀ {s ps ts}, c.checkDefinition name parameters body = .ok (s, ps, ts) →
        Registry.Revisions c.functions (withoutOld c.functions s) := by
      intro s ps ts hcheck
      unfold withoutOld
      split
      · rename_i f hfind
        refine .single (o.revision_erase (Registry.mem_of_find? hfind) ?_)
        exact userDefined_of_checkDefinition hcheck hfind
      · exact .refl
    cases c.defining name parameters body with
    | refused _ heq => rw [heq]
    | late _ _ _ _ hcheck heq =>
      rw [heq]
      exact hold hcheck
    | registered s ps ts functions added hcheck hregister heq =>
      rw [heq]
      refine (hold hcheck).trans (Registry.revisions_register (fun a ha => ?_) hregister)
      show a = .exactly ps.length
      simpa [Registry.arityOf, eq_comm] using ha
  | removeFunction name =>
    refine attempted fun c' h => ?_
    obtain ⟨⟨removed, c''⟩, hremove, rfl⟩ := exists_of_map_eq_ok h
    obtain ⟨functions, ok, rfl⟩ := exists_of_removeFunction hremove
    exact o.revisions_remove ok
  | createAlias name target => cases h
  | removeAlias name => cases h
  | reset =>
    refine Registry.revisions_foldl_erase fun g hg f hf hname => ?_
    obtain ⟨hg, huser⟩ := List.mem_filter.mp hg
    rwa [o.eq_of_name hf hg hname]
  | _ =>
    rw [(sameVocabulary_perform c rfl).functions]

/-- An operation about aliases changes nothing else. -/
theorem renaming_perform {op : Operation} (h : op.isOfAliases = true) :
    c.perform op = c ∨ ∃ functions, Registry.Renaming c.functions functions ∧
      c.perform op = { c with functions := functions } := by
  cases op with
  | createAlias name target =>
    cases hmade : c.createAlias name target with
    | error failure => exact Or.inl (by rw [perform, hmade, after])
    | ok c' =>
      obtain ⟨functions, ok, rfl⟩ := exists_of_createAlias hmade
      exact Or.inr ⟨functions, Registry.renaming_createAlias ok, by rw [perform, hmade, after]⟩
  | removeAlias name => exact Or.inr ⟨_, .unaliased, rfl⟩
  | _ => cases h

/-- An operation keeps the functions and aliases in order. -/
theorem orderly_perform (o : c.functions.Orderly) (op : Operation) : (c.perform op).functions.Orderly := by
  cases h : op.isOfAliases with
  | false => exact o.revisions (revisions_perform o h)
  | true =>
    rcases renaming_perform h with hop | ⟨functions, hrenaming, hop⟩
    · rwa [hop]
    · rw [hop]
      exact o.renaming hrenaming

/-- **The functions and aliases of a reachable calculator are in order.** -/
theorem Reachable.orderly (reached : Reachable c) : c.functions.Orderly := by
  induction reached with
  | new historySize => exact Registry.orderly_builtins
  | perform op _ ih => exact orderly_perform ih op

/-- No operation changes how many calculations are remembered. -/
theorem historySize_perform (c : Calculator) (op : Operation) : (c.perform op).historySize = c.historySize := by
  cases hanswered : op.isAnswered with
  | true =>
    obtain ⟨_, _, _, _, _, _, hop⟩ := sameSettings_perform c hanswered
    rw [hop]
  | false =>
    cases hclears : op.clearsHistory with
    | true =>
      cases op with
      | clearHistory | reset => rfl
      | _ => cases hclears
    | false =>
      obtain ⟨_, _, _, hop⟩ := sameMemory_perform c hanswered hclears
      rw [hop]

/-! ## What a reset leaves -/

/-- The calculator with other aliases. -/
def withAliases (c : Calculator) (aliasTable : List (String × String)) : Calculator :=
  { c with functions := { c.functions with aliasTable := aliasTable } }

/-- **A reset leaves a new calculator, but with the aliases that stand for built-in functions.** -/
theorem Reachable.reset_eq (reached : Reachable c) :
    c.reset = (Calculator.new c.historySize).withAliases c.functions.builtinAliases := by
  rw [reset, reached.orderly.builtinsOnly_eq, reached.coherent.operators]
  rfl

/-! ## When a reset leaves a new calculator -/

/-- The calculator after a session: a row of operations on a new one. -/
def session (historySize : Nat) (ops : List Operation) : Calculator := ops.foldl perform (new historySize)

theorem session_concat (historySize : Nat) (ops : List Operation) (op : Operation) :
    session historySize (ops ++ [op]) = (session historySize ops).perform op :=
  List.foldl_concat perform (new historySize) op ops

variable (historySize : Nat) (ops : List Operation)

theorem reachable_session : Reachable (session historySize ops) := by
  induction ops using List.reverseRecOn with
  | nil => exact .new historySize
  | append_singleton ops op ih =>
    rw [session_concat]
    exact ih.perform op

theorem historySize_session : (session historySize ops).historySize = historySize := by
  induction ops using List.reverseRecOn with
  | nil => rfl
  | append_singleton ops op ih => rw [session_concat, historySize_perform, ih]

/-- The default aliases all stand for built-in functions. -/
theorem builtinAliases_builtins : Registry.builtins.builtinAliases = Registry.defaultAliases := by
  decide +kernel

/-- A session without operations about aliases keeps the default ones. -/
theorem builtinAliases_session (h : ∀ op ∈ ops, op.isOfAliases = false) :
    (session historySize ops).functions.builtinAliases = Registry.defaultAliases := by
  induction ops using List.reverseRecOn with
  | nil => exact builtinAliases_builtins
  | append_singleton ops op ih =>
    have ordered := (reachable_session historySize ops).orderly
    have hop : op.isOfAliases = false := h op (by simp)
    rw [session_concat, ordered.builtinAliases_revisions (revisions_perform ordered hop)]
    exact ih fun op' hop' => h op' (List.mem_append_left _ hop')

/-- What an alias of a built-in function stands for is told by the table of all aliases. -/
theorem mem_builtinAliases_iff {c : Calculator} (o : c.functions.Orderly) {key target : String} :
    (key, target) ∈ c.functions.builtinAliases ↔
      (Registry.builtins.lookup? target).isSome ∧ c.functions.aliasTarget? key = some target := by
  rw [Registry.builtinAliases, List.mem_filter, and_comm, Registry.aliasTarget?_eq_some_iff o.keys]

/-- **What a reset brings back after any session.**  All is as in a new calculator, except that the aliases of
    built-in functions are those that the session has left; aliases stand for what they stand for in a new
    calculator exactly if the session has left those of built-in functions so, and a session that neither makes
    nor removes an alias leads back to a new calculator. -/
theorem reset_after_session :
    (session historySize ops).reset
      = (new historySize).withAliases (session historySize ops).functions.builtinAliases ∧
    ((∀ key, (session historySize ops).reset.functions.aliasTarget? key
        = (new historySize).functions.aliasTarget? key) ↔
      ∀ key target, (Registry.builtins.lookup? target).isSome →
        ((session historySize ops).functions.aliasTarget? key = some target ↔
          (new historySize).functions.aliasTarget? key = some target)) ∧
    ((∀ op ∈ ops, op.isOfAliases = false) → (session historySize ops).reset = new historySize) := by
  have reached := reachable_session historySize ops
  have hreset := reached.reset_eq
  rw [historySize_session] at hreset
  -- the aliases behind the reset, and those of a new calculator, are aliases of built-in functions
  have hleft : ∀ key target, (session historySize ops).reset.functions.aliasTarget? key = some target ↔
      (Registry.builtins.lookup? target).isSome ∧
        (session historySize ops).functions.aliasTarget? key = some target := by
    intro key target
    have hkeys : ((session historySize ops).reset.functions.aliasTable.map (·.1)).Nodup :=
      (reached.perform .reset).orderly.keys
    rw [Registry.aliasTarget?_eq_some_iff hkeys, ← mem_builtinAliases_iff reached.orderly, hreset]
    rfl
  have hnew : ∀ key target, (new historySize).functions.aliasTarget? key = some target →
      (Registry.builtins.lookup? target).isSome := by
    intro key target h
    have hmem := (Registry.aliasTarget?_eq_some_iff Registry.orderly_builtins.keys).mp h
    exact Registry.orderly_builtins.targets (key, target) hmem
  refine ⟨hreset, ⟨fun h key target hbuiltin => ?_, fun h key => Option.ext fun target => ?_⟩, fun h => ?_⟩
  · rw [← h key, hleft, and_iff_right hbuiltin]
  · rw [hleft]
    constructor
    · exact fun ⟨hbuiltin, htarget⟩ => (h key target hbuiltin).mp htarget
    · exact fun htarget => ⟨hnew key target htarget, (h key target (hnew key target htarget)).mpr htarget⟩
  · rw [hreset, builtinAliases_session historySize ops h]
    rfl

/-- An alias that is made of a built-in function is there behind a reset, and a default one that is removed is
    not. -/
theorem reset_forgets_no_alias :
    (session 100 [.createAlias (.text "foo") (.text "sin"), .reset]).functions.aliasTarget? "foo" = some "sin" ∧
    (session 100 [.removeAlias "arcsin", .reset]).functions.aliasTarget? "arcsin" = none ∧
    (new 100).functions.aliasTarget? "foo" = none ∧
    (new 100).functions.aliasTarget? "arcsin" = some "asin" := by
  decide +kernel

end Calculator

end SciCalc
