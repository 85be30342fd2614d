/-
  Names of variables, of functions and of constants.

  1. **Names apart** (`Apart`) — no variable has the name of a function, an alias or a constant, in any case of
     letters, and no function or alias has that of a constant.

  2. **What can be written** (`Apart.value_of_variable`, `Apart.value_of_constant`) — where the names are apart, each
     variable and each constant can be used in an expression: its name alone is one token, which is evaluated to
     what the name stands for.

  3. **Naming** (`Naming`, `Reserved`) — three operations give a name to a function or an alias.  They look at the
     names of functions and aliases, and not at those of constants and variables, which are reserved.

  4. **Theorem** (`apart_throughout_iff`) — the names are apart all through a session exactly if no operation of it
     gives a reserved name.  Such an operation is not refused (`names_not_always_apart`).

  The crux is `apart_perform_iff`: where the names are apart, an operation keeps them so unless it gives a reserved
  name, as what binds a variable looks at the names of functions, aliases and constants.
-/
import SciCalc.Proofs.Calculator.Assignment
import SciCalc.Proofs.Calculator.History

namespace SciCalc

open Attempt

/-- What is bound behind a binding was bound before, or it is the new one. -/
theorem Bindings.mem_of_mem_put {name : String} {v : Value} {b : Bindings} {entry : String × Value}
    (h : entry ∈ b.put name v) : entry = (name, v) ∨ entry ∈ b := by
  induction b with
  | nil => exact Or.inl (List.mem_singleton.mp h)
  | cons first rest ih =>
    rw [put] at h
    split at h
    · exact (List.mem_cons.mp h).imp id (List.mem_cons_of_mem _)
    · rcases List.mem_cons.mp h with rfl | h
      · exact Or.inr List.mem_cons_self
      · exact (ih h).imp id (List.mem_cons_of_mem _)

/-- A name that has a value is bound. -/
theorem Bindings.mem_of_find? {name : String} {v : Value} {b : Bindings} (h : b.find? name = some v) :
    (name, v) ∈ b := by
  obtain ⟨⟨name', v'⟩, hfind, rfl⟩ := Option.map_eq_some_iff.mp h
  obtain rfl : name' = name := by simpa using List.find?_some hfind
  exact List.mem_of_find?_eq_some hfind

/-- A constant that is found has the name in lower case. -/
theorem Constant.mem_of_find? {name : String} {k : Constant} (h : find? name = some k) :
    k ∈ all ∧ k.name = Text.lower name :=
  ⟨List.mem_of_find?_eq_some h, by simpa using List.find?_some h⟩

/-- Each constant is found under its name, which can be written in an expression. -/
theorem Constant.find?_name {k : Constant} (h : k ∈ all) :
    find? k.name = some k ∧ Token.IsName k.name ∧ k.name.length ≤ Limit.inputLength := by
  have hfind : ∀ k ∈ all, find? k.name = some k := by decide +kernel
  have hname : ∀ k ∈ all, k.name.toList.head?.any Token.isNameStart = true ∧
      k.name.toList.tail.all Token.isNamePart = true := by decide +kernel
  have hlength : ∀ k ∈ all, k.name.length ≤ Limit.inputLength := by decide +kernel
  refine ⟨hfind k h, ?_, hlength k h⟩
  obtain ⟨hstart, hrest⟩ := hname k h
  rcases hlist : k.name.toList with _ | ⟨c, rest⟩
  · rw [hlist] at hstart
    cases hstart
  · rw [hlist] at hstart hrest
    exact ⟨c, rest, hlist, hstart, List.all_eq_true.mp hrest⟩

/-! ## What is taken -/

namespace Registry

variable {r r' : Registry} {key : String}

/-- A function that is added takes its name. -/
theorem isTaken_add (r : Registry) (f : Function) (key : String) : (r.add f).1.isTaken key = true ↔
    r.isTaken key = true ∨ (r.add f).2 = true ∧ f.name = key := by
  rcases r.add_cases f with ⟨-, hadd⟩ | ⟨-, hadd⟩
  · simp [hadd]
  · rw [hadd, isTaken_iff, isTaken_iff]
    simp only [List.mem_append, List.mem_singleton, or_and_right, exists_or, exists_eq_left, true_and]
    exact or_right_comm

/-- A registration takes its name if the function is added. -/
theorem isTaken_of_register {name arity : Plain} {i : Option Implementation} {description category : String}
    {userDefined added : Bool} (ok : r.register name arity i description category userDefined = .ok (r', added)) :
    ∃ s, name = .text s ∧
      ∀ key, r'.isTaken key = true ↔ r.isTaken key = true ∨ added = true ∧ Text.lower s = key := by
  obtain ⟨s, a, i', hname, -, -, -, hadd⟩ := exists_add_of_register ok
  refine ⟨s, hname, fun key => ?_⟩
  have htaken := isTaken_add r ⟨Text.lower s, a, i', description, category, userDefined⟩ key
  rwa [hadd] at htaken

/-- Setting an entry adds its key to the others. -/
theorem exists_mem_setAlias_iff {name target : String} {table : List (String × String)} :
    (∃ entry ∈ setAlias name target table, entry.1 = key) ↔ name = key ∨ ∃ entry ∈ table, entry.1 = key := by
  induction table with
  | nil => simp [setAlias]
  | cons first rest ih =>
    rw [setAlias]
    split
    · rename_i heq
      simp [heq]
    · simp only [List.exists_mem_cons_iff, ih]
      exact or_left_comm

/-- An alias that is made takes its name. -/
theorem isTaken_of_createAlias {name target : Plain} (ok : r.createAlias name target = .ok r') :
    ∃ s, name = .text s ∧ ∀ key, r'.isTaken key = true ↔ r.isTaken key = true ∨ Text.lower s = key := by
  obtain ⟨s, resolved, hname, -, -, -, rfl⟩ := exists_setAlias_of_createAlias ok
  refine ⟨s, hname, fun key => ?_⟩
  rw [isTaken_iff, isTaken_iff, exists_mem_setAlias_iff]
  exact or_left_comm.trans or_comm

/-- What is given up takes nothing. -/
theorem isTaken_of_erase {name : String} (h : (r.erase name).isTaken key = true) : r.isTaken key = true :=
  isTaken_of_subset List.filter_sublist.subset List.filter_sublist.subset h

theorem isTaken_of_removeAlias {name : String} (h : (r.removeAlias name).1.isTaken key = true) :
    r.isTaken key = true :=
  @isTaken_of_subset r (r.removeAlias name).1 (List.Subset.refl _) List.filter_sublist.subset key h

theorem isTaken_of_remove {name : String} {removed : Bool} (ok : r.remove name = .ok (r', removed))
    (h : r'.isTaken key = true) : r.isTaken key = true := by
  rcases remove_cases ok with rfl | ⟨f, -, -, rfl⟩
  · exact h
  · exact isTaken_of_erase h

end Registry

namespace Calculator

variable {c : Calculator} {op : Operation} {key : String}

theorem isTaken_of_withoutOld {r : Registry} {name : String} (h : (withoutOld r name).isTaken key = true) :
    r.isTaken key = true := by
  unfold withoutOld at h
  split at h
  · exact Registry.isTaken_of_erase h
  · exact h

theorem isTaken_of_builtinsOnly {r : Registry} (h : (builtinsOnly r).isTaken key = true) :
    r.isTaken key = true := by
  rw [builtinsOnly, Registry.foldl_erase] at h
  exact Registry.isTaken_of_subset List.filter_sublist.subset List.filter_sublist.subset h

/-! ## Names apart -/

/-- **The names of variables, of functions and of constants are apart.** -/
structure Apart (c : Calculator) : Prop where
  /-- No variable has the name of a function, an alias or a constant, in any case of letters. -/
  bound : ∀ entry ∈ c.bindings,
    c.functions.isTaken (Text.lower entry.1) = false ∧ Vocabulary.isConstant entry.1 = false
  /-- No function and no alias has the name of a constant. -/
  constant : ∀ k ∈ Constant.all, c.functions.isTaken k.name = false

/-- The names of a new calculator are apart. -/
theorem apart_new (historySize : Nat) : (new historySize).Apart :=
  have untaken : ∀ k ∈ Constant.all, Registry.builtins.isTaken k.name = false := by decide +kernel
  ⟨nofun, untaken⟩

/-! ## What can be written -/

/-- An expression that is only a constant has its value in the active regime. -/
theorem evaluate_constant {env : Environment} {t : Token} (ht : t.kind = .constant) (w : Value) :
    env.evaluate [t] = .ok ⟨w, 0⟩ ↔ Evaluation.constantValue env.modes t.value = .ok w := by
  simp only [Environment.evaluate, Evaluation.evaluateWith, Evaluation.run, Evaluation.step, ht]
  cases Evaluation.constantValue env.modes t.value with
  | error failure => simp
  | ok u => simp [Evaluation.finish, Evaluation.push, Evaluation.start]

/-- A name alone that is an operand is compiled to one token. -/
theorem compile_name (reached : Reachable c) {name : String} (hname : Token.IsName name)
    (hlength : name.length ≤ Limit.inputLength) {kind : TokenKind}
    (hkind : Token.classify c.vocabulary c.modes.complexEnabled name = kind)
    (hoperand : kind = .number ∨ kind = .constant ∨ kind = .variable) :
    c.compile (.text name) = .ok [⟨kind, name, 0, none⟩] := by
  have htokens := tokens_name reached hname hlength
  rw [hkind] at htokens
  exact compile_eq_ok.mpr ⟨_, htokens, Postfix.ofTokens_operand c.operators hoperand name 0 _⟩

/-- **A variable can be used in an expression** where the names are apart. -/
theorem Apart.value_of_variable (apart : c.Apart) (reached : Reachable c) {name : String} {v : Value}
    (hbound : c.bindings.find? name = some v) (hname : Text.isName name = true)
    (hlength : name.length ≤ Limit.inputLength) :
    ∃ ps, c.compile (.text name) = .ok ps ∧
      ∀ w, c.environment.evaluate ps = .ok ⟨w, 0⟩ ↔ c.modes.normalize v = .ok w := by
  obtain ⟨hfree, hconstant⟩ := apart.bound _ (Bindings.mem_of_find? hbound)
  have hfunction : c.functions.contains name = false := by
    rwa [Registry.contains_eq_isTaken reached.orderly.targets]
  have hkind := classify_variable hfunction hconstant
  exact ⟨_, compile_name reached (Text.isName_token hname) hlength hkind (Or.inr (Or.inr rfl)),
    evaluate_variable hbound rfl⟩

/-- **A constant can be used in an expression** where the names are apart; the imaginary unit is one only while
    complex numbers are in use. -/
theorem Apart.value_of_constant (apart : c.Apart) (reached : Reachable c) {k : Constant} (hk : k ∈ Constant.all)
    (hcomplex : k.isComplex = true → c.modes.complexEnabled = true) :
    ∃ ps, c.compile (.text k.name) = .ok ps ∧
      ∀ w, c.environment.evaluate ps = .ok ⟨w, 0⟩ ↔ Evaluation.constantValue c.modes k.name = .ok w := by
  obtain ⟨hfind, hname, hlength⟩ := Constant.find?_name hk
  have hfunction : c.vocabulary.isFunction k.name = false := by
    show c.functions.contains k.name = false
    rw [Registry.contains_eq_isTaken reached.orderly.targets, ← (Constant.mem_of_find? hfind).2]
    exact apart.constant k hk
  have hkind : Token.classify c.vocabulary c.modes.complexEnabled k.name = .constant := by
    rw [Token.classify, hfunction, if_neg (by decide), hfind]
    refine if_neg fun h => ?_
    obtain ⟨hk, hoff⟩ := Bool.and_eq_true_iff.mp h
    rw [hcomplex hk] at hoff
    cases hoff
  exact ⟨_, compile_name reached hname hlength hkind (Or.inr (Or.inl rfl)), evaluate_constant rfl⟩

/-! ## Naming -/

/-- The operation gives a name to a function or an alias; the name counts in lower case. -/
inductive Naming (c : Calculator) : Operation → String → Prop where
  | registered {name : String} {arity : Plain} {call : Option (List Plain → Except Failure Plain)}
      {description category : String} {c' : Calculator} :
      c.registerFunction (.text name) arity call description category = .ok (true, c') →
      Naming c (.registerFunction (.text name) arity call description category) (Text.lower name)
  | defined {name : String} {parameters : List Plain} {body : Plain} :
      (c.defineFunction (.text name) parameters body).1 = .ok true →
      Naming c (.defineFunction (.text name) parameters body) (Text.lower name)
  | aliased {name : String} {target : Plain} {c' : Calculator} :
      c.createAlias (.text name) target = .ok c' → Naming c (.createAlias (.text name) target) (Text.lower name)

/-- The name is reserved: it is that of a constant or, in some case of letters, that of a variable. -/
def Reserved (c : Calculator) (key : String) : Prop :=
  (∃ k ∈ Constant.all, k.name = key) ∨ ∃ entry ∈ c.bindings, Text.lower entry.1 = key

/-- A name that is given is taken behind the operation. -/
theorem Naming.isTaken (h : c.Naming op key) : (c.perform op).functions.isTaken key = true := by
  cases h with
  | registered ok =>
    obtain ⟨_, functions, -, hregister, rfl⟩ := exists_of_registerFunction ok
    obtain ⟨s, hname, htaken⟩ := Registry.isTaken_of_register hregister
    obtain rfl := Plain.text.inj hname
    rw [perform, ok]
    exact (htaken _).mpr (Or.inr ⟨rfl, rfl⟩)
  | @defined name parameters body ok =>
    rw [perform]
    cases c.defining (.text name) parameters body with
    | refused _ heq | late _ _ _ _ _ heq =>
      rw [heq] at ok
      cases ok
    | registered s ps ts functions added _ hregister heq =>
      rw [heq] at ok ⊢
      obtain ⟨s', hname, htaken⟩ := Registry.isTaken_of_register hregister
      obtain rfl := Plain.text.inj hname
      exact (htaken _).mpr (Or.inr ⟨Except.ok.inj ok, rfl⟩)
  | aliased ok =>
    obtain ⟨functions, hcreate, rfl⟩ := exists_of_createAlias ok
    obtain ⟨s, hname, htaken⟩ := Registry.isTaken_of_createAlias hcreate
    obtain rfl := Plain.text.inj hname
    rw [perform, ok]
    exact (htaken _).mpr (Or.inr rfl)

/-- **A name that is taken behind an operation** was taken before, or the operation gives it. -/
theorem isTaken_perform (h : (c.perform op).functions.isTaken key = true) :
    c.functions.isTaken key = true ∨ c.Naming op key := by
  -- a refused attempt takes nothing
  have attempted : ∀ {attempt : Except Failure Calculator},
      (c.after attempt).functions.isTaken key = true →
      (∀ c', attempt = .ok c' → c'.functions.isTaken key = true → c.functions.isTaken key = true ∨ c.Naming op key) →
      c.functions.isTaken key = true ∨ c.Naming op key := fun h hok =>
    after_induction (p := fun c' => c'.functions.isTaken key = true → _) Or.inl hok h
  cases op with
  | registerFunction name arity call description category =>
    refine attempted h fun c' hc' htaken => ?_
    obtain ⟨⟨added, c''⟩, ok, rfl⟩ := exists_of_map_eq_ok hc'
    obtain ⟨_, functions, -, hregister, rfl⟩ := exists_of_registerFunction ok
    obtain ⟨s, rfl, hiff⟩ := Registry.isTaken_of_register hregister
    rcases (hiff key).mp htaken with hold | ⟨rfl, rfl⟩
    · exact Or.inl hold
    · exact Or.inr (.registered ok)
  | defineFunction name parameters body =>
    rw [perform] at h
    cases c.defining name parameters body with
    | refused _ heq =>
      rw [heq] at h
      exact Or.inl h
    | late _ _ _ _ _ heq =>
      rw [heq] at h
      exact Or.inl (isTaken_of_withoutOld h)
    | registered s ps ts functions added _ hregister heq =>
      rw [heq] at h
      obtain ⟨s', rfl, hiff⟩ := Registry.isTaken_of_register hregister
      rcases (hiff key).mp h with hold | ⟨rfl, rfl⟩
      · exact Or.inl (isTaken_of_withoutOld hold)
      · exact Or.inr (.defined (by rw [heq]))
  | removeFunction name =>
    refine attempted h fun c' hc' htaken => Or.inl ?_
    obtain ⟨⟨removed, c''⟩, hremove, rfl⟩ := exists_of_map_eq_ok hc'
    obtain ⟨functions, hfunctions, rfl⟩ := exists_of_removeFunction hremove
    exact Registry.isTaken_of_remove hfunctions htaken
  | createAlias name target =>
    refine attempted h fun c' ok htaken => ?_
    obtain ⟨functions, hcreate, rfl⟩ := exists_of_createAlias ok
    obtain ⟨s, rfl, hiff⟩ := Registry.isTaken_of_createAlias hcreate
    rcases (hiff key).mp htaken with hold | rfl
    · exact Or.inl hold
    · exact Or.inr (.aliased ok)
  | removeAlias name => exact Or.inl (Registry.isTaken_of_removeAlias h)
  | reset => exact Or.inl (isTaken_of_builtinsOnly h)
  | _ =>
    rw [(sameVocabulary_perform c rfl).functions] at h
    exact Or.inl h

/-- What gives a name leaves the variables alone. -/
theorem Naming.bindings (h : c.Naming op key) : (c.perform op).bindings = c.bindings := by
  have hfunctions : op.isOfFunctions = true ∧ op ≠ .reset := by
    cases h <;> exact ⟨rfl, nofun⟩
  obtain ⟨functions, hop⟩ := perform_of_functions c hfunctions.1 hfunctions.2
  rw [hop]

theorem bindings_calculate (c : Calculator) (expression : Plain) :
    (c.calculate expression).2.bindings = c.bindings := by
  rcases c.calculate_cases expression with ⟨_, _, _, _, _, heq⟩ | ⟨_, _, _, heq⟩
  · rw [heq]
    rfl
  · rw [heq]
    rfl

theorem bindings_conclude (c : Calculator) (what : String) (ending : Ending) :
    (c.begin.conclude what ending).2.bindings = c.bindings := by
  cases ending <;> rfl

theorem mem_bindings_assign {p expression : Plain} {entry : String × Value}
    (h : entry ∈ (c.assign p expression).2.bindings) :
    entry ∈ c.bindings ∨ c.Binds (.assign p expression) entry.1 entry.2 := by
  cases hname : c.variableName p with
  | error f =>
    rw [assign, hname] at h
    exact Or.inl h
  | ok name =>
    have hassign := assign_of_name hname expression
    rw [hassign] at h
    cases hvalue : (c.calculate expression).1.value with
    | none =>
      rw [hvalue] at h
      exact Or.inl (bindings_calculate c expression ▸ h)
    | some v =>
      rw [hvalue] at h
      rcases Bindings.mem_of_mem_put h with rfl | hold
      · exact Or.inr (.assign hname (by rw [hassign, hvalue]))
      · exact Or.inl (bindings_calculate c expression ▸ hold)

theorem mem_bindings_setVariable {p value : Plain} {entry : String × Value}
    (h : entry ∈ (c.perform (.setVariable p value)).bindings) :
    entry ∈ c.bindings ∨ c.Binds (.setVariable p value) entry.1 entry.2 := by
  refine after_induction (p := fun c' => entry ∈ c'.bindings → _) Or.inl (fun c' hset hentry => ?_) h
  obtain ⟨name, hname, hset⟩ := bind_eq_ok.mp hset
  obtain ⟨v, hvalue, hset⟩ := bind_eq_ok.mp hset
  cases hset
  rcases Bindings.mem_of_mem_put hentry with rfl | hold
  · exact Or.inr (.setVariable hname hvalue)
  · exact Or.inl hold

/-- **What is bound behind an operation** was bound before, or the operation binds it. -/
theorem mem_bindings_perform {entry : String × Value} (h : entry ∈ (c.perform op).bindings) :
    entry ∈ c.bindings ∨ c.Binds op entry.1 entry.2 := by
  by_cases hreset : op = .reset
  · subst hreset
    cases h
  cases hfunctions : op.isOfFunctions with
  | true =>
    obtain ⟨functions, hop⟩ := perform_of_functions c hfunctions hreset
    rw [hop] at h
    exact Or.inl h
  | false =>
    cases op with
    | assign p expression => exact mem_bindings_assign h
    | setVariable p value => exact mem_bindings_setVariable h
    | calculate expression => exact Or.inl (bindings_calculate c expression ▸ h)
    | solve expression unknown guess => exact Or.inl (bindings_conclude c _ _ ▸ h)
    | integrate expression lower upper unknown => exact Or.inl (bindings_conclude c _ _ ▸ h)
    | deleteVariable name => exact Or.inl (List.mem_of_mem_filter h)
    | clearVariables => cases h
    | setMode mode value =>
      rcases perform_setMode c mode value with hop | ⟨m, -, hop⟩
      · rw [hop] at h
        exact Or.inl h
      · rw [hop] at h
        exact Or.inl h
    | resetModes | clearHistory => exact Or.inl h
    | _ => cases hfunctions

/-- What binds a variable looks at the names of functions, aliases and constants. -/
theorem Binds.free (reached : Reachable c) {name : String} {v : Value} (h : c.Binds op name v) :
    c.functions.isTaken (Text.lower name) = false ∧ Vocabulary.isConstant name = false ∧
      op.isOfFunctions = false := by
  have accepted : ∀ {p}, c.variableName p = .ok name →
      c.functions.isTaken (Text.lower name) = false ∧ Vocabulary.isConstant name = false := by
    intro p hname
    obtain ⟨-, hfunction, hconstant⟩ := variableName_eq_ok hname
    rw [Registry.contains_eq_isTaken reached.orderly.targets] at hfunction
    exact ⟨hfunction, hconstant⟩
  cases h with
  | assign hname _ => exact ⟨(accepted hname).1, (accepted hname).2, rfl⟩
  | setVariable hname _ => exact ⟨(accepted hname).1, (accepted hname).2, rfl⟩

/-- **An operation keeps the names apart unless it gives a reserved name.** -/
theorem apart_perform_iff (reached : Reachable c) (apart : c.Apart) :
    (c.perform op).Apart ↔ ∀ key, c.Naming op key → ¬ c.Reserved key := by
  constructor
  · rintro apart' key naming (⟨k, hk, rfl⟩ | ⟨entry, hentry, rfl⟩)
    · exact absurd naming.isTaken (Bool.eq_false_iff.mp (apart'.constant k hk))
    · rw [← naming.bindings] at hentry
      exact absurd naming.isTaken (Bool.eq_false_iff.mp (apart'.bound entry hentry).1)
  · intro h
    have untaken : ∀ {key}, c.functions.isTaken key = false → c.Reserved key →
        (c.perform op).functions.isTaken key = false := by
      intro key hfree hreserved
      rw [Bool.eq_false_iff] at hfree ⊢
      intro htaken
      rcases isTaken_perform htaken with hold | naming
      · exact hfree hold
      · exact h key naming hreserved
    refine ⟨fun entry hentry => ?_, fun k hk => untaken (apart.constant k hk) (Or.inl ⟨k, hk, rfl⟩)⟩
    rcases mem_bindings_perform hentry with hold | binds
    · obtain ⟨hfree, hconstant⟩ := apart.bound entry hold
      exact ⟨untaken hfree (Or.inr ⟨entry, hold, rfl⟩), hconstant⟩
    · obtain ⟨hfree, hconstant, hop⟩ := binds.free reached
      rw [(sameVocabulary_perform c hop).functions]
      exact ⟨hfree, hconstant⟩

/-! ## Theorem -/

section

variable (historySize : Nat) (ops : List Operation)

/-- **When the names are apart all through a session**: exactly if no operation of it gives a reserved name. -/
theorem apart_throughout :
    (∀ before, before <+: ops → (session historySize before).Apart) ↔
      ∀ step ∈ sessionSteps historySize ops, ∀ key, step.1.Naming step.2 key → ¬ step.1.Reserved key := by
  induction ops using List.reverseRecOn with
  | nil =>
    refine iff_of_true (fun before h => ?_) fun step hstep => absurd hstep List.not_mem_nil
    obtain rfl := List.prefix_nil.mp h
    exact apart_new historySize
  | append_singleton ops op ih =>
    rw [sessionSteps_concat, List.forall_mem_append, List.forall_mem_singleton, ← ih]
    constructor
    · intro h
      refine ⟨fun before hbefore => h before (hbefore.trans (List.prefix_append _ _)), ?_⟩
      rw [← apart_perform_iff (reachable_session historySize ops) (h ops (List.prefix_append _ _)), ← session_concat]
      exact h _ (List.prefix_refl _)
    · rintro ⟨h, hlast⟩ before hbefore
      rcases List.prefix_concat_iff.mp hbefore with rfl | hbefore
      · rw [session_concat]
        exact (apart_perform_iff (reachable_session historySize ops) (h ops (List.prefix_refl _))).mpr hlast
      · exact h before hbefore

/-- **Names apart.**  The names of variables, of functions and of constants are apart all through a session exactly
    if no operation of it gives a reserved name to a function or an alias.  Where they are apart, each variable and
    each constant can be used in an expression: its name alone is evaluated to what it stands for. -/
theorem apart_throughout_iff :
    ((∀ before, before <+: ops → (session historySize before).Apart) ↔
      ∀ step ∈ sessionSteps historySize ops, ∀ key, step.1.Naming step.2 key → ¬ step.1.Reserved key) ∧
    (let c := session historySize ops
    c.Apart →
      (∀ name v, c.bindings.find? name = some v → Text.isName name = true → name.length ≤ Limit.inputLength →
        ∃ ps, c.compile (.text name) = .ok ps ∧
          ∀ w, c.environment.evaluate ps = .ok ⟨w, 0⟩ ↔ c.modes.normalize v = .ok w) ∧
      ∀ k ∈ Constant.all, (k.isComplex = true → c.modes.complexEnabled = true) →
        ∃ ps, c.compile (.text k.name) = .ok ps ∧
          ∀ w, c.environment.evaluate ps = .ok ⟨w, 0⟩ ↔ Evaluation.constantValue c.modes k.name = .ok w) := by
  refine ⟨apart_throughout historySize ops, ?_⟩
  intro c apart
  have reached : Reachable c := reachable_session historySize ops
  exact ⟨fun _ _ => apart.value_of_variable reached, fun _ => apart.value_of_constant reached⟩

/-- **Where the names are not apart.**  A function can be defined under the name of a variable, and an alias can be
    made under that of a constant.  Neither the variable nor the constant has a value in an expression any more. -/
theorem names_not_always_apart :
    let c := session 100 [.setVariable (.text "foo") (.integer 1),
      .defineFunction (.text "foo") [.text "p"] (.text "p+2")]
    let d := session 100 [.createAlias (.text "PI") (.text "sin")]
    (¬ c.Apart ∧ c.bindings.find? "foo" = some (.integer 1) ∧ (c.calculate (.text "foo")).1.value = none) ∧
    (¬ d.Apart ∧ (d.calculate (.text "pi")).1.value = none) := by
  intro c d
  have hfoo : c.bindings.find? "foo" = some (.integer 1) := by decide +kernel
  refine ⟨⟨fun apart => ?_, hfoo, by decide +kernel⟩, fun apart => ?_, by decide +kernel⟩
  · have htaken : c.functions.isTaken (Text.lower "foo") = true := by decide +kernel
    rw [(apart.bound _ (Bindings.mem_of_find? hfoo)).1] at htaken
    cases htaken
  · obtain ⟨k, hk, htaken⟩ : ∃ k ∈ Constant.all, d.functions.isTaken k.name = true := by decide +kernel
    rw [apart.constant k hk] at htaken
    cases htaken

end

end Calculator

end SciCalc
