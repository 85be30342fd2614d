/-
  Names that are accepted and names that can be written.

  1. **Valid names** (`Text.isValidName_iff`) — a valid name is a name, or a name with a line feed behind it.

  2. **Accepted names** (`Accepts`) — those of variables, functions, aliases and parameters that no operation has
     refused.  They are valid (`Accepts.isValidName`).

  3. **Theorem** (`one_token_iff`) — an accepted name that an expression has room for is read as itself exactly if no
     line feed ends it; with the line feed it is read as the name in front of it (`feed_not_one_token`).

  The crux is that what is accepted is looked for up to a line feed at the very end, while an expression is read up
  to its end: there the line feed is a blank.
-/
import SciCalc.Proofs.Calculator.Assignment
import SciCalc.Proofs.Function.Registry
import SciCalc.Proofs.Text.Lower

namespace SciCalc

open Attempt

/-! ## Valid names -/

namespace Text

/-- What follows the first character of a valid name are name characters, perhaps with a line feed behind them. -/
theorem isNameTail_iff {cs : List Char} :
    isNameTail cs = true ↔ cs.all isNamePart = true ∨ ∃ ds, ds.all isNamePart = true ∧ cs = ds ++ ['\n'] := by
  induction cs with
  | nil => exact iff_of_true rfl (Or.inl rfl)
  | cons c rest ih =>
    cases rest with
    | nil =>
      rw [isNameTail, List.all_cons, List.all_nil, Bool.and_true, Bool.or_eq_true, decide_eq_true_eq]
      refine or_congr_right ⟨fun h => ⟨[], rfl, congrArg (· :: []) h⟩, ?_⟩
      rintro ⟨ds, -, heq⟩
      cases ds with
      | nil => exact (List.cons.inj heq).1
      | cons d ds =>
        rw [List.cons_append, List.cons.injEq] at heq
        exact absurd heq.2.symm (List.append_ne_nil_of_right_ne_nil _ (List.cons_ne_nil _ _))
    | cons d rest =>
      rw [isNameTail_cons_cons, List.all_cons, Bool.and_eq_true, Bool.and_eq_true, ih, and_or_left]
      refine or_congr_right ⟨?_, ?_⟩
      · rintro ⟨hc, ds, hds, heq⟩
        exact ⟨c :: ds, by rw [List.all_cons, hc, hds, Bool.true_and], by rw [heq, List.cons_append]⟩
      · rintro ⟨ds, hds, heq⟩
        -- the line feed is not the first of two characters
        cases ds with
        | nil => cases heq
        | cons c' ds =>
          rw [List.cons_append, List.cons.injEq] at heq
          obtain ⟨rfl, heq⟩ := heq
          obtain ⟨hc, hds⟩ := Bool.and_eq_true_iff.mp hds
          exact ⟨hc, ds, hds, heq⟩

/-- **A valid name is a name, or a name with a line feed behind it.** -/
theorem isValidName_iff {s : String} :
    isValidName s = true ↔ isName s = true ∨ ∃ t, isName t = true ∧ s = t ++ "\n" := by
  cases hs : s.toList with
  | nil =>
    have hempty : s = "" := by rw [← String.ofList_toList (s := s), hs]
    subst hempty
    refine iff_of_false (by decide) ?_
    rintro (h | ⟨t, -, h⟩)
    · cases h
    · have hlist := congrArg String.toList h
      rw [String.toList_append] at hlist
      exact absurd hlist.symm (List.append_ne_nil_of_right_ne_nil _ (by decide))
  | cons c rest =>
    unfold isValidName isName
    rw [hs]
    dsimp only
    rw [Bool.and_eq_true, Bool.and_eq_true, isNameTail_iff, and_or_left]
    refine or_congr_right ⟨fun ⟨hc, ds, hds, hrest⟩ => ⟨String.ofList (c :: ds), ?_, ?_⟩, fun ⟨t, ht, heq⟩ => ?_⟩
    · rw [String.toList_ofList]
      exact Bool.and_eq_true_iff.mpr ⟨hc, hds⟩
    · rw [← String.toList_inj, String.toList_append, String.toList_ofList, hs, hrest]
      rfl
    · have hlist := congrArg String.toList heq
      rw [hs, String.toList_append] at hlist
      cases ht' : t.toList with
      | nil =>
        rw [ht'] at ht
        cases ht
      | cons d ds =>
        rw [ht'] at ht hlist
        rw [List.cons_append, List.cons.injEq] at hlist
        obtain ⟨rfl, hlist⟩ := hlist
        obtain ⟨hd, hds⟩ := Bool.and_eq_true_iff.mp ht
        exact ⟨hd, ds, hds, hlist⟩

/-- No line feed ends a name. -/
theorem getLast?_of_isName {s : String} (h : isName s = true) : s.toList.getLast? ≠ some '\n' := by
  obtain ⟨c, rest, heq, hstart, hrest⟩ := exists_of_isName h
  have hall : ∀ d ∈ s.toList, isNamePart d = true := by
    rw [heq]
    refine List.forall_mem_cons.mpr ⟨?_, List.all_eq_true.mp hrest⟩
    rw [isNamePart, hstart, Bool.true_or]
  intro hlast
  exact absurd (hall _ (List.mem_of_getLast? hlast)) (by decide)

end Text

/-- **A name with a line feed behind it is one token**, without the line feed. -/
theorem Token.lexes_name_feed {v : Vocabulary} {complex : Bool} {name : String} (h : IsName name) :
    Lexes v complex true 0 (name ++ "\n").toList
      [⟨classify v complex name, name, 0, none⟩, ⟨.finish, "", ((name ++ "\n").length : Nat), none⟩] := by
  have hend : Lexes v complex (opensOperand (classify v complex name)) (0 + name.toList.length) ['\n'] _ :=
    .blank (by decide) .finish
  have hname : Reads v complex true (classify v complex name) name.toList ['\n'] := h.reads (by decide)
  have hlexes := Lexes.token hname hend
  rw [Nat.zero_add, String.ofList_toList, String.length_toList] at hlexes
  rwa [String.toList_append, String.length_append]

/-- The text is read as one token, an identifier that has the text itself as its value. -/
def Token.IsOneName (v : Vocabulary) (complex : Bool) (limit : Int) (text : String) : Prop :=
  ∃ kind ∈ [TokenKind.function, .constant, .variable],
    tokenize v complex limit text = .ok [⟨kind, text, 0, none⟩, ⟨.finish, "", text.length, none⟩]

namespace Calculator

variable {c : Calculator} {name : String}

/-! ## Accepted names -/

/-- **The name is accepted** by an operation that gives it to a variable, a function, an alias or a parameter. -/
inductive Accepts (c : Calculator) (name : String) : Prop where
  | bound {value : Plain} {c' : Calculator} : c.setVariable (.text name) value = .ok c' → Accepts c name
  | assigned {expression : Plain} : (c.assign (.text name) expression).1.succeeded = true → Accepts c name
  | registered {arity : Plain} {call : Option (List Plain → Except Failure Plain)} {description category : String}
      {result : Bool × Calculator} :
      c.registerFunction (.text name) arity call description category = .ok result → Accepts c name
  | aliased {target : Plain} {c' : Calculator} : c.createAlias (.text name) target = .ok c' → Accepts c name
  | defined {parameters : List Plain} {body : Plain} {added : Bool} :
      (c.defineFunction (.text name) parameters body).1 = .ok added → Accepts c name
  | parameter {p : Plain} {parameters : List Plain} {body : Plain} {added : Bool} : .text name ∈ parameters →
      (c.defineFunction p parameters body).1 = .ok added → Accepts c name

/-- The name of a variable that is not refused is a valid one. -/
theorem valid_of_variableName {s : String} (ok : c.variableName (.text name) = .ok s) :
    Text.isValidName name = true := by
  unfold variableName at ok
  split at ok
  · cases ok
  · rename_i t hvalid
    obtain ⟨heq, hvalid⟩ := Registry.validName_eq_some hvalid
    rwa [Plain.text.inj heq]

/-- The name of a parameter that is not refused is a valid one. -/
theorem valid_of_parameterName {s : String} (ok : c.parameterName (.text name) = .ok s) :
    Text.isValidName name = true := by
  unfold parameterName at ok
  dsimp only at ok
  split at ok
  · cases ok
  · rename_i hvalid
    simpa using hvalid

/-- **An accepted name is a valid one.** -/
theorem Accepts.isValidName (h : c.Accepts name) : Text.isValidName name = true := by
  cases h with
  | bound ok =>
    obtain ⟨s, hname, -⟩ := bind_eq_ok.mp ok
    exact valid_of_variableName hname
  | @assigned expression succeeded =>
    cases hname : c.variableName (.text name) with
    | ok s => exact valid_of_variableName hname
    | error f =>
      rw [assign, hname] at succeeded
      cases succeeded
  | registered ok =>
    obtain ⟨_, functions, -, hregister, -⟩ := exists_of_registerFunction ok
    obtain ⟨s, _, _, heq, hvalid, -⟩ := Registry.exists_add_of_register hregister
    rwa [Plain.text.inj heq]
  | aliased ok =>
    obtain ⟨functions, hcreate, -⟩ := exists_of_createAlias ok
    obtain ⟨s, _, heq, hvalid, -⟩ := Registry.exists_setAlias_of_createAlias hcreate
    rwa [Plain.text.inj heq]
  | @defined parameters body added ok =>
    cases c.defining (.text name) parameters body with
    | refused _ heq | late _ _ _ _ _ heq =>
      rw [heq] at ok
      cases ok
    | registered s ps ts functions added _ hregister _ =>
      obtain ⟨s, _, _, heq, hvalid, -⟩ := Registry.exists_add_of_register hregister
      rwa [Plain.text.inj heq]
  | @parameter p parameters body added hmem ok =>
    cases c.defining p parameters body with
    | refused _ heq | late _ _ _ _ _ heq =>
      rw [heq] at ok
      cases ok
    | registered s ps ts functions added hcheck _ _ =>
      obtain ⟨names, hnames, -⟩ := bind_eq_ok.mp hcheck
      obtain ⟨s, hs⟩ := exists_of_mem_of_mapM hnames hmem
      exact valid_of_parameterName hs

/-! ## Theorem -/

/-- **Which accepted names are read as themselves.**  Among those that an expression has room for, they are the ones
    without a line feed at the end: such a name is one identifier, which has the name as its value.  A line feed at
    the end is not read, and the value is the name in front of it. -/
theorem one_token_iff {v : Vocabulary} (table : v.operators = .basic ∨ v.operators = .calculator) (complex : Bool)
    (limit : Int) (accepted : c.Accepts name) :
    (Token.IsOneName v complex limit name ↔ name.length ≤ limit ∧ name.toList.getLast? ≠ some '\n') ∧
    ∀ s, name = s ++ "\n" → name.length ≤ limit → Token.tokenize v complex limit name
      = .ok [⟨Token.classify v complex s, s, 0, none⟩, ⟨.finish, "", name.length, none⟩] := by
  have separable : v.operators.Separable := Operators.separable_of_table table
  rcases Text.isValidName_iff.mp accepted.isValidName with hname | ⟨t, ht, rfl⟩
  · have hlast := Text.getLast?_of_isName hname
    refine ⟨⟨fun ⟨kind, _, htokens⟩ => ?_, fun ⟨hlength, _⟩ => ?_⟩, fun s heq => ?_⟩
    · exact ⟨((Token.tokenize_eq_ok_iff separable).mp htokens).1, hlast⟩
    · refine ⟨_, Token.classify_mem v complex name, (Token.tokenize_eq_ok_iff separable).mpr ⟨hlength, ?_⟩⟩
      exact Token.lexes_name (Text.isName_token hname)
    · rw [heq, String.toList_append] at hlast
      exact absurd (by simp) hlast
  · -- what is read is the name in front of the line feed
    have hread : (t ++ "\n").length ≤ limit → Token.tokenize v complex limit (t ++ "\n")
        = .ok [⟨Token.classify v complex t, t, 0, none⟩, ⟨.finish, "", (t ++ "\n").length, none⟩] := fun hlength =>
      (Token.tokenize_eq_ok_iff separable).mpr ⟨hlength, Token.lexes_name_feed (Text.isName_token ht)⟩
    refine ⟨iff_of_false ?_ fun h => h.2 (by simp), fun s heq => ?_⟩
    · rintro ⟨kind, -, htokens⟩
      have hsame := (hread ((Token.tokenize_eq_ok_iff separable).mp htokens).1).symm.trans htokens
      simp only [Except.ok.injEq, List.cons.injEq, Token.mk.injEq] at hsame
      have hlength := congrArg String.length hsame.1.2.1
      rw [String.length_append] at hlength
      exact absurd hlength (Nat.ne_of_lt (Nat.lt_add_of_pos_right (by decide)))
    · obtain rfl : t = s := (String.append_left_inj _).mp heq
      exact hread

/-- The name of a variable with an underscore and a digit. -/
theorem one_token_rate :
    (new 100).Accepts "rate_2" ∧ Token.IsOneName (new 100).vocabulary false Limit.inputLength "rate_2" := by
  have hset : ((new 100).setVariable (.text "rate_2") (.integer 1)).toOption.isSome = true := by decide +kernel
  obtain ⟨c, hc⟩ := Option.isSome_iff_exists.mp hset
  have accepted : (new 100).Accepts "rate_2" := .bound (toOption_eq_some.mp hc)
  have table : (new 100).vocabulary.operators = .basic ∨ (new 100).vocabulary.operators = .calculator := Or.inr rfl
  exact ⟨accepted, (one_token_iff table false Limit.inputLength accepted).1.mpr ⟨by decide, by decide⟩⟩

/-- **A name that is accepted and not read as itself.**  A variable can have a name with a line feed at the end, and
    so can a function and its parameter. -/
theorem feed_not_one_token :
    ((new 100).setVariable (.text "x\n") (.integer 1)).toOption.isSome = true ∧
    ((new 100).defineFunction (.text "x\n") [.text "y\n"] (.text "y")).1.toOption = some true ∧
    ¬ Token.IsOneName (new 100).vocabulary false Limit.inputLength "x\n" := by
  refine ⟨by decide +kernel, by decide +kernel, ?_⟩
  rintro ⟨kind, -, htokens⟩
  have hvalues : (Token.tokenize (new 100).vocabulary false Limit.inputLength "x\n").toOption.map (·.map (·.value))
      = some ["x", ""] := by decide +kernel
  rw [htokens] at hvalues
  have hsame : "x\n" = "x" := (List.cons.inj (Option.some.inj hvalues)).1
  exact absurd hsame (by decide)

end Calculator

end SciCalc
