/-
  Calls as they are written.

  1. **Texts alone** (`ReadsText`, `exists_readsText`) — a text that is compiled is read as one tree, and its postfix
     order is the post-order of the tree.

  2. **Arguments** (`exists_readsArguments`) — texts that are read alone are read as the arguments of a call where
     commas stand between them and a right parenthesis behind them, as trees whose tokens stand further on.

  3. **Calls** (`exists_readsText_call`) — a name, a left parenthesis and such arguments are read as the call.
-/
import Mathlib.Data.List.Forall2
import SciCalc.Proofs.Postfix.Argument
import SciCalc.Proofs.Postfix.Parsing

namespace SciCalc

open Token Tree

variable {v : Vocabulary} {complex : Bool}

/-! ## Texts alone -/

/-- The text is read as the tree. -/
def ReadsText (v : Vocabulary) (complex : Bool) (text : String) (x : Tree) : Prop :=
  ∃ body fin, Lexes v complex true 0 text.toList (body ++ [fin]) ∧ Climbs v.operators 1 body x []

/-- A text is read in one way. -/
theorem ReadsText.unique (separable : v.operators.Separable) {text : String} {x y : Tree}
    (hx : ReadsText v complex text x) (hy : ReadsText v complex text y) : x = y := by
  obtain ⟨body, fin, hlexes, hx⟩ := hx
  obtain ⟨body', fin', hlexes', hy⟩ := hy
  have hsame := Except.ok.inj ((hlexes.scan_eq_ok separable).symm.trans (hlexes'.scan_eq_ok separable))
  obtain ⟨rfl, -⟩ := List.append_inj' hsame rfl
  exact (hx.unique hy).1

/-- **What is compiled is read as one tree.** -/
theorem exists_readsText (table : v.operators = .basic ∨ v.operators = .calculator) {limit depth : Int}
    {text : String} {ts ps : List Token} (htokens : tokenize v complex limit text = .ok ts)
    (hordered : Postfix.ofTokens v.operators depth ts = .ok ps) :
    ∃ x, ReadsText v complex text x ∧ x.postorder = ps := by
  obtain ⟨-, hlexes⟩ := (tokenize_eq_ok_iff (Operators.separable_of_table table)).mp htokens
  obtain ⟨body, fin, rfl, hfin, hbody⟩ := exists_body_of_tokenize htokens
  have hcomplete := (Postfix.ofTokens_eq_ok_iff hfin hbody).mp hordered
  obtain ⟨x, hx, -, hpost⟩ := (completes_iff_climbs (ranked_of_table table) hbody).mp hcomplete
  exact ⟨x, ⟨body, fin, hlexes, hx⟩, hpost.symm⟩

/-! ## Arguments -/

/-- The tree is the other one with its tokens further on. -/
def Tree.IsShiftOf (x y : Tree) : Prop := ∃ k, x = y.shift k

/-- A right parenthesis at the end is one token. -/
theorem exists_rightParen (v : Vocabulary) (complex : Bool) (position : Nat) :
    ∃ q fin, q.kind = .rightParen ∧ ∀ due, Lexes v complex due position [')'] [q, fin] := by
  refine ⟨⟨.rightParen, ")", position, none⟩, ⟨.finish, "", (position + 1 : Nat), none⟩, rfl, fun due => ?_⟩
  have hread : Reads v complex due .rightParen [')'] [] := .rightParen
  exact .token hread .finish

/-- A comma and a blank are one token in front of those of what follows. -/
theorem exists_comma {position : Nat} {cs : List Char} {us : List Token}
    (h : Lexes v complex true (position + 2) cs us) :
    ∃ q, q.kind = .comma ∧ ∀ due, Lexes v complex due position (',' :: ' ' :: cs) (q :: us) := by
  refine ⟨⟨.comma, ",", position, none⟩, rfl, fun due => ?_⟩
  have hblank : Lexes v complex true (position + 1) (' ' :: cs) us := .blank (by decide) h
  have hread : Reads v complex due .comma [','] (' ' :: cs) := .comma
  exact .token hread hblank

/-- **Texts with commas between them are read as the arguments of a call.** -/
theorem exists_readsArguments (spares : v.operators.Spares) {es : List String} {xs : List Tree}
    (h : List.Forall₂ (ReadsText v complex) es xs) (hne : es ≠ []) :
    ∀ position : Nat, ∃ us fin ys,
      Lexes v complex true position ((Text.join ", " es).toList ++ [')']) (us ++ [fin]) ∧
        ReadsArguments v.operators us ys [] ∧ List.Forall₂ Tree.IsShiftOf ys xs := by
  induction h with
  | nil => exact absurd rfl hne
  | @cons e x es xs hx hxs ih =>
    intro k
    obtain ⟨body, fin, hlexes, hx⟩ := hx
    have hargument : ∀ q : Token, q.kind ≠ .operator → ∀ more,
        Climbs v.operators 1 (body.map (Token.shift k) ++ q :: more) (x.shift k) (q :: more) :=
      fun q hq more => (hx.shift k).before more hq
    cases es with
    | nil =>
      cases hxs
      obtain ⟨q, last, hkind, hclose⟩ := exists_rightParen v complex (k + (0 + e.toList.length))
      have hlexes' := hlexes.before spares (Or.inr rfl) k rfl hclose
      have hx' := hargument q (by rw [hkind]; decide) []
      refine ⟨body.map (Token.shift k) ++ [q], last, [x.shift k], ?_, .last hx' hkind, .cons ⟨k, rfl⟩ .nil⟩
      rw [List.append_assoc]
      exact hlexes'
    | cons e' es =>
      obtain ⟨us, last, ys, hus, hys, hshift⟩ := ih (List.cons_ne_nil _ _) (k + (0 + e.toList.length) + 2)
      obtain ⟨q, hkind, hcomma⟩ := exists_comma hus
      have hlexes' := hlexes.before spares (Or.inl rfl) k rfl hcomma
      have hx' := hargument q (by rw [hkind]; decide) us
      refine ⟨body.map (Token.shift k) ++ q :: us, last, x.shift k :: ys, ?_, .more hx' hkind hys,
        .cons ⟨k, rfl⟩ hshift⟩
      rw [Text.join, String.toList_append, String.toList_append, List.append_assoc, List.append_assoc,
        List.append_assoc]
      exact hlexes'

/-! ## Calls -/

/-- **The text of a call**: the name, and in parentheses the arguments with commas between them. -/
def callText (name : String) (es : List String) : String := name ++ "(" ++ Text.join ", " es ++ ")"

/-- The token of a call with so many arguments, at the beginning of a text. -/
def callToken (name : String) (count : Nat) : Token := ⟨.function, name, 0, some count⟩

/-- **The text of a call is read as the call.** -/
theorem exists_readsText_call (spares : v.operators.Spares) {name : String} (hname : IsName name)
    (hfunction : v.isFunction name = true) {es : List String} {xs : List Tree}
    (h : List.Forall₂ (ReadsText v complex) es xs) :
    ∃ ys, ReadsText v complex (callText name es) (.node (callToken name ys.length) ys) ∧
      List.Forall₂ Tree.IsShiftOf ys xs := by
  have hkind : classify v complex name = .function := by rw [classify, if_pos hfunction]
  have htext : (callText name es).toList = name.toList ++ '(' :: ((Text.join ", " es).toList ++ [')']) := by
    rw [callText, String.toList_append, String.toList_append, String.toList_append, List.append_assoc,
      List.append_assoc]
    rfl
  obtain ⟨f, hf⟩ : ∃ f : Token, f = ⟨.function, name, 0, none⟩ := ⟨_, rfl⟩
  have hfkind : f.kind = .function := by rw [hf]
  -- the name and the left parenthesis are tokens in front of what is in parentheses
  obtain ⟨p, hpkind, front⟩ : ∃ p : Token, p.kind = .leftParen ∧ ∀ {cs : List Char} {us : List Token},
      Lexes v complex true (0 + name.toList.length + 1) cs us →
        Lexes v complex true 0 (name.toList ++ '(' :: cs) (f :: p :: us) := by
    refine ⟨⟨.leftParen, "(", (0 + name.toList.length : Nat), none⟩, rfl, fun {cs us} hus => ?_⟩
    have hopen : Reads v complex false .leftParen ['('] cs := .leftParen
    have hread : Reads v complex true .function name.toList ('(' :: cs) := hkind ▸ hname.reads (by rfl)
    have hlexes := Lexes.token hread (.token hopen hus)
    rw [String.ofList_toList] at hlexes
    rw [hf]
    exact hlexes
  -- nothing is left behind the call
  have whole : ∀ {ts : List Token} {ys : List Tree},
      ReadsOperand v.operators ts (.node { f with argumentCount := some (ys.length : Int) } ys) [] →
      Climbs v.operators 1 ts (.node (callToken name ys.length) ys) [] := by
    intro ts ys hread
    rw [hf] at hread
    exact .intro hread (.stop nofun)
  cases es with
  | nil =>
    cases h
    obtain ⟨q, last, hqkind, hclose⟩ := exists_rightParen v complex (0 + name.toList.length + 1)
    refine ⟨[], ⟨[f, p, q], last, ?_, whole (.emptyCall hfkind hpkind hqkind)⟩, .nil⟩
    rw [htext]
    exact front (hclose true)
  | cons e es =>
    obtain ⟨us, last, ys, hus, hys, hshift⟩ :=
      exists_readsArguments spares h (List.cons_ne_nil e es) (0 + name.toList.length + 1)
    refine ⟨ys, ⟨f :: p :: us, last, ?_, whole (.call hfkind hpkind hys)⟩, hshift⟩
    rw [htext]
    exact front hus

end SciCalc
