/-
  The tokens of a text tile it.

  1. **Places** (`Tiles`) — every token stands where it says that it begins, the tokens follow each other without
     overlap, and every character that belongs to none is a blank.

  2. **Forms** (`Formed`) — a number is a numeral that has a sign only where an operand is due, a name goes on as
     far as the characters of names do, and a symbol is the longest one of its place.

  3. **One induction** (`Lexes.exists_split`) — a token of a row of tokens and blanks is read in front of what
     stands behind it.  Places and forms follow from how it is read.

  4. **Theorem** (`tokenize_tiles`) — the tokens of every text tile it and have their forms, and where a text has
     none, the text in front of the failure has some.
-/
import SciCalc.Proofs.Token.Reading

namespace SciCalc.Token

open Text

variable {v : Vocabulary} {complex due : Bool} {position : Nat} {cs : List Char} {ts : List Token}

/-! ## Places -/

/-- The character at the index belongs to the token. -/
def Covers (t : Token) (i : Nat) : Prop := t.position ≤ i ∧ i < t.position + t.value.length

/-- **The tokens tile the text**: what is not a token is a blank. -/
structure Tiles (cs : List Char) (ts : List Token) : Prop where
  /-- A token stands where it says that it begins. -/
  occurs : ∀ t ∈ ts, ∃ p : Nat, t.position = p ∧ (cs.drop p).take t.value.length = t.value.toList
  /-- A token begins behind the one before, and not before that one ends. -/
  apart : ts.Pairwise fun t u : Token => t.position < u.position ∧ t.position + t.value.length ≤ u.position
  /-- Outside of the tokens there are blanks. -/
  blank : ∀ i (h : i < cs.length), (∀ t ∈ ts, ¬ t.Covers i) → isBlank cs[i] = true

/-! ## Forms -/

/-- An operand is due: behind no token, a left parenthesis, a comma or an operator. -/
def OperandDue (before : List Token) : Prop :=
  before = [] ∨ ∃ earlier u, before = earlier ++ [u] ∧ u.kind ∈ [TokenKind.leftParen, .comma, .operator]

/-- **The token has the form of its kind**, behind the tokens before it and in front of the rest. -/
structure Formed (v : Vocabulary) (complex : Bool) (before : List Token) (t : Token) (rest : List Char) :
    Prop where
  /-- A number is a numeral, with a minus sign in front of it only where an operand is due. -/
  number : t.kind = .number → ∃ sign ds n k, t.value.toList = sign ++ ds ∧ Numeral ds n k ∧
    (sign = [] ∨ sign = ['-'] ∧ OperandDue before)
  /-- A name has all the characters that could belong to it, and its kind is that of the name. -/
  name : t.kind ∈ [TokenKind.function, .constant, .variable] → t.kind = classify v complex t.value ∧
    (∃ c cs, t.value.toList = c :: cs ∧ isNameStart c = true ∧ ∀ d ∈ cs, isNamePart d = true) ∧
    rest.head?.any isNamePart = false
  /-- A symbol is a registered one, and no longer one stands at its place. -/
  operator : t.kind = .operator → v.operators.Begins (t.value.toList ++ rest) t.value ∧
    ∀ s, v.operators.Begins (t.value.toList ++ rest) s → s.length ≤ t.value.length

/-- Whether an operand is due behind tokens. -/
def dueBehind (due : Bool) (before : List Token) : Bool := before.foldl (fun _ u => opensOperand u.kind) due

theorem operandDue_of_dueBehind {before : List Token} (h : dueBehind true before = true) :
    OperandDue before := by
  rcases List.eq_nil_or_concat before with rfl | ⟨earlier, u, rfl⟩
  · exact Or.inl rfl
  rw [List.concat_eq_append] at h ⊢
  rw [dueBehind, List.foldl_append] at h
  have hu : opensOperand u.kind = true := h
  refine Or.inr ⟨earlier, u, rfl, ?_⟩
  cases hkind : u.kind with
  | leftParen => decide
  | comma => decide
  | operator => decide
  | _ =>
    rw [hkind] at hu
    cases hu

/-- A number is a numeral, perhaps with a sign where an operand is due. -/
theorem Reads.numeral {kind : TokenKind} {rest : List Char} (h : Reads v complex due kind cs rest)
    (hkind : kind = .number) :
    ∃ sign ds n k, cs = sign ++ ds ∧ Numeral ds n k ∧ (sign = [] ∨ sign = ['-'] ∧ due = true) := by
  cases h with
  | number hnumeral _ => exact ⟨[], _, _, _, rfl, hnumeral, Or.inl rfl⟩
  | negative hdue hnumeral _ => exact ⟨['-'], _, _, _, rfl, hnumeral, Or.inr ⟨rfl, hdue⟩⟩
  | name _ _ _ => exact absurd hkind (classify_ne (by decide) _ _ _)
  | _ => cases hkind

/-- A name ends where no character of a name follows. -/
theorem Reads.wholeName {kind : TokenKind} {rest : List Char} (h : Reads v complex due kind cs rest)
    (hkind : kind ∈ [TokenKind.function, .constant, .variable]) :
    kind = classify v complex (String.ofList cs) ∧
      (∃ c cs', cs = c :: cs' ∧ isNameStart c = true ∧ ∀ d ∈ cs', isNamePart d = true) ∧
      rest.head?.any isNamePart = false := by
  cases h with
  | name hstart hcs hrest => exact ⟨rfl, ⟨_, _, rfl, hstart, hcs⟩, hrest⟩
  | _ => exact absurd hkind (by decide)

/-- A symbol is the longest one in front of the text that begins with it. -/
theorem Reads.longest {kind : TokenKind} {rest : List Char} (h : Reads v complex due kind cs rest)
    (hkind : kind = .operator) : v.operators.longestSymbol (cs ++ rest) = some (String.ofList cs) := by
  cases h with
  | operator _ hsymbol _ _ _ _ => rw [hsymbol, String.ofList_toList]
  | name _ _ _ => exact absurd hkind (classify_ne (by decide) _ _ _)
  | _ => cases hkind

/-- How a token is read says which form it has. -/
theorem Reads.formed (indexed : v.operators.Indexed) {before : List Token} {t : Token} {rest : List Char}
    (h : Reads v complex (dueBehind true before) t.kind t.value.toList rest) :
    Formed v complex before t rest where
  number hkind := by
    obtain ⟨sign, ds, n, k, hvalue, hnumeral, hsign⟩ := h.numeral hkind
    exact ⟨sign, ds, n, k, hvalue, hnumeral, hsign.imp_right fun ⟨hminus, hdue⟩ =>
      ⟨hminus, operandDue_of_dueBehind hdue⟩⟩
  name hkind := by
    have hname := h.wholeName hkind
    rw [String.ofList_toList] at hname
    exact hname
  operator hkind := by
    have hlongest := h.longest hkind
    rw [String.ofList_toList] at hlongest
    exact indexed.longest hlongest

/-! ## One induction -/

/-- **A token is read in front of what stands behind it.** -/
theorem Lexes.exists_split (h : Lexes v complex due position cs ts) :
    ∀ {before after : List Token} {t : Token}, ts = before ++ t :: after → t.isFinish = false →
      ∃ front rest, cs = front ++ (t.value.toList ++ rest) ∧ t.position = (position + front.length : Nat) ∧
        Reads v complex (dueBehind due before) t.kind t.value.toList rest := by
  induction h with
  | finish =>
    intro before after t heq ht
    cases before with
    | nil =>
      obtain ⟨rfl, -⟩ := List.cons.inj heq
      cases ht
    | cons u before =>
      obtain ⟨-, hnil⟩ := List.cons.inj heq
      exact absurd hnil.symm (List.append_ne_nil_of_right_ne_nil _ (List.cons_ne_nil _ _))
  | @blank due position b cs ts _ _ ih =>
    intro before after t heq ht
    obtain ⟨front, rest, rfl, hposition, hreads⟩ := ih heq ht
    refine ⟨b :: front, rest, rfl, ?_, hreads⟩
    rw [hposition, List.length_cons, Nat.add_assoc, Nat.add_comm 1]
  | @token due position kind cs rest ts hreads _ ih =>
    intro before after t heq ht
    cases before with
    | nil =>
      obtain ⟨rfl, -⟩ := List.cons.inj heq
      refine ⟨[], rest, ?_, rfl, ?_⟩
      · rw [String.toList_ofList, List.nil_append]
      · rw [String.toList_ofList]
        exact hreads
    | cons u before =>
      rw [List.cons_append] at heq
      obtain ⟨rfl, hinner⟩ := List.cons.inj heq
      obtain ⟨front, rest', rfl, hposition, hreads'⟩ := ih hinner ht
      refine ⟨cs ++ front, rest', (List.append_assoc ..).symm, ?_, hreads'⟩
      rw [hposition, List.length_append, Nat.add_assoc]

/-- The tokens are in front of one end, behind all characters. -/
theorem Lexes.exists_body (h : Lexes v complex due position cs ts) :
    ∃ body, ts = body ++ [⟨.finish, "", (position + cs.length : Nat), none⟩] ∧
      ∀ t ∈ body, t.isFinish = false := by
  induction h with
  | finish => exact ⟨[], rfl, nofun⟩
  | @blank due position b cs ts _ _ ih =>
    obtain ⟨body, rfl, hbody⟩ := ih
    refine ⟨body, ?_, hbody⟩
    rw [List.length_cons, Nat.add_assoc, Nat.add_comm 1]
  | @token due position kind cs rest ts hreads _ ih =>
    obtain ⟨body, rfl, hbody⟩ := ih
    refine ⟨⟨kind, String.ofList cs, position, none⟩ :: body, ?_, List.forall_mem_cons.mpr ⟨decide_eq_false hreads.kind_ne_finish, hbody⟩⟩
    rw [List.length_append, Nat.add_assoc]
    rfl

/-- The tokens begin where the text begins, or behind. -/
theorem Lexes.le_position (h : Lexes v complex due position cs ts) :
    ∀ t ∈ ts, (position : Int) ≤ t.position := by
  induction h with
  | finish => exact List.forall_mem_singleton.mpr (Int.le_refl _)
  | blank _ _ ih =>
    intro t ht
    have := ih t ht
    omega
  | token _ _ ih =>
    refine List.forall_mem_cons.mpr ⟨Int.le_refl _, fun t ht => ?_⟩
    have := ih t ht
    omega

/-- A token ends before the next one begins. -/
theorem Lexes.apart (separable : v.operators.Separable) (h : Lexes v complex due position cs ts) :
    ts.Pairwise fun t u : Token => t.position < u.position ∧ t.position + t.value.length ≤ u.position := by
  induction h with
  | finish => exact List.pairwise_singleton _ _
  | blank _ _ ih => exact ih
  | @token due position kind cs rest ts hreads hrest ih =>
    refine List.pairwise_cons.mpr ⟨fun u hu => ?_, ih⟩
    obtain ⟨c, cs, rfl, -⟩ := hreads.exists_cons separable
    have hbehind := hrest.le_position u hu
    rw [String.length_ofList]
    rw [List.length_cons] at hbehind ⊢
    dsimp only
    omega

/-- Outside of the tokens there are blanks. -/
theorem Lexes.isBlank_of_not_covers (h : Lexes v complex due position cs ts) :
    ∀ i (hi : i < cs.length), (∀ t ∈ ts, ¬ t.Covers (position + i)) → isBlank cs[i] = true := by
  induction h with
  | finish => exact nofun
  | @blank due position b cs ts hblank _ ih =>
    intro i hi houtside
    cases i with
    | zero => exact hblank
    | succ i =>
      refine ih i (Nat.lt_of_succ_lt_succ hi) ?_
      rw [Nat.add_assoc, Nat.add_comm 1]
      exact houtside
  | @token due position kind cs rest ts _ _ ih =>
    intro i hi houtside
    obtain ⟨hfirst, houtside⟩ := List.forall_mem_cons.mp houtside
    have hbehind : cs.length ≤ i := by
      rw [Covers, String.length_ofList] at hfirst
      dsimp only at hfirst
      omega
    rw [List.getElem_append_right hbehind]
    refine ih (i - cs.length) _ ?_
    rw [Nat.add_assoc, Nat.add_sub_cancel' hbehind]
    exact houtside

/-! ## Theorem -/

/-- The characters between two others are those behind the front, as many as there are. -/
theorem take_drop_append (front middle rest : List Char) :
    ((front ++ (middle ++ rest)).drop front.length).take middle.length = middle ∧
      (front ++ (middle ++ rest)).drop (front.length + middle.length) = rest := by
  rw [List.drop_left, List.take_left, ← List.append_assoc, ← List.length_append, List.drop_left]
  exact ⟨rfl, rfl⟩

/-- **The tokens in front of the end tile the text.** -/
theorem Lexes.tiles (separable : v.operators.Separable) {body : List Token} {e : Token}
    (h : Lexes v complex true 0 cs (body ++ [e])) (he : e.value = "") (hbody : ∀ t ∈ body, t.isFinish = false) :
    Tiles cs body where
  occurs t ht := by
    obtain ⟨before, after, rfl⟩ := List.append_of_mem ht
    obtain ⟨front, rest, rfl, hposition, -⟩ :=
      h.exists_split (List.append_assoc before (t :: after) [e]) (hbody t ht)
    rw [Nat.zero_add] at hposition
    refine ⟨front.length, hposition, ?_⟩
    rw [← String.length_toList]
    exact (take_drop_append front t.value.toList rest).1
  apart := (List.pairwise_append.mp (h.apart separable)).1
  blank i hi houtside := by
    refine h.isBlank_of_not_covers i hi fun t ht => ?_
    rw [Nat.zero_add]
    rcases List.mem_append.mp ht with ht | ht
    · exact houtside t ht
    -- the end has no characters
    · rw [List.mem_singleton.mp ht, Covers, he]
      rintro ⟨hle, hlt⟩
      exact absurd hlt (Int.not_lt.mpr (by simpa using hle))

/-- **The tokens of a text tile it, and in front of a failure there are tokens.**  The tokens stand in
    the text where they say that they do, one behind the other, and with nothing but blanks outside; each of them
    has the form of its kind, and the end is behind all characters.  Where a text has a character that begins no
    token or a number that is none, the text in front of it has tokens. -/
theorem tokenize_tiles {v : Vocabulary} (table : v.operators = .basic ∨ v.operators = .calculator)
    (complex : Bool) (limit : Int) (text : String) :
    (∀ ts, tokenize v complex limit text = .ok ts →
      ∃ body, ts = body ++ [⟨.finish, "", text.length, none⟩] ∧ (∀ t ∈ body, t.isFinish = false) ∧
        Tiles text.toList body ∧
        ∀ (before : List Token) (t : Token) (after : List Token), body = before ++ t :: after →
          ∃ p : Nat, t.position = p ∧ (text.toList.drop p).take t.value.length = t.value.toList ∧
            Formed v complex before t (text.toList.drop (p + t.value.length))) ∧
    (∀ cause, tokenize v complex limit text = .error cause →
      cause.code = "UNEXPECTED_CHARACTER" ∨ cause.code = "INVALID_NUMBER" →
      ∃ p : Nat, cause.position = some (p : Int) ∧ p < text.length ∧
        ∃ ts, tokenize v complex limit (String.ofList (text.toList.take p)) = .ok ts) := by
  have separable := Operators.separable_of_table table
  constructor
  · intro ts htokens
    obtain ⟨-, hlexes⟩ := (tokenize_eq_ok_iff separable).mp htokens
    obtain ⟨body, rfl, hbody⟩ := hlexes.exists_body
    refine ⟨body, ?_, hbody, hlexes.tiles separable rfl hbody, ?_⟩
    · rw [Nat.zero_add, String.length_toList]
    intro before t after hsplit
    have ht : t ∈ body := hsplit ▸ List.mem_append_right _ List.mem_cons_self
    have heq : body ++ [⟨.finish, "", (0 + text.toList.length : Nat), none⟩] =
        before ++ t :: (after ++ [⟨.finish, "", (0 + text.toList.length : Nat), none⟩]) := by
      rw [hsplit, List.append_assoc, List.cons_append]
    obtain ⟨front, rest, htext, hposition, hreads⟩ := hlexes.exists_split heq (hbody t ht)
    rw [Nat.zero_add] at hposition
    obtain ⟨hvalue, hrest⟩ := take_drop_append front t.value.toList rest
    rw [← htext, String.length_toList] at hvalue hrest
    refine ⟨front.length, hposition, hvalue, ?_⟩
    rw [hrest]
    exact hreads.formed separable.indexed
  · intro cause hfailed hcode
    unfold tokenize at hfailed
    split at hfailed
    · cases hfailed
      rw [LexicalCause.code] at hcode
      exact absurd hcode (by decide)
    · rename_i hlength
      obtain ⟨k, hposition, -, hlt, ts, hscan⟩ := exists_scan_take separable _ (Nat.zero_le _) hfailed
      rw [Nat.zero_add] at hposition
      rw [String.length_toList] at hlt
      refine ⟨k, hposition, hlt, ts, ?_⟩
      unfold tokenize
      rw [String.toList_ofList, if_neg, hscan]
      rw [String.length_ofList, List.length_take, String.length_toList]
      omega

/-- The tokens of `2 *-.5e1x` tile it, and in `2 *-1.2.3` the text in front of the number has tokens. -/
theorem tokenize_tiles_signed :
    let v : Vocabulary := ⟨.calculator, none⟩
    let ts : List Token := [⟨.number, "2", 0, none⟩, ⟨.operator, "*", 2, none⟩, ⟨.number, "-.5e1", 3, none⟩,
      ⟨.variable, "x", 8, none⟩]
    tokenize v false 100 "2 *-.5e1x" = .ok (ts ++ [⟨.finish, "", 9, none⟩]) ∧ Tiles "2 *-.5e1x".toList ts ∧
      tokenize v false 100 "2 *-1.2.3" = .error (.invalidNumber "-1.2.3" 3) ∧
      ∃ us, tokenize v false 100 "2 *" = .ok us := by
  intro v ts
  have lexed : tokenize v false 100 "2 *-.5e1x" = .ok (ts ++ [⟨.finish, "", 9, none⟩]) := by rfl
  have failed : tokenize v false 100 "2 *-1.2.3" = .error (.invalidNumber "-1.2.3" 3) := by rfl
  obtain ⟨body, hbody, -, htiles, -⟩ := (tokenize_tiles (v := v) (Or.inr rfl) false 100 "2 *-.5e1x").1 _ lexed
  obtain ⟨p, hp, -, hfront⟩ :=
    (tokenize_tiles (v := v) (Or.inr rfl) false 100 "2 *-1.2.3").2 _ failed (Or.inr rfl)
  obtain rfl : 3 = p := by
    injection hp with hp
    exact Int.ofNat_inj.mp hp
  refine ⟨lexed, ?_, failed, hfront⟩
  rw [List.append_cancel_right hbody]
  exact htiles

end SciCalc.Token
