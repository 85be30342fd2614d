/-
  Texts in front of a comma or a right parenthesis.

  1. **Closers** (`IsCloser`) — a comma and a right parenthesis go on behind no token: they are in no number, no
     name and in no symbol of the operators of a calculator (`Operators.Spares`).

  2. **Tokens** (`Reads.before`, `Lexes.before`) — a text that is followed by a closer has the tokens that it has
     alone, as far along as the text stands (`Token.shift`).

  3. **Names** (`IsName`) — a text that is all a name is one token.
-/
import SciCalc.Proofs.Token.Reading

namespace SciCalc

/-! ## Closers -/

/-- A comma or a right parenthesis. -/
def Token.IsCloser (d : Char) : Prop := d = ',' ∨ d = ')'

/-- No symbol has a comma or a right parenthesis, and the index is that of the operators. -/
structure Operators.Spares (ops : Operators) : Prop where
  /-- The symbols can be searched. -/
  indexed : ops.Indexed
  /-- Neither of the two characters is in a symbol. -/
  free : ∀ o ∈ ops.all, ',' ∉ o.symbol.toList ∧ ')' ∉ o.symbol.toList

/-- The symbols of the operators of a calculator have neither. -/
theorem Operators.spares_calculator : Spares calculator := ⟨indexed_calculator, by decide +kernel⟩

/-- What a text in front of a character begins with, the text begins with, if the character is not in it. -/
theorem prefix_of_not_mem {α : Type} {d : α} {as cs rest : List α} (h : as <+: cs ++ d :: rest) (hd : d ∉ as) :
    as <+: cs := by
  rcases Nat.lt_or_ge cs.length as.length with hlt | hle
  · -- a longer beginning would have the character in it
    have hfront : cs ++ [d] <+: cs ++ d :: rest := (List.prefix_append_right_inj _).mpr ⟨rest, rfl⟩
    have hlength : (cs ++ [d]).length ≤ as.length := by
      rw [List.length_append]
      exact hlt
    have hinside := List.prefix_of_prefix_length_le hfront h hlength
    exact absurd (hinside.subset (List.mem_append_right _ List.mem_cons_self)) hd
  · exact List.prefix_of_prefix_length_le h (List.prefix_append _ _) hle

/-- **The longest symbol stays the longest in front of a closer.** -/
theorem Operators.longestSymbol_before {ops : Operators} (spares : ops.Spares) {d : Char} (hd : Token.IsCloser d)
    {symbol : String} {rest : List Char} (more : List Char)
    (h : ops.longestSymbol (symbol.toList ++ rest) = some symbol) :
    ops.longestSymbol (symbol.toList ++ (rest ++ d :: more)) = some symbol := by
  refine longestSymbol_of_imp spares.indexed h (List.prefix_append _ _) fun s hs _ => ⟨hs.1, ?_⟩
  have hbegins := hs.2
  rw [← List.append_assoc] at hbegins
  refine prefix_of_not_mem hbegins ?_
  obtain ⟨o, ho, rfl⟩ := spares.indexed.isSymbol_iff.mp hs.1
  rcases hd with rfl | rfl
  · exact (spares.free o ho).1
  · exact (spares.free o ho).2

namespace Token

open Text

variable {v : Vocabulary} {complex due : Bool} {d : Char}

/-- What holds of both closers holds of each one. -/
theorem IsCloser.elim {p : Char → Prop} (hd : IsCloser d) (hcomma : p ',') (hparen : p ')') : p d := by
  rcases hd with rfl | rfl
  · exact hcomma
  · exact hparen

theorem IsCloser.isNumberPart (hd : IsCloser d) : isNumberPart d = false :=
  hd.elim (p := fun d => Token.isNumberPart d = false) (by decide) (by decide)

theorem IsCloser.isNamePart (hd : IsCloser d) : isNamePart d = false :=
  hd.elim (p := fun d => Token.isNamePart d = false) (by decide) (by decide)

theorem IsCloser.isDigit (hd : IsCloser d) : isDigit d = false :=
  hd.elim (p := fun d => Text.isDigit d = false) (by decide) (by decide)

/-! ## Tokens -/

variable {rest : List Char}

/-- What the rest begins with is the same in front of a character that does not have the property. -/
theorem head?_any_before {p : Char → Bool} (hp : p d = false) (rest more : List Char) :
    (rest ++ d :: more).head?.any p = rest.head?.any p := by
  cases rest with
  | nil => exact hp
  | cons c rest => rfl

/-- A sign and a digit that a text begins with in front of a closer stand in the text. -/
theorem exists_of_append_closer (hd : IsCloser d) {more sign ds : List Char} {negative : Bool}
    (hsign : Sign sign negative) (hds : ds.head?.any isDigit = true) (h : rest ++ d :: more = sign ++ ds) :
    ∃ ds', rest = sign ++ ds' ∧ ds'.head?.any isDigit = true := by
  have digit : ∀ ds' : List Char, ds' ++ d :: more = ds → ds'.head?.any isDigit = true := by
    rintro ds' rfl
    rwa [head?_any_before hd.isDigit] at hds
  have signed : ∀ {s : Char}, d ≠ s → rest ++ d :: more = s :: ds →
      ∃ ds', rest = s :: ds' ∧ ds'.head?.any isDigit = true := by
    intro s hne hsplit
    cases rest with
    | nil => exact absurd (List.cons.inj hsplit).1 hne
    | cons r rest =>
      obtain ⟨hr, hbehind⟩ := List.cons.inj hsplit
      exact ⟨rest, by rw [hr], digit rest hbehind⟩
  cases hsign with
  | none => exact ⟨rest, rfl, digit rest h⟩
  | plus => exact signed (hd.elim (p := fun d => d ≠ '+') (by decide) (by decide)) h
  | minus => exact signed (hd.elim (p := fun d => d ≠ '-') (by decide) (by decide)) h

/-- **No exponent arises in front of a closer.** -/
theorem exponentPart_before (hd : IsCloser d) (more : List Char) (h : exponentPart rest = []) :
    exponentPart (rest ++ d :: more) = [] := by
  by_cases hnil : exponentPart (rest ++ d :: more) = []
  · exact hnil
  obtain ⟨mark, sign, negative, ds, hmark, hsign, hds, hsplit⟩ := exists_of_exponentPart_ne_nil hnil
  cases rest with
  | nil =>
    rw [← (List.cons.inj hsplit).1] at hmark
    exact absurd hmark (hd.elim (p := fun d => ¬ IsMark d) (by decide) (by decide))
  | cons m rest =>
    obtain ⟨hm, hbehind⟩ := List.cons.inj hsplit
    -- the digits begin in front of the closer, so that there is an exponent already
    obtain ⟨ds', hrest, hds'⟩ := exists_of_append_closer hd hsign hds hbehind
    rw [hm, hrest, exponentPart_marked hmark hsign hds'] at h
    cases h

theorem Ends.before {power : List Char} (hd : IsCloser d) (more : List Char) (h : Ends power rest) :
    Ends power (rest ++ d :: more) := by
  cases power with
  | cons mark power =>
    show (rest ++ d :: more).head?.any isDigit = false
    rwa [head?_any_before hd.isDigit]
  | nil =>
    refine ⟨?_, exponentPart_before hd more h.2⟩
    rw [head?_any_before hd.isNumberPart]
    exact h.1

theorem numberPart_before {ds : List Char} {n : Nat} {k : Int} (hnumeral : Numeral ds n k) (hd : IsCloser d)
    (more : List Char) (h : numberPart (ds ++ rest) = ds) : numberPart (ds ++ (rest ++ d :: more)) = ds := by
  obtain ⟨hmantissa, hpower⟩ := hnumeral
  exact (numberPart_append_iff hmantissa hpower _).mpr
    (((numberPart_append_iff hmantissa hpower rest).mp h).before hd more)

/-- **A token is read in the same way if a closer follows the text.** -/
theorem Reads.before (spares : v.operators.Spares) (hd : IsCloser d) (more : List Char) {kind : TokenKind}
    {cs : List Char} (h : Reads v complex due kind cs rest) :
    Reads v complex due kind cs (rest ++ d :: more) := by
  cases h with
  | number hnumeral hpart => exact .number hnumeral (numberPart_before hnumeral hd more hpart)
  | negative hdue hnumeral hpart => exact .negative hdue hnumeral (numberPart_before hnumeral hd more hpart)
  | name hstart hcs hrest =>
    refine .name hstart hcs ?_
    rwa [head?_any_before hd.isNamePart]
  | leftParen => exact .leftParen
  | rightParen => exact .rightParen
  | comma => exact .comma
  | @operator symbol c cs _ hcs hsymbol hnumber hfolded hname hother =>
    refine .operator hcs (Operators.longestSymbol_before spares hd more hsymbol) hnumber ?_ hname hother
    have hhead := head?_any_before hd.isNumberPart (cs ++ rest) more
    rw [List.append_assoc] at hhead
    unfold isFolded at hfolded ⊢
    rwa [hhead]

/-- The token so many characters further on. -/
def shift (k : Nat) (t : Token) : Token := { t with position := t.position + k }

theorem Lexes.ne_nil {position : Nat} {cs : List Char} {ts : List Token} (h : Lexes v complex due position cs ts) :
    ts ≠ [] := by
  induction h with
  | finish => exact List.cons_ne_nil _ _
  | blank _ _ ih => exact ih
  | token _ _ _ => exact List.cons_ne_nil _ _

/-- **A text in front of a closer has the tokens that it has alone**, further on, and those of what follows. -/
theorem Lexes.before (spares : v.operators.Spares) (hd : IsCloser d) (k : Nat) {more : List Char}
    {us : List Token} {position : Nat} {cs : List Char} {ts : List Token}
    (h : Lexes v complex due position cs ts) :
    ∀ {body : List Token} {e : Token}, ts = body ++ [e] →
      (∀ due', Lexes v complex due' (k + (position + cs.length)) (d :: more) us) →
      Lexes v complex due (k + position) (cs ++ d :: more) (body.map (shift k) ++ us) := by
  induction h with
  | finish =>
    intro body e hts hus
    obtain rfl : body = [] := by
      cases body with
      | nil => rfl
      | cons t body =>
        obtain ⟨-, hts⟩ := List.cons.inj hts
        exact absurd hts.symm (List.concat_ne_nil e body)
    exact hus _
  | @blank due position b cs ts hblank _ ih =>
    intro body e hts hus
    refine .blank hblank (ih hts ?_)
    rwa [List.length_cons, Nat.add_comm cs.length, ← Nat.add_assoc position] at hus
  | @token due position kind cs rest ts hreads hrest ih =>
    intro body e hts hus
    cases body with
    | nil =>
      obtain ⟨-, hts⟩ := List.cons.inj hts
      exact absurd hts hrest.ne_nil
    | cons t body =>
      obtain ⟨rfl, hbody⟩ := List.cons.inj hts
      rw [List.length_append, ← Nat.add_assoc position] at hus
      have hbehind := ih hbody hus
      rw [← Nat.add_assoc k] at hbehind
      have htoken := Lexes.token (hreads.before spares hd more) hbehind
      have hplace : ((k + position : Nat) : Int) = (position : Int) + k := by omega
      rw [List.append_assoc, List.map_cons, List.cons_append]
      rwa [hplace] at htoken

/-! ## Names -/

/-- The text is all a name. -/
def IsName (name : String) : Prop :=
  ∃ c cs, name.toList = c :: cs ∧ isNameStart c = true ∧ ∀ d ∈ cs, isNamePart d = true

/-- A name is read as one token in front of what does not continue it. -/
theorem IsName.reads {name : String} (h : IsName name) (hrest : rest.head?.any isNamePart = false) :
    Reads v complex due (classify v complex name) name.toList rest := by
  obtain ⟨c, cs, heq, hstart, hcs⟩ := h
  have hname : name = String.ofList (c :: cs) := by rw [← heq, String.ofList_toList]
  rw [heq, hname]
  exact .name hstart hcs hrest

end Token

end SciCalc
