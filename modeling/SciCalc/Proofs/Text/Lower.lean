/-
  Names in lower case.

  1. **ASCII texts** (`lower_lower_of_ascii`) — they are lowered character by character, and what has been lowered
     stays as it is.  A valid name is such a text.

  2. **From beyond ASCII** (`ascii_of_lower`) — of all other characters only the Kelvin sign is lowered to ASCII.

  3. **Valid names** (`isValidName_lower`, `isValidName_of_lower`) — a text is a valid name exactly if its lower-case
     form is one, as long as no Kelvin sign is in it.
-/
import Mathlib.Data.List.Basic
import SciCalc.Proofs.Text.Character
import SciCalc.Text.Case
import SciCalc.Text.Name

namespace SciCalc.Text

/-! ## ASCII texts -/

/-- What is lowered is in lower case, as far as ASCII goes. -/
theorem lowerChar_ascii {c : Char} (h : c.toNat ≤ 127) :
    capitalSigma ∉ c :: lowerChar c ∧ (lowerChar c).flatMap lowerChar = lowerChar c := by
  have hrange : inRanges [(0, 127)] c.toNat = true := by simp [inRanges, h]
  refine of_mem_codePoints
    (p := fun c => capitalSigma ∉ c :: lowerChar c ∧ (lowerChar c).flatMap lowerChar = lowerChar c) ?_ hrange
  decide +kernel

/-- An ASCII text is lowered character by character. -/
theorem lower_eq_of_sigma {s : String} (h : capitalSigma ∉ s.toList) :
    lower s = String.ofList (s.toList.flatMap lowerChar) := by
  rw [lower, if_neg]
  rwa [List.contains_iff_mem]

/-- An ASCII text in lower case stays as it is when it is lowered. -/
theorem lower_lower_of_ascii {s : String} (h : ∀ c ∈ s.toList, c.toNat ≤ 127) : lower (lower s) = lower s := by
  have hfirst : capitalSigma ∉ s.toList := fun hmem =>
    (lowerChar_ascii (h _ hmem)).1 List.mem_cons_self
  have hsecond : capitalSigma ∉ (lower s).toList := by
    rw [lower_eq_of_sigma hfirst, String.toList_ofList, List.mem_flatMap]
    rintro ⟨c, hc, hmem⟩
    exact (lowerChar_ascii (h c hc)).1 (List.mem_cons_of_mem _ hmem)
  rw [lower_eq_of_sigma hsecond, lower_eq_of_sigma hfirst, String.toList_ofList, List.flatMap_assoc]
  refine congrArg String.ofList (List.flatMap_congr fun c hc => ?_)
  exact (lowerChar_ascii (h c hc)).2

/-- The characters of a name are ASCII. -/
theorem toNat_of_isNamePart {c : Char} (h : isNamePart c = true) : c.toNat ≤ 127 := by
  have below : ∀ d : Char, c ≤ d → d.toNat ≤ 127 → c.toNat ≤ 127 := fun d hle hd =>
    Nat.le_trans (UInt32.le_iff_toNat_le.mp (Char.le_def.mp hle)) hd
  simp only [isNamePart, isNameStart, isAsciiLetter, isDigit, Bool.or_eq_true, Bool.and_eq_true,
    decide_eq_true_eq] at h
  rcases h with ((h | h) | rfl) | h
  · exact below 'z' h.2 (by decide)
  · exact below 'Z' h.2 (by decide)
  · decide
  · exact below '9' h.2 (by decide)

/-- The characters of a valid name are ASCII, the line feed that may end it among them. -/
theorem ascii_of_isValidName {s : String} (h : isValidName s = true) : ∀ c ∈ s.toList, c.toNat ≤ 127 := by
  have tail : ∀ cs : List Char, isNameTail cs = true → ∀ c ∈ cs, c.toNat ≤ 127 := by
    intro cs
    induction cs with
    | nil => exact fun _ => nofun
    | cons c rest ih =>
      intro hcs d hd
      cases rest with
      | nil =>
        rw [List.mem_singleton.mp hd]
        rcases Bool.or_eq_true_iff.mp hcs with hc | hc
        · exact toNat_of_isNamePart hc
        · rw [of_decide_eq_true hc]
          decide
      | cons e rest =>
        obtain ⟨hc, hrest⟩ := Bool.and_eq_true_iff.mp hcs
        rcases List.mem_cons.mp hd with rfl | hd
        · exact toNat_of_isNamePart hc
        · exact ih hrest d hd
  unfold isValidName at h
  cases hs : s.toList with
  | nil => exact nofun
  | cons c rest =>
    rw [hs] at h
    obtain ⟨hc, hrest⟩ := Bool.and_eq_true_iff.mp h
    have hpart : isNamePart c = true := by rw [isNamePart, hc, Bool.true_or]
    exact List.forall_mem_cons.mpr ⟨toNat_of_isNamePart hpart, tail rest hrest⟩

/-- **The lower-case form of a valid name is in lower case.** -/
theorem lower_lower_of_isValidName {s : String} (h : isValidName s = true) : lower (lower s) = lower s :=
  lower_lower_of_ascii (ascii_of_isValidName h)

/-! ## From beyond ASCII -/

/-- The Kelvin sign, which is lowered to the letter k. -/
def kelvinSign : Char := Char.ofNat 0x212A

/-- No row of the table leads from beyond ASCII to ASCII, except for the one of the Kelvin sign. -/
theorem lowerShifts_beyond : ∀ row ∈ lowerShifts, row.1 = 0x212A ∧ row.2.1 = 0x212A ∨
    128 ≤ row.1 + row.2.2.2 ∧ (row.2.1 + row.2.2.2 < 0xD800 ∨
      0xDFFF < row.1 + row.2.2.2 ∧ row.2.1 + row.2.2.2 < 0x110000) := by
  decide +kernel

theorem toNat_ofNat_of_isValidChar {n : Nat} (h : n.isValidChar) : (Char.ofNat n).toNat = n := by
  rw [Char.ofNat, dif_pos h]
  rfl

/-- **Of the characters beyond ASCII only the Kelvin sign is lowered to ASCII.** -/
theorem ascii_of_lowerChar {c : Char} (h : ∀ d ∈ lowerChar c, d.toNat ≤ 127) : c.toNat ≤ 127 ∨ c = kelvinSign := by
  unfold lowerChar at h
  split at h
  · rename_i hlt
    exact Or.inl (by omega)
  split at h
  · have hdot : (Char.ofNat 0x307).toNat ≤ 127 := h _ (by simp)
    exact absurd hdot (by decide)
  split at h
  · rename_i a b step shift hfind
    have hrow := List.find?_some hfind
    simp only [Bool.and_eq_true, decide_eq_true_eq] at hrow
    obtain ⟨⟨hfrom, hto⟩, -⟩ := hrow
    rcases lowerShifts_beyond _ (List.mem_of_find?_eq_some hfind) with ⟨ha, hb⟩ | ⟨hbeyond, hvalid⟩
    · right
      dsimp only at ha hb
      rw [kelvinSign, ← Char.ofNat_toNat c]
      exact congrArg Char.ofNat (by omega)
    · dsimp only at hbeyond hvalid
      have hd := h _ (List.mem_singleton_self _)
      rw [toNat_ofNat_of_isValidChar (by unfold Nat.isValidChar; omega)] at hd
      omega
  · exact Or.inl (h c (List.mem_singleton_self c))

/-- Each character of a text is lowered in its lower-case form, but for a capital sigma that ends a word. -/
theorem subset_lowerFrom {c : Char} {cs : List Char} (hc : c ∈ cs) :
    ∀ {afterCased : Bool}, lowerChar c ⊆ lowerFrom afterCased cs ∨ finalSigma ∈ lowerFrom afterCased cs := by
  induction cs with
  | nil => cases hc
  | cons d rest ih =>
    intro afterCased
    rw [lowerFrom]
    rcases List.mem_cons.mp hc with rfl | hrest
    · split
      · exact Or.inr (by simp)
      · exact Or.inl (List.subset_append_left _ _)
    · exact (ih hrest).imp (List.subset_append_of_subset_right _) (List.mem_append_right _)

/-- **A text whose lower-case form is ASCII** is ASCII itself, but for Kelvin signs. -/
theorem ascii_of_lower {s : String} (h : ∀ d ∈ (lower s).toList, d.toNat ≤ 127) :
    ∀ c ∈ s.toList, c.toNat ≤ 127 ∨ c = kelvinSign := by
  intro c hc
  refine ascii_of_lowerChar fun d hd => ?_
  unfold lower at h
  dsimp only at h
  rw [String.toList_ofList] at h
  split at h
  · rcases @subset_lowerFrom _ _ hc false with hsub | hfinal
    · exact h d (hsub hd)
    · exact absurd (h _ hfinal) (by decide)
  · exact h d (List.mem_flatMap.mpr ⟨c, hc, hd⟩)

/-! ## Valid names -/

/-- An ASCII character is lowered to one character, and to a name character exactly if it is one. -/
theorem exists_lowerChar {c : Char} (h : c.toNat ≤ 127) :
    ∃ d, lowerChar c = [d] ∧ isNameStart d = isNameStart c ∧ isNamePart d = isNamePart c ∧
      (d = '\n' ↔ c = '\n') := by
  have hrange : inRanges [(0, 127)] c.toNat = true := by simp [inRanges, h]
  refine ⟨(lowerChar c).headD c, of_mem_codePoints (p := fun c => lowerChar c = [(lowerChar c).headD c] ∧
    isNameStart ((lowerChar c).headD c) = isNameStart c ∧ isNamePart ((lowerChar c).headD c) = isNamePart c ∧
    ((lowerChar c).headD c = '\n' ↔ c = '\n')) ?_ hrange⟩
  decide +kernel

theorem isNameTail_cons_cons (c d : Char) (cs : List Char) :
    isNameTail (c :: d :: cs) = (isNamePart c && isNameTail (d :: cs)) := rfl

theorem isNameTail_lower {cs : List Char} (h : ∀ c ∈ cs, c.toNat ≤ 127) :
    isNameTail (cs.flatMap lowerChar) = isNameTail cs := by
  induction cs with
  | nil => rfl
  | cons c rest ih =>
    obtain ⟨hc, hrest⟩ := List.forall_mem_cons.mp h
    obtain ⟨d, hd, -, hpart, hfeed⟩ := exists_lowerChar hc
    rw [List.flatMap_cons, hd, List.singleton_append]
    cases rest with
    | nil => simp [isNameTail, hpart, hfeed]
    | cons c' rest =>
      obtain ⟨d', hd', -⟩ := exists_lowerChar (hrest c' List.mem_cons_self)
      have ih := ih hrest
      rw [List.flatMap_cons, hd', List.singleton_append] at ih ⊢
      rw [isNameTail_cons_cons, isNameTail_cons_cons, hpart, ih]

theorem isValidName_lower_of_ascii {s : String} (h : ∀ c ∈ s.toList, c.toNat ≤ 127) :
    isValidName (lower s) = isValidName s := by
  have hsigma : capitalSigma ∉ s.toList := fun hmem => absurd (h _ hmem) (by decide)
  unfold isValidName
  rw [lower_eq_of_sigma hsigma, String.toList_ofList]
  cases hs : s.toList with
  | nil => rfl
  | cons c rest =>
    rw [hs] at h
    obtain ⟨hc, hrest⟩ := List.forall_mem_cons.mp h
    obtain ⟨d, hd, hstart, -⟩ := exists_lowerChar hc
    rw [List.flatMap_cons, hd, List.singleton_append]
    dsimp only
    rw [hstart, isNameTail_lower hrest]

/-- The lower-case form of a valid name is a valid name. -/
theorem isValidName_lower {s : String} (h : isValidName s = true) : isValidName (lower s) = true := by
  rwa [isValidName_lower_of_ascii (ascii_of_isValidName h)]

/-- **A text is a valid name if its lower-case form is one** and no Kelvin sign is in it. -/
theorem isValidName_of_lower {s : String} (hkelvin : kelvinSign ∉ s.toList) (h : isValidName (lower s) = true) :
    isValidName s = true := by
  have hascii : ∀ c ∈ s.toList, c.toNat ≤ 127 := fun c hc =>
    (ascii_of_lower (ascii_of_isValidName h) c hc).resolve_right fun heq => hkelvin (heq ▸ hc)
  rwa [← isValidName_lower_of_ascii hascii]

end SciCalc.Text
