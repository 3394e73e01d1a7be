import Mathlib.Data.List.Infix
import Mathlib.Data.List.TakeWhile
import AbiTypings.Proofs.Outcome
import AbiTypings.TypeString.Token

/-!
# One token at a time

The first token of a text stands behind a gap of blanks, and the other tokens are those of the
text behind it. A number ends before the first character that is no digit, a name before the
first that is no part of a name.
-/

namespace AbiTypings.TypeString

open Text Outcome

/-- Blanks, or nothing at all. -/
def IsGap (cs : List Char) : Prop := ∀ c ∈ cs, isTypeBlank c = true

theorem isGap_nil : IsGap [] := by simp [IsGap]

theorem isGap_cons {c : Char} {cs : List Char} :
    IsGap (c :: cs) ↔ isTypeBlank c = true ∧ IsGap cs := List.forall_mem_cons

/-- The text that a token of each kind may have. -/
def TokenKind.Fits : TokenKind → List Char → Prop
  | name, cs => ∃ c rest, cs = c :: rest ∧ isNameStart c = true ∧ ∀ d ∈ rest, isNamePart d = true
  | number, cs => cs ≠ [] ∧ ∀ d ∈ cs, isAsciiDigit d = true
  | leftBracket, cs => cs = ['[']
  | rightBracket, cs => cs = [']']
  | endOfText, cs => cs = []

/-- The text does not go on with a character of the given kind. -/
def StopsAt (p : Char → Bool) (cs : List Char) : Prop := ∀ c rest, cs = c :: rest → p c = false

theorem span_of_stopsAt {p : Char → Bool} {word rest : List Char}
    (hword : ∀ d ∈ word, p d = true) (hrest : StopsAt p rest) :
    (word ++ rest).takeWhile p = word ∧ (word ++ rest).dropWhile p = rest := by
  rw [List.takeWhile_append_of_pos hword, List.dropWhile_append_of_pos hword]
  cases rest with
  | nil => simp
  | cons c rest =>
      have hc := hrest c rest rfl
      simp [hc]

theorem isNamePart_of_isNameStart {c : Char} (h : isNameStart c = true) : isNamePart c = true := by
  rcases Bool.or_eq_true_iff.mp h with hletter | hunderscore
  · simp [isNamePart, isLetterOrNumeral_of_isLetter hletter]
  · simp [isNamePart, hunderscore]

theorem isNamePart_bracket : isNamePart '[' = false ∧ isNamePart ']' = false := by
  decide +kernel

theorem isNamePart_of_isTypeBlank {c : Char} (h : isTypeBlank c = true) :
    isNamePart c = false := by
  simp only [isTypeBlank, Bool.or_eq_true, beq_iff_eq] at h
  rcases h with ((rfl | rfl) | rfl) | rfl <;> decide +kernel

theorem isAsciiDigit_of_isTypeBlank {c : Char} (h : isTypeBlank c = true) :
    isAsciiDigit c = false := by
  simp only [isTypeBlank, Bool.or_eq_true, beq_iff_eq] at h
  rcases h with ((rfl | rfl) | rfl) | rfl <;> decide

theorem isNameStart_bracket : ¬ isNameStart '[' = true ∧ ¬ isNameStart ']' = true := by
  refine ⟨fun h ↦ ?_, fun h ↦ ?_⟩
  · exact absurd (isNamePart_of_isNameStart h) (by simp [isNamePart_bracket.1])
  · exact absurd (isNamePart_of_isNameStart h) (by simp [isNamePart_bracket.2])

/-! ## Writing a token in front -/

theorem tokensFrom_gap {gap : List Char} (hgap : IsGap gap) (column : Nat) (cs : List Char) :
    tokensFrom column (gap ++ cs) = tokensFrom (column + gap.length) cs := by
  induction gap generalizing column with
  | nil => rfl
  | cons c gap ih =>
      obtain ⟨hc, hgap⟩ := isGap_cons.mp hgap
      rw [List.cons_append, tokensFrom, if_pos hc, ih hgap, List.length_cons]
      congr 1
      omega

theorem tokensFrom_number {digits rest : List Char} (hfits : TokenKind.number.Fits digits)
    (hrest : StopsAt isAsciiDigit rest) (column : Nat) :
    tokensFrom column (digits ++ rest) =
      (⟨.number, digits, column⟩ :: ·) <$> tokensFrom (column + digits.length) rest := by
  obtain ⟨hne, hdigits⟩ := hfits
  cases digits with
  | nil => exact absurd rfl hne
  | cons c word =>
      obtain ⟨hc, hword⟩ := List.forall_mem_cons.mp hdigits
      have hblank : isTypeBlank c = false := by
        rw [Bool.eq_false_iff]
        intro hblank
        simp [isAsciiDigit_of_isTypeBlank hblank] at hc
      obtain ⟨htake, hdrop⟩ := span_of_stopsAt hword hrest
      rw [List.cons_append, tokensFrom]
      simp only [hblank, hc, htake, hdrop, Bool.false_eq_true, if_false, if_true]

theorem tokensFrom_word {c : Char} {word rest : List Char} (hstart : isNameStart c = true)
    (hblank : isTypeBlank c = false) (hdigit : isAsciiDigit c = false)
    (hword : ∀ d ∈ word, isNamePart d = true) (hrest : StopsAt isNamePart rest) (column : Nat) :
    tokensFrom column (c :: (word ++ rest)) =
      (⟨.name, c :: word, column⟩ :: ·) <$> tokensFrom (column + (c :: word).length) rest := by
  obtain ⟨htake, hdrop⟩ := span_of_stopsAt hword hrest
  rw [tokensFrom]
  simp only [hblank, hdigit, hstart, htake, hdrop, Bool.false_eq_true, if_false, if_true]

theorem tokensFrom_leftBracket (column : Nat) (rest : List Char) :
    tokensFrom column ('[' :: rest) =
      (⟨.leftBracket, ['['], column⟩ :: ·) <$> tokensFrom (column + 1) rest := by
  rw [tokensFrom, if_neg (by decide), if_neg (by decide), if_neg isNameStart_bracket.1, if_pos rfl]

theorem tokensFrom_rightBracket (column : Nat) (rest : List Char) :
    tokensFrom column (']' :: rest) =
      (⟨.rightBracket, [']'], column⟩ :: ·) <$> tokensFrom (column + 1) rest := by
  rw [tokensFrom, if_neg (by decide), if_neg (by decide), if_neg isNameStart_bracket.2,
    if_neg (by decide), if_pos rfl]

/-! ## Taking the first token off -/

/-- A token stands behind a gap, in front of the text of the tokens after it. -/
theorem exists_rest_of_tokensFrom {column : Nat} {cs : List Char} {tok : Token} {ts : List Token}
    (h : tokensFrom column cs = .ok (tok :: ts)) (hkind : tok.kind ≠ .endOfText) :
    ∃ gap rest column', cs = gap ++ (tok.text ++ rest) ∧ IsGap gap ∧ tok.kind.Fits tok.text ∧
      tokensFrom column' rest = .ok ts := by
  fun_induction tokensFrom column cs with
  | case1 column =>
      cases h
      exact absurd rfl hkind
  | case2 column c rest hblank ih =>
      obtain ⟨gap, others, column', rfl, hgap, hfits, hothers⟩ := ih h
      exact ⟨c :: gap, others, column', rfl, isGap_cons.mpr ⟨hblank, hgap⟩, hfits, hothers⟩
  | case3 column c rest _ hdigit digits =>
      obtain ⟨others, hothers, hcons⟩ := map_eq_ok_iff.mp h
      obtain ⟨rfl, rfl⟩ := List.cons.inj hcons
      refine ⟨[], rest.dropWhile isAsciiDigit, _, ?_, isGap_nil, ?_, hothers⟩
      · simp [digits]
      · refine ⟨by simp [digits], List.forall_mem_cons.mpr ⟨hdigit, fun d hd ↦ ?_⟩⟩
        exact List.mem_takeWhile_imp hd
  | case4 column c rest _ _ hstart letters =>
      obtain ⟨others, hothers, hcons⟩ := map_eq_ok_iff.mp h
      obtain ⟨rfl, rfl⟩ := List.cons.inj hcons
      refine ⟨[], rest.dropWhile isNamePart, _, ?_, isGap_nil, ?_, hothers⟩
      · simp [letters]
      · exact ⟨c, _, rfl, hstart, fun d hd ↦ List.mem_takeWhile_imp hd⟩
  | case5 column rest =>
      obtain ⟨others, hothers, hcons⟩ := map_eq_ok_iff.mp h
      obtain ⟨rfl, rfl⟩ := List.cons.inj hcons
      exact ⟨[], rest, _, rfl, isGap_nil, rfl, hothers⟩
  | case6 column rest =>
      obtain ⟨others, hothers, hcons⟩ := map_eq_ok_iff.mp h
      obtain ⟨rfl, rfl⟩ := List.cons.inj hcons
      exact ⟨[], rest, _, rfl, isGap_nil, rfl, hothers⟩
  | case7 => cases h

/-- Where the tokens end there are only blanks left. -/
theorem isGap_of_tokensFrom {column : Nat} {cs : List Char} {tok : Token} {ts : List Token}
    (h : tokensFrom column cs = .ok (tok :: ts)) (hkind : tok.kind = .endOfText) : IsGap cs := by
  fun_induction tokensFrom column cs with
  | case1 => exact isGap_nil
  | case2 column c rest hblank ih => exact isGap_cons.mpr ⟨hblank, ih h⟩
  | case3 | case4 | case5 | case6 =>
      obtain ⟨others, _, hcons⟩ := map_eq_ok_iff.mp h
      obtain ⟨rfl, _⟩ := List.cons.inj hcons
      cases hkind
  | case7 => cases h

end AbiTypings.TypeString
