import AbiTypings.Abi.Parameter
import AbiTypings.Proofs.Types.Tokens

/-!
# Where tokens stand

A scan passes over a text from column to column: over a blank, over a bracket, over a run of
digits or a name up to where it ends. What comes of it are tokens that stand in the text, each
whole and at its column, with nothing left out but blanks. It goes wrong exactly when it comes to
a character that no token starts with. Inside a name such a character may do no harm, so it
matters where the tokens in front of it end.
-/

namespace AbiTypings.TypeString

open Text Outcome

/-! ## Columns of a scan -/

/-- The characters that a token of the kind goes on with. -/
def TokenKind.goesOnWith : TokenKind → Char → Bool
  | name, c => isNamePart c
  | number, c => isAsciiDigit c
  | _, _ => false

/-- The kind of token that a bracket is. -/
def bracketKind? : Char → Option TokenKind
  | '[' => some .leftBracket
  | ']' => some .rightBracket
  | _ => none

/-- The token is found in the text at its column, whole. -/
structure Token.StandsIn (cs : List Char) (t : Token) : Prop where
  text : t.text <+: cs.drop t.column
  fits : t.kind.Fits t.text
  whole : StopsAt t.kind.goesOnWith (cs.drop (t.column + t.text.length))

/-- The columns that a scan comes to: the first one, and those behind a blank or a token. -/
inductive IsMet (cs : List Char) : Nat → Prop
  | start : IsMet cs 0
  | blank {p : Nat} {c : Char} (hp : IsMet cs p) (hc : cs[p]? = some c)
      (hblank : isTypeBlank c = true) : IsMet cs (p + 1)
  | token {t : Token} (ht : IsMet cs t.column) (hkind : t.kind ≠ .endOfText)
      (hstands : t.StandsIn cs) : IsMet cs (t.column + t.text.length)

/-- No blank, and no character that a token starts with. -/
def StartsNothing (c : Char) : Prop :=
  isTypeBlank c = false ∧ isAsciiDigit c = false ∧ isNameStart c = false ∧ c ≠ '[' ∧ c ≠ ']'

/-- A token has to start at the column, and none can. -/
def IsBlockedAt (cs : List Char) (p : Nat) : Prop :=
  IsMet cs p ∧ ∃ c, cs[p]? = some c ∧ StartsNothing c

/-- The tokens are those of the text from the column on: they stand in it from left to right, and
nothing is lost but blanks. -/
structure AreTokensFrom (cs : List Char) (p : Nat) (ts : List Token) : Prop where
  standing : ∀ t ∈ ts, p ≤ t.column ∧ t.StandsIn cs
  ordered : ts.Pairwise (·.column < ·.column)
  lossless : ts.flatMap (·.text) = (cs.drop p).filter (!isTypeBlank ·)
  ended : ∃ others, ts = others ++ [⟨.endOfText, [], cs.length⟩] ∧
    ∀ t ∈ others, t.kind ≠ .endOfText
  brackets : ∀ q c kind, p ≤ q → cs[q]? = some c → bracketKind? c = some kind →
    ⟨kind, [c], q⟩ ∈ ts

/-! ## The characters of tokens -/

section Characters

variable {kind : TokenKind} {word : List Char} {c : Char}

theorem isNameStart_of_isAsciiDigit (h : isAsciiDigit c = true) : isNameStart c = false := by
  have hdigits : ∀ n ∈ List.range' 48 10, isNameStart (Char.ofNat n) = false := by decide +kernel
  obtain ⟨hlow, hhigh⟩ := Bool.and_eq_true_iff.mp h
  have hlow : 48 ≤ c.toNat := of_decide_eq_true hlow
  have hhigh : c.toNat ≤ 57 := of_decide_eq_true hhigh
  have hc := hdigits c.toNat (List.mem_range'_1.mpr ⟨hlow, by omega⟩)
  rwa [Char.ofNat_toNat] at hc

theorem isTypeBlank_of_isNamePart (h : isNamePart c = true) : isTypeBlank c = false := by
  rw [Bool.eq_false_iff]
  intro hblank
  simp [isNamePart_of_isTypeBlank hblank] at h

theorem isTypeBlank_of_isAsciiDigit (h : isAsciiDigit c = true) : isTypeBlank c = false := by
  rw [Bool.eq_false_iff]
  intro hblank
  simp [isAsciiDigit_of_isTypeBlank hblank] at h

theorem isNamePart_of_mem (hfits : TokenKind.name.Fits word) (hc : c ∈ word) :
    isNamePart c = true := by
  obtain ⟨first, rest, rfl, hfirst, hrest⟩ := hfits
  rcases List.mem_cons.mp hc with rfl | hc
  · exact isNamePart_of_isNameStart hfirst
  · exact hrest c hc

theorem isTypeBlank_of_mem (hfits : kind.Fits word) (hc : c ∈ word) : isTypeBlank c = false := by
  cases kind with
  | name => exact isTypeBlank_of_isNamePart (isNamePart_of_mem hfits hc)
  | number => exact isTypeBlank_of_isAsciiDigit (hfits.2 c hc)
  | leftBracket =>
      obtain rfl := List.mem_singleton.mp (hfits ▸ hc)
      decide
  | rightBracket =>
      obtain rfl := List.mem_singleton.mp (hfits ▸ hc)
      decide
  | endOfText => exact absurd (hfits ▸ hc) List.not_mem_nil

theorem bracketKind?_eq_some {k : TokenKind} (h : bracketKind? c = some k) :
    (c = '[' ∧ k = .leftBracket) ∨ (c = ']' ∧ k = .rightBracket) := by
  unfold bracketKind? at h
  split at h
  case h_1 => exact Or.inl ⟨rfl, (Option.some.inj h).symm⟩
  case h_2 => exact Or.inr ⟨rfl, (Option.some.inj h).symm⟩
  case h_3 => cases h

/-- A bracket is in no other token. -/
theorem eq_of_bracketKind? {k : TokenKind} (h : bracketKind? c = some k) (hfits : kind.Fits word)
    (hc : c ∈ word) : kind = k ∧ word = [c] := by
  cases kind with
  | name =>
      have hpart := isNamePart_of_mem hfits hc
      rcases bracketKind?_eq_some h with ⟨rfl, _⟩ | ⟨rfl, _⟩
      · simp [isNamePart_bracket.1] at hpart
      · simp [isNamePart_bracket.2] at hpart
  | number =>
      have hdigit := hfits.2 c hc
      rcases bracketKind?_eq_some h with ⟨rfl, _⟩ | ⟨rfl, _⟩ <;> cases hdigit
  | leftBracket =>
      obtain rfl := List.mem_singleton.mp (hfits ▸ hc)
      exact ⟨Option.some.inj h, hfits⟩
  | rightBracket =>
      obtain rfl := List.mem_singleton.mp (hfits ▸ hc)
      exact ⟨Option.some.inj h, hfits⟩
  | endOfText => exact absurd (hfits ▸ hc) List.not_mem_nil

theorem isTypeBlank_of_bracketKind? {k : TokenKind} (h : bracketKind? c = some k) :
    isTypeBlank c = false := by
  rcases bracketKind?_eq_some h with ⟨rfl, _⟩ | ⟨rfl, _⟩ <;> decide

theorem length_pos_of_fits (hkind : kind ≠ .endOfText) (hfits : kind.Fits word) :
    0 < word.length := by
  cases kind with
  | name =>
      obtain ⟨first, rest, rfl, _⟩ := hfits
      simp
  | number => exact List.length_pos_of_ne_nil hfits.1
  | leftBracket => simp [show word = ['['] from hfits]
  | rightBracket => simp [show word = [']'] from hfits]
  | endOfText => exact absurd rfl hkind

end Characters

/-! ## One step of a scan -/

theorem stopsAt_dropWhile (p : Char → Bool) (cs : List Char) : StopsAt p (cs.dropWhile p) := by
  intro c rest h
  have hne : cs.dropWhile p ≠ [] := by simp [h]
  have hhead := List.head_dropWhile_not p hne
  simpa [h] using hhead

theorem stopsAt_false (rest : List Char) : StopsAt (fun _ ↦ false) rest := fun _ _ _ ↦ rfl

/-- A text is empty, or it begins with a blank, with a token or with a character that starts
nothing. What passes to it from the text behind its beginning holds of all texts. -/
@[elab_as_elim] theorem scanInduction {motive : List Char → Prop} (nil : motive [])
    (blank : ∀ c rest, isTypeBlank c = true → motive rest → motive (c :: rest))
    (token : ∀ (kind : TokenKind) (word rest : List Char), kind ≠ .endOfText → kind.Fits word →
      StopsAt kind.goesOnWith rest → motive rest → motive (word ++ rest))
    (stuck : ∀ c rest, StartsNothing c → motive (c :: rest)) (cs : List Char) : motive cs := by
  fun_induction tokensFrom 0 cs with
  | case1 => exact nil
  | case2 _ c rest hblank ih => exact blank c rest hblank ih
  | case3 _ c rest _ hdigit digits ih =>
      have hfits : TokenKind.number.Fits digits :=
        ⟨by simp [digits], List.forall_mem_cons.mpr ⟨hdigit, fun _ ↦ List.mem_takeWhile_imp⟩⟩
      have hstep := token .number digits _ (by simp) hfits (stopsAt_dropWhile isAsciiDigit rest) ih
      rwa [List.cons_append, List.takeWhile_append_dropWhile] at hstep
  | case4 _ c rest _ _ hstart letters ih =>
      have hfits : TokenKind.name.Fits letters :=
        ⟨c, _, rfl, hstart, fun _ ↦ List.mem_takeWhile_imp⟩
      have hstep := token .name letters _ (by simp) hfits (stopsAt_dropWhile isNamePart rest) ih
      rwa [List.cons_append, List.takeWhile_append_dropWhile] at hstep
  | case5 _ rest _ _ _ ih =>
      exact token .leftBracket ['['] rest (by simp) rfl (stopsAt_false rest) ih
  | case6 _ rest _ _ _ _ ih =>
      exact token .rightBracket [']'] rest (by simp) rfl (stopsAt_false rest) ih
  | case7 _ c rest hblank hdigit hstart hleft hright =>
      exact stuck c rest ⟨Bool.eq_false_iff.mpr hblank, Bool.eq_false_iff.mpr hdigit,
        Bool.eq_false_iff.mpr hstart, hleft, hright⟩

theorem tokensFrom_blank {c : Char} (hblank : isTypeBlank c = true) (column : Nat)
    (rest : List Char) : tokensFrom column (c :: rest) = tokensFrom (column + 1) rest :=
  tokensFrom_gap (isGap_cons.mpr ⟨hblank, isGap_nil⟩) column rest

theorem tokensFrom_token {kind : TokenKind} {word rest : List Char} (hkind : kind ≠ .endOfText)
    (hfits : kind.Fits word) (hends : StopsAt kind.goesOnWith rest) (column : Nat) :
    tokensFrom column (word ++ rest) =
      (⟨kind, word, column⟩ :: ·) <$> tokensFrom (column + word.length) rest := by
  cases kind with
  | name =>
      obtain ⟨c, letters, rfl, hstart, hletters⟩ := hfits
      have hblank := isTypeBlank_of_isNamePart (isNamePart_of_isNameStart hstart)
      have hdigit : isAsciiDigit c = false := by
        rw [Bool.eq_false_iff]
        intro hdigit
        simp [isNameStart_of_isAsciiDigit hdigit] at hstart
      exact tokensFrom_word hstart hblank hdigit hletters hends column
  | number => exact tokensFrom_number hfits hends column
  | leftBracket =>
      obtain rfl := hfits
      exact tokensFrom_leftBracket column rest
  | rightBracket =>
      obtain rfl := hfits
      exact tokensFrom_rightBracket column rest
  | endOfText => exact absurd rfl hkind

theorem tokensFrom_stuck {c : Char} (h : StartsNothing c) (column : Nat) (rest : List Char) :
    tokensFrom column (c :: rest) = .error ⟨c, column⟩ := by
  obtain ⟨hblank, hdigit, hstart, hleft, hright⟩ := h
  rw [tokensFrom]
  simp only [hblank, hdigit, hstart, hleft, hright, Bool.false_eq_true, if_false]

/-! ## What a scan leaves behind -/

section Scan

variable {cs word rest : List Char} {c : Char} {p : Nat} {kind : TokenKind} {t : Token}
  {ts : List Token} {u : Unexpected}

theorem getElem?_of_drop (h : cs.drop p = c :: rest) : cs[p]? = some c := by
  rw [← List.head?_drop, h, List.head?_cons]

theorem drop_of_drop (h : cs.drop p = word ++ rest) : cs.drop (p + word.length) = rest := by
  rw [← List.drop_drop, h, List.drop_left]

theorem standsIn_of_drop (h : cs.drop p = word ++ rest) (hfits : kind.Fits word)
    (hends : StopsAt kind.goesOnWith rest) : Token.StandsIn cs ⟨kind, word, p⟩ where
  text := h ▸ List.prefix_append word rest
  fits := hfits
  whole := (drop_of_drop h).symm ▸ hends

theorem Token.StandsIn.drop_eq (h : t.StandsIn cs) :
    cs.drop t.column = t.text ++ cs.drop (t.column + t.text.length) := by
  obtain ⟨rest, hrest⟩ := h.text
  rw [drop_of_drop hrest.symm, hrest]

theorem areTokensFrom_length : AreTokensFrom cs cs.length [⟨.endOfText, [], cs.length⟩] where
  standing := by
    have hdrop : cs.drop cs.length = [] ++ [] := List.drop_length
    have hends : StopsAt TokenKind.endOfText.goesOnWith [] := stopsAt_false []
    exact List.forall_mem_singleton.mpr ⟨le_rfl, standsIn_of_drop hdrop rfl hends⟩
  ordered := List.pairwise_singleton _ _
  lossless := by simp
  ended := ⟨[], rfl, by simp⟩
  brackets q c kind hq hc _ := by simp [List.getElem?_eq_none hq] at hc

theorem AreTokensFrom.blank (h : AreTokensFrom cs (p + 1) ts) (hc : cs[p]? = some c)
    (hblank : isTypeBlank c = true) : AreTokensFrom cs p ts where
  standing t ht := ⟨(Nat.le_succ p).trans (h.standing t ht).1, (h.standing t ht).2⟩
  ordered := h.ordered
  lossless := by
    obtain ⟨hp, rfl⟩ := List.getElem?_eq_some_iff.mp hc
    rw [h.lossless, List.drop_eq_getElem_cons hp, List.filter_cons_of_neg (by simp [hblank])]
  ended := h.ended
  brackets q d kind hq hd hbracket := by
    have hne : q ≠ p := by
      rintro rfl
      obtain rfl := Option.some.inj (hc.symm.trans hd)
      simp [isTypeBlank_of_bracketKind? hbracket] at hblank
    exact h.brackets q d kind (by omega) hd hbracket

theorem AreTokensFrom.token (h : AreTokensFrom cs (t.column + t.text.length) ts)
    (hkind : t.kind ≠ .endOfText) (hstands : t.StandsIn cs) :
    AreTokensFrom cs t.column (t :: ts) where
  standing := by
    refine List.forall_mem_cons.mpr ⟨⟨le_rfl, hstands⟩, fun t' ht' ↦ ?_⟩
    exact ⟨(Nat.le_add_right _ _).trans (h.standing t' ht').1, (h.standing t' ht').2⟩
  ordered := by
    refine List.pairwise_cons.mpr ⟨fun t' ht' ↦ ?_, h.ordered⟩
    have hpos := length_pos_of_fits hkind hstands.fits
    have hle := (h.standing t' ht').1
    omega
  lossless := by
    have htext : t.text.filter (!isTypeBlank ·) = t.text :=
      List.filter_eq_self.mpr fun c hc ↦ by simp [isTypeBlank_of_mem hstands.fits hc]
    rw [List.flatMap_cons, h.lossless, hstands.drop_eq, List.filter_append, htext]
  ended := by
    obtain ⟨others, rfl, hothers⟩ := h.ended
    exact ⟨t :: others, rfl, List.forall_mem_cons.mpr ⟨hkind, hothers⟩⟩
  brackets q c kind hq hc hbracket := by
    by_cases hinside : q < t.column + t.text.length
    · -- A bracket within the token is all of it.
      obtain ⟨i, rfl⟩ := Nat.exists_eq_add_of_le hq
      have hi : i < t.text.length := by omega
      rw [← List.getElem?_drop, hstands.drop_eq, List.getElem?_append_left hi] at hc
      obtain ⟨rfl, htext⟩ := eq_of_bracketKind? hbracket hstands.fits (List.mem_of_getElem? hc)
      have hzero : i = 0 := by
        rw [htext, List.length_singleton] at hi
        omega
      rw [hzero, Nat.add_zero, ← htext]
      exact List.mem_cons_self
    · exact List.mem_cons_of_mem t (h.brackets q c kind (by omega) hc hbracket)

/-- What is read from a column on are the tokens from there on. -/
theorem areTokensFrom_of_tokensFrom (hp : p ≤ cs.length)
    (h : tokensFrom p (cs.drop p) = .ok ts) : AreTokensFrom cs p ts := by
  generalize hdrop : cs.drop p = rest at h
  induction rest using scanInduction generalizing p ts with
  | nil =>
      obtain rfl : p = cs.length := le_antisymm hp (List.drop_eq_nil_iff.mp hdrop)
      rw [tokensFrom_nil] at h
      obtain rfl := Except.ok.inj h
      exact areTokensFrom_length
  | blank c rest hblank ih =>
      have hc := getElem?_of_drop hdrop
      have hrest : cs.drop (p + [c].length) = rest := drop_of_drop hdrop
      rw [tokensFrom_blank hblank] at h
      exact (ih (List.getElem?_eq_some_iff.mp hc).1 hrest h).blank hc hblank
  | token kind word rest hkind hfits hends ih =>
      have hstands := standsIn_of_drop hdrop hfits hends
      rw [tokensFrom_token hkind hfits hends] at h
      obtain ⟨others, hothers, rfl⟩ := map_eq_ok_iff.mp h
      have hlength : p + word.length ≤ cs.length := by
        have hlengths := congrArg List.length hdrop
        rw [List.length_drop, List.length_append] at hlengths
        omega
      exact (ih hlength (drop_of_drop hdrop) hothers).token hkind hstands
  | stuck c rest hstuck =>
      rw [tokensFrom_stuck hstuck] at h
      cases h

/-- A scan that goes wrong has come to the character that it names. -/
theorem isMet_of_tokensFrom (hmet : IsMet cs p) (h : tokensFrom p (cs.drop p) = .error u) :
    IsMet cs u.column ∧ cs[u.column]? = some u.char ∧ StartsNothing u.char := by
  generalize hdrop : cs.drop p = rest at h
  induction rest using scanInduction generalizing p with
  | nil =>
      rw [tokensFrom_nil] at h
      cases h
  | blank c rest hblank ih =>
      have hrest : cs.drop (p + [c].length) = rest := drop_of_drop hdrop
      rw [tokensFrom_blank hblank] at h
      exact ih (hmet.blank (getElem?_of_drop hdrop) hblank) hrest h
  | token kind word rest hkind hfits hends ih =>
      rw [tokensFrom_token hkind hfits hends, map_eq_error_iff] at h
      have hstands := standsIn_of_drop hdrop hfits hends
      exact ih (hmet.token hkind hstands) (drop_of_drop hdrop) h
  | stuck c rest hstuck =>
      rw [tokensFrom_stuck hstuck] at h
      obtain rfl := Except.error.inj h
      exact ⟨hmet, getElem?_of_drop hdrop, hstuck⟩

/-- From every column that it comes to, a scan goes wrong as it does from the first one. -/
theorem tokensFrom_eq_error_iff_of_isMet (hmet : IsMet cs p) :
    tokensFrom 0 cs = .error u ↔ tokensFrom p (cs.drop p) = .error u := by
  induction hmet with
  | start => rw [List.drop_zero]
  | blank _ hc hblank ih =>
      obtain ⟨hp, rfl⟩ := List.getElem?_eq_some_iff.mp hc
      rw [ih, List.drop_eq_getElem_cons hp, tokensFrom_blank hblank]
  | token _ hkind hstands ih =>
      rw [ih, hstands.drop_eq, tokensFrom_token hkind hstands.fits hstands.whole, map_eq_error_iff]

theorem isBlockedAt_iff (h : tokensFrom 0 cs = .error u) : IsBlockedAt cs p ↔ p = u.column := by
  constructor
  · rintro ⟨hmet, c, hc, hstuck⟩
    rw [tokensFrom_eq_error_iff_of_isMet hmet] at h
    obtain ⟨hp, rfl⟩ := List.getElem?_eq_some_iff.mp hc
    rw [List.drop_eq_getElem_cons hp, tokensFrom_stuck hstuck] at h
    obtain rfl := Except.error.inj h
    rfl
  · rintro rfl
    obtain ⟨hmet, hc, hstuck⟩ := isMet_of_tokensFrom .start h
    exact ⟨hmet, _, hc, hstuck⟩

theorem not_isBlockedAt_of_tokensFrom (h : tokensFrom 0 cs = .ok ts) : ¬ IsBlockedAt cs p := by
  rintro ⟨hmet, c, hc, hstuck⟩
  obtain ⟨hp, rfl⟩ := List.getElem?_eq_some_iff.mp hc
  have herror : tokensFrom 0 cs = .error ⟨cs[p], p⟩ := by
    rw [tokensFrom_eq_error_iff_of_isMet hmet, List.drop_eq_getElem_cons hp,
      tokensFrom_stuck hstuck]
  cases h.symm.trans herror

end Scan

/-- A text is read to all of its tokens if a scan comes to no character that a token cannot start
with. Otherwise the one that it comes to is reported, with its column, and no type is read. -/
theorem tokens_lossless_or_blocked (s : String) :
    (∃ ts, tokens s = .ok ts ∧ AreTokensFrom s.toList 0 ts ∧ ∀ p, ¬ IsBlockedAt s.toList p) ∨
      ∃ u, tokens s = .error u ∧ s.toList[u.column]? = some u.char ∧
        (∀ p, IsBlockedAt s.toList p ↔ p = u.column) ∧
        ∀ components, Abi.typeOfString s components = .error (.unknownType s (.unexpected u)) := by
  cases h : tokens s with
  | ok ts =>
      refine Or.inl ⟨ts, rfl, areTokensFrom_of_tokensFrom (Nat.zero_le _) ?_, fun p ↦ ?_⟩
      · rwa [List.drop_zero]
      · exact not_isBlockedAt_of_tokensFrom h
  | error u =>
      refine Or.inr ⟨u, rfl, (isMet_of_tokensFrom .start h).2.1, fun p ↦ isBlockedAt_iff h, ?_⟩
      intro components
      simp only [Abi.typeOfString, read, h]
      rfl

end AbiTypings.TypeString
