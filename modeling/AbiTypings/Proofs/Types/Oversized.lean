import AbiTypings.Proofs.Types.Reading
import AbiTypings.Proofs.Types.Tokens

/-!
# Numbers over the length limit in type strings

Reading a type string is refused for a reason of its own, unless a number in it is longer than
numerals may be. The digits of such a number stand in a row in the string, and so many digits in
the place of the bits do end the reading.
-/

namespace AbiTypings.TypeString

open Decimal Text Outcome

/-- More digits than a numeral may have stand in a row. -/
def HasLongRun (s : String) : Prop :=
  ∃ run, run <:+: s.toList ∧ run.all isAsciiDigit = true ∧ maxNumeralLength < run.length

/-! ## Tokens -/

/-- A token of `cs`: its characters stand there in a row, and a number has only digits. -/
def IsTokenOf (cs : List Char) (tok : Token) : Prop :=
  tok.text <:+: cs ∧ (tok.kind = .number → tok.text.all isAsciiDigit = true)

theorem IsTokenOf.of_suffix {cs ds : List Char} {tok : Token} (h : IsTokenOf ds tok)
    (hsuffix : ds <:+ cs) : IsTokenOf cs tok :=
  ⟨h.1.trans hsuffix.isInfix, h.2⟩

theorem isTokenOf_of_mem_tokensFrom {column : Nat} {cs : List Char} {ts : List Token}
    (h : tokensFrom column cs = .ok ts) : ∀ tok ∈ ts, IsTokenOf cs tok := by
  intro tok htok
  have hdrop {p : Char → Bool} {c : Char} {rest : List Char} :
      rest.dropWhile p <:+ c :: rest :=
    (List.dropWhile_suffix p).trans (List.suffix_cons c rest)
  have htake {p : Char → Bool} {c : Char} {rest : List Char} :
      c :: rest.takeWhile p <:+: c :: rest :=
    ((List.prefix_cons_inj c).mpr (List.takeWhile_prefix p)).isInfix
  fun_induction tokensFrom column cs generalizing ts with
  | case1 column =>
      cases h
      obtain rfl := List.mem_singleton.mp htok
      exact ⟨List.nil_infix, by simp⟩
  | case2 column c rest _ ih => exact (ih h htok).of_suffix (List.suffix_cons c rest)
  | case3 column c rest _ hdigit digits =>
      rename_i ih
      obtain ⟨others, hothers, rfl⟩ := map_eq_ok_iff.mp h
      rcases List.mem_cons.mp htok with rfl | htok
      · exact ⟨htake, fun _ ↦ by simp [digits, hdigit, List.all_takeWhile]⟩
      · exact (ih hothers htok).of_suffix hdrop
  | case4 column c rest _ _ _ letters =>
      rename_i ih
      obtain ⟨others, hothers, rfl⟩ := map_eq_ok_iff.mp h
      rcases List.mem_cons.mp htok with rfl | htok
      · exact ⟨htake, by simp⟩
      · exact (ih hothers htok).of_suffix hdrop
  | case5 column rest _ _ _ ih =>
      obtain ⟨others, hothers, rfl⟩ := map_eq_ok_iff.mp h
      rcases List.mem_cons.mp htok with rfl | htok
      · exact ⟨⟨[], rest, rfl⟩, by simp⟩
      · exact (ih hothers htok).of_suffix (List.suffix_cons _ rest)
  | case6 column rest _ _ _ _ ih =>
      obtain ⟨others, hothers, rfl⟩ := map_eq_ok_iff.mp h
      rcases List.mem_cons.mp htok with rfl | htok
      · exact ⟨⟨[], rest, rfl⟩, by simp⟩
      · exact (ih hothers htok).of_suffix (List.suffix_cons _ rest)
  | case7 => cases h

/-! ## Numbers -/

theorem lt_length_of_readNumber {digits : List Char} {o : Oversized}
    (h : readNumber digits = .error (.oversized o)) : maxNumeralLength < digits.length := by
  unfold readNumber readNumeral at h
  split_ifs at h with hlong
  exact hlong

theorem digitsAfter?_eq_some {head name digits : List Char}
    (h : digitsAfter? head name = some digits) :
    name = head ++ digits ∧ digits.all isAsciiDigit = true := by
  unfold digitsAfter? at h
  split_ifs at h with hcond
  obtain ⟨hhead, hdigits⟩ := Bool.and_eq_true_iff.mp hcond
  obtain ⟨rest, rfl⟩ := List.isPrefixOf_iff_prefix.mp hhead
  rw [List.drop_left] at h hdigits
  cases h
  exact ⟨rfl, hdigits⟩

theorem readNumber_of_readBits {digits : List Char} {o : Oversized}
    (h : readBits digits = .error (.oversized o)) : readNumber digits = .error (.oversized o) := by
  unfold readBits at h
  split_ifs at h
  exact h

theorem hasLongRun_of_baseType {components : Option Components} {name : List Char}
    {o : Oversized} (h : baseType components name = .error (.oversized o)) :
    ∃ digits, digits <:+: name ∧ digits.all isAsciiDigit = true ∧
      maxNumeralLength < digits.length := by
  obtain ⟨u, _, hbase⟩ | ⟨cs, _, hbase⟩ | ⟨_, digits, leaf, hdigits, _, hbase⟩ | ⟨_, hbase⟩ :=
    baseType_cases components name
  · cases h.symm.trans hbase
  · cases h.symm.trans hbase
  · have hread : readNumber digits = .error (.oversized o) := by
      rcases hbase with hbase | hbase
      · exact readNumber_of_readBits (map_eq_error_iff.mp (hbase.symm.trans h))
      · exact map_eq_error_iff.mp (hbase.symm.trans h)
    obtain ⟨rfl, hall⟩ := digitsAfter?_eq_some hdigits
    exact ⟨digits, (List.suffix_append _ _).isInfix, hall, lt_length_of_readNumber hread⟩
  · cases h.symm.trans hbase

theorem expected_ne_oversized {α : Type} (wanted : TokenKind) (ts : List Token) (o : Oversized) :
    (expected wanted ts : Except Fault α) ≠ .error (.oversized o) := by
  cases ts <;> simp [expected]

theorem exists_number_of_readSuffixes {t : EvmType} {ts : List Token} {o : Oversized}
    (h : readSuffixes t ts = .error (.oversized o)) :
    ∃ tok ∈ ts, tok.kind = .number ∧ maxNumeralLength < tok.text.length := by
  fun_induction readSuffixes t ts with
  | case1 t _ _ _ _ rest ih =>
      obtain ⟨tok, htok, hnumber⟩ := ih h
      exact ⟨tok, List.mem_cons_of_mem _ (List.mem_cons_of_mem _ htok), hnumber⟩
  | case2 t _ _ digits _ rest ih =>
      rcases bind_eq_error_iff.mp h with hdigits | ⟨size, _, hrest⟩
      · exact ⟨_, List.mem_cons_of_mem _ List.mem_cons_self, rfl, lt_length_of_readNumber hdigits⟩
      · have ih := ih size
        split at hrest
        · obtain ⟨tok, htok, hnumber⟩ := ih hrest
          exact ⟨tok, by simp [htok], hnumber⟩
        · exact absurd hrest (expected_ne_oversized _ _ _)
  | case3 => exact absurd h (expected_ne_oversized _ _ _)
  | case4 => cases h
  | case5 => exact absurd h (expected_ne_oversized _ _ _)

/-- Only a string with a long run of digits can end its reading with a number over the limit. -/
theorem hasLongRun_of_read {source : String} {components : Option Components} {o : Oversized}
    (h : read source components = .error (.oversized o)) : HasLongRun source := by
  unfold read at h
  split at h
  case h_1 ts htokens =>
    have htoken := isTokenOf_of_mem_tokensFrom htokens
    unfold ofTokens at h
    split at h
    case h_1 name column rest =>
      rcases bind_eq_error_iff.mp h with hbase | ⟨t, _, hsuffixes⟩
      · obtain ⟨run, hrun, hdigits, hlong⟩ := hasLongRun_of_baseType hbase
        exact ⟨run, hrun.trans (htoken _ List.mem_cons_self).1, hdigits, hlong⟩
      · obtain ⟨tok, htok, hnumber, hlong⟩ := exists_number_of_readSuffixes hsuffixes
        have hof := htoken tok (List.mem_cons_of_mem _ htok)
        exact ⟨tok.text, hof.1, hof.2 hnumber, hlong⟩
    case h_2 => exact absurd h (expected_ne_oversized _ _ _)
  case h_2 => cases h

/-! ## Too many digits -/

theorem isNamePart_of_isAsciiDigit {c : Char} (h : isAsciiDigit c = true) :
    isNamePart c = true := by
  obtain ⟨hlow, hhigh⟩ := Bool.and_eq_true_iff.mp h
  have hnumeral : isNumeral c = true :=
    Ranges.has_eq_true_iff.mpr ⟨(0x30, 0x39), by simp [numeralRanges], of_decide_eq_true hlow,
      of_decide_eq_true hhigh⟩
  simp [isNamePart, isLetterOrNumeral, hnumeral]

theorem digitsAfter?_append (head : List Char) {digits : List Char}
    (h : digits.all isAsciiDigit = true) : digitsAfter? head (head ++ digits) = some digits := by
  simp_all [digitsAfter?]

theorem readNumber_of_lt {digits : List Char} (h : maxNumeralLength < digits.length) :
    readNumber digits = .error (.oversized ⟨digits.length⟩) := by
  simp [readNumber, readNumeral, h]

theorem baseType_uint_of_lt {digits : List Char} (hdigits : digits.all isAsciiDigit = true)
    (hlong : maxNumeralLength < digits.length) (components : Option Components) :
    baseType components ("uint".toList ++ digits) = .error (.oversized ⟨digits.length⟩) := by
  have hnonempty : digits ≠ [] := by
    rintro rfl
    cases hlong
  have hplain : plainType? ("uint".toList ++ digits) = none := by simp [plainType?]
  have htuple : "uint".toList ++ digits ≠ "tuple".toList := by simp
  have hbits : readBits digits = .error (.oversized ⟨digits.length⟩) := by
    rw [readBits, if_neg (by simpa using hnonempty), readNumber_of_lt hlong]
  simp only [baseType, hplain, if_neg htuple, digitsAfter?_append _ hdigits, hbits]
  rfl

/-- No number of bits is read from too many digits. -/
theorem read_uint_of_lt {digits : List Char} (hdigits : digits.all isAsciiDigit = true)
    (hlong : maxNumeralLength < digits.length) (components : Option Components) :
    read (String.ofList ("uint".toList ++ digits)) components =
      .error (.oversized ⟨digits.length⟩) := by
  have hpart : ∀ d ∈ ['i', 'n', 't'] ++ digits, isNamePart d = true := by
    intro d hd
    rcases List.mem_append.mp hd with hd | hd
    · exact List.all_eq_true.mp (by decide : ['i', 'n', 't'].all isNamePart = true) d hd
    · exact isNamePart_of_isAsciiDigit (List.all_eq_true.mp hdigits d hd)
  have htokens : tokensFrom 0 ("uint".toList ++ digits) =
      .ok [⟨.name, "uint".toList ++ digits, 0⟩,
        ⟨.endOfText, [], 0 + ("uint".toList ++ digits).length⟩] := by
    have hstops : StopsAt isNamePart [] := by simp [StopsAt]
    have hword := tokensFrom_word (by decide : isNameStart 'u' = true) (by decide) (by decide)
      hpart hstops 0
    rw [List.append_nil, tokensFrom] at hword
    exact hword
  rw [read, tokens, String.toList_ofList, htokens]
  simp only [ofTokens, baseType_uint_of_lt hdigits hlong]
  rfl

end AbiTypings.TypeString
