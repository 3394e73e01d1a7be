import AbiTypings.Text.Blank
import AbiTypings.Text.Capital
import AbiTypings.Text.Digit
import AbiTypings.Text.Letter

/-!
# Characters that are capitals already

What the capital of a character is made of has no other capital, and is no digit and nothing that
separates words. The capital of a small ASCII letter is one letter, which the full mapping gives
too. Both are read off the tables, which are compared as sets of code points.
-/

namespace AbiTypings.Text

variable {c d : Char} {n : Nat}

/-! ## Tables as sets of code points -/

/-- The number that has a bit at each code point of the list. -/
def bitsOf (points : List Nat) : Nat := points.foldr (fun n bits ↦ 1 <<< n ||| bits) 0

theorem testBit_bitsOf {points : List Nat} : (bitsOf points).testBit n = true ↔ n ∈ points := by
  induction points with
  | nil => simp [bitsOf]
  | cons m rest ih =>
      rw [bitsOf, List.foldr_cons, ← bitsOf, Nat.testBit_or, Nat.one_shiftLeft,
        Nat.testBit_two_pow, Bool.or_eq_true, ih, List.mem_cons, decide_eq_true_eq]
      exact or_congr_left eq_comm

def Ranges.points (rs : Ranges) : List Nat := rs.flatMap fun r ↦ List.range' r.1 (r.2 + 1 - r.1)

theorem Ranges.mem_points {rs : Ranges} (h : rs.has c = true) : c.toNat ∈ rs.points := by
  obtain ⟨r, hr, hlow, hhigh⟩ := Ranges.has_eq_true_iff.mp h
  refine List.mem_flatMap.mpr ⟨r, hr, List.mem_range'_1.mpr ⟨hlow, ?_⟩⟩
  omega

def CapitalRun.points (r : CapitalRun) : List Nat :=
  List.range' r.first ((r.last - r.first) / r.step + 1) r.step

theorem CapitalRun.mem_points {r : CapitalRun} (h : r.has n = true) : n ∈ r.points := by
  simp only [has, Bool.and_eq_true, decide_eq_true_eq, beq_iff_eq] at h
  obtain ⟨⟨hlow, hhigh⟩, hstep⟩ := h
  refine List.mem_range'.mpr ⟨(n - r.first) / r.step, ?_, ?_⟩
  · exact Nat.lt_succ_of_le (Nat.div_le_div_right (Nat.sub_le_sub_right hhigh r.first))
  · rw [Nat.mul_div_cancel' (Nat.dvd_of_mod_eq_zero hstep)]
    omega

/-! ## Capitals of capitals -/

/-- The code points of the characters that have a capital, that are digits, or that separate the
words of a file name. -/
def unsettledPoints : List Nat :=
  capitalRuns.flatMap CapitalRun.points ++ capitalExpansions.map Prod.fst ++
    Ranges.points (blankRanges ++ digitRanges ++ [('-'.toNat, '.'.toNat)])

/-- The code points that a capital can be made of. -/
def capitalPoints : List Nat :=
  (capitalRuns.flatMap fun r ↦ r.points.map fun (n : Nat) ↦ ((n : Int) + r.shift).toNat) ++
    capitalExpansions.flatMap Prod.snd

/-- A character that stays as it is when a class name is made. -/
structure IsSettled (c : Char) : Prop where
  capital : capital c = [c]
  notBlank : isBlank c = false
  notDigit : isDigit c = false
  notHyphen : c ≠ '-'
  notPoint : c ≠ '.'

theorem capital_eq_self (hruns : c.toNat ∉ capitalRuns.flatMap CapitalRun.points)
    (hexpansions : c.toNat ∉ capitalExpansions.map Prod.fst) : capital c = [c] := by
  have hnoExpansion : capitalExpansions.find? (fun e ↦ e.1 == c.toNat) = none := by
    refine List.find?_eq_none.mpr fun e he heq ↦ hexpansions ?_
    exact List.mem_map.mpr ⟨e, he, beq_iff_eq.mp heq⟩
  have hnoRun : capitalRuns.find? (fun r ↦ r.has c.toNat) = none := by
    refine List.find?_eq_none.mpr fun r hr hhas ↦ hruns ?_
    exact List.mem_flatMap.mpr ⟨r, hr, CapitalRun.mem_points hhas⟩
  rw [capital, hnoExpansion, hnoRun]

theorem isSettled_of_notMem (h : c.toNat ∉ unsettledPoints) : IsSettled c := by
  simp only [unsettledPoints, List.mem_append, not_or] at h
  obtain ⟨⟨hruns, hexpansions⟩, hranges⟩ := h
  have hhas : Ranges.has (blankRanges ++ digitRanges ++ [('-'.toNat, '.'.toNat)]) c = false :=
    Bool.eq_false_iff.mpr fun hhas ↦ hranges (Ranges.mem_points hhas)
  rw [Ranges.has, List.any_append, List.any_append, Bool.or_eq_false_iff,
    Bool.or_eq_false_iff] at hhas
  obtain ⟨⟨hblank, hdigit⟩, hmarks⟩ := hhas
  refine ⟨capital_eq_self hruns hexpansions, hblank, hdigit, ?_, ?_⟩
  all_goals
    rintro rfl
    exact absurd hmarks (by decide)

theorem notMem_unsettledPoints :
    (capitalPoints.all fun n ↦ !(bitsOf unsettledPoints).testBit (Char.ofNat n).toNat) = true := by
  decide +kernel

theorem isSettled_of_mem_capitalPoints (h : n ∈ capitalPoints) : IsSettled (Char.ofNat n) := by
  refine isSettled_of_notMem fun hmem ↦ ?_
  have hbit := List.all_eq_true.mp notMem_unsettledPoints n h
  rw [testBit_bitsOf.mpr hmem] at hbit
  cases hbit

theorem capitalExpansions_ne_nil : (capitalExpansions.all fun e ↦ !e.2.isEmpty) = true := by
  decide +kernel

/-- A character is its own capital, or its capital is made of settled ones. -/
theorem capital_cases (c : Char) :
    capital c = [c] ∨ (capital c ≠ [] ∧ ∀ d ∈ capital c, IsSettled d) := by
  unfold capital
  split
  case h_1 e he =>
    have hmem := List.mem_of_find?_eq_some he
    refine Or.inr ⟨?_, fun d hd ↦ ?_⟩
    · have hne := List.all_eq_true.mp capitalExpansions_ne_nil e hmem
      simpa using hne
    · obtain ⟨n, hn, rfl⟩ := List.mem_map.mp hd
      refine isSettled_of_mem_capitalPoints (List.mem_append_right _ ?_)
      exact List.mem_flatMap.mpr ⟨e, hmem, hn⟩
  case h_2 =>
    split
    case h_1 r hr =>
      refine Or.inr ⟨List.cons_ne_nil _ _, fun d hd ↦ ?_⟩
      obtain rfl := List.mem_singleton.mp hd
      have hhas : r.has c.toNat = true := by simpa using List.find?_some hr
      refine isSettled_of_mem_capitalPoints (List.mem_append_left _ ?_)
      refine List.mem_flatMap.mpr ⟨r, List.mem_of_find?_eq_some hr, ?_⟩
      exact List.mem_map.mpr ⟨c.toNat, CapitalRun.mem_points hhas, rfl⟩
    case h_2 => exact Or.inl rfl

/-! ## ASCII letters -/

def smallLetters : List Char := (List.range' ('a'.toNat) 26).map Char.ofNat

theorem mem_smallLetters (hlow : 'a' ≤ c) (hhigh : c ≤ 'z') : c ∈ smallLetters := by
  have hlow : 'a'.toNat ≤ c.toNat := hlow
  have hhigh : c.toNat ≤ 'z'.toNat := hhigh
  refine List.mem_map.mpr ⟨c.toNat, List.mem_range'_1.mpr ⟨hlow, ?_⟩, Char.ofNat_toNat c⟩
  exact Nat.lt_succ_of_le hhigh

theorem capital_smallLetters :
    (smallLetters.all fun c ↦ capital c == [asciiCapital c] && !isDigit c && isLetter c &&
      isLetter (asciiCapital c)) = true := by
  decide +kernel

/-- A character is its own ASCII capital, or is a letter whose capital that is. -/
theorem asciiCapital_cases (c : Char) :
    asciiCapital c = c ∨ (capital c = [asciiCapital c] ∧ IsSettled (asciiCapital c) ∧
      isDigit c = false ∧ isLetter c = true ∧ isLetter (asciiCapital c) = true) := by
  by_cases hsmall : 'a' ≤ c ∧ c ≤ 'z'
  · have hletter :=
      List.all_eq_true.mp capital_smallLetters c (mem_smallLetters hsmall.1 hsmall.2)
    simp only [Bool.and_eq_true, beq_iff_eq, Bool.not_eq_true'] at hletter
    obtain ⟨⟨⟨hcapital, hdigit⟩, hfrom⟩, hto⟩ := hletter
    rcases capital_cases c with hself | ⟨_, hsettled⟩
    · exact Or.inl (List.cons.inj (hcapital.symm.trans hself)).1
    · rw [hcapital] at hsettled
      exact Or.inr ⟨hcapital, hsettled _ List.mem_cons_self, hdigit, hfrom, hto⟩
  · exact Or.inl (if_neg hsmall)

@[simp] theorem capital_asciiCapital (c : Char) : capital (asciiCapital c) = capital c := by
  rcases asciiCapital_cases c with hself | ⟨hcapital, hsettled, _⟩
  · rw [hself]
  · rw [hcapital, hsettled.capital]

@[simp] theorem isDigit_asciiCapital (c : Char) : isDigit (asciiCapital c) = isDigit c := by
  rcases asciiCapital_cases c with hself | ⟨_, hsettled, hdigit, _⟩
  · rw [hself]
  · rw [hsettled.notDigit, hdigit]

end AbiTypings.Text
