import AbiTypings.Abi.ClassName
import AbiTypings.Proofs.Outcome
import AbiTypings.Proofs.Text.Capitals
import Mathlib.Data.List.TakeWhile

/-!
# The words of a class name

A class name is made of the words of the file name and of nothing else: it does not matter what
stands between them. There is a class name unless the file name holds only separators and digits,
and making a class name of a class name changes nothing.
-/

namespace AbiTypings.Abi

open Outcome Text

variable {c : Char} {cs ds raw : List Char} {words : List (List Char)}

/-! ## Words -/

/-- What stands between the words of a file name. -/
def isSeparator (c : Char) : Bool := isBlank c || c == '.' || c == '-'

/-- The words of a file name: what is left when it is cut at its runs of separators. -/
def wordsOf (raw : List Char) : List (List Char) :=
  (raw.splitOnP isSeparator).filter (!·.isEmpty)

/-- A word behind a separator. -/
def raiseFirst : List Char → List Char
  | [] => []
  | c :: cs => asciiCapital c :: cs

/-- The class name that words make. -/
def nameOfWords (words : List (List Char)) : List Char :=
  capitalizeFirst ((words.flatMap raiseFirst).dropWhile isDigit)

theorem isSeparator_of_isSettled (h : IsSettled c) : isSeparator c = false := by
  simp [isSeparator, h.notBlank, h.notHyphen, h.notPoint]

theorem flatMap_filter_isEmpty {f : List Char → List Char} (h : f [] = []) :
    (words.filter (!·.isEmpty)).flatMap f = words.flatMap f := by
  induction words with
  | nil => rfl
  | cons w rest ih => cases w <;> simp [h, ih]

theorem flatten_splitOnP (raw : List Char) :
    (raw.splitOnP isSeparator).flatten = raw.filter (!isSeparator ·) := by
  induction raw with
  | nil => simp
  | cons c cs ih =>
      obtain ⟨first, rest, hpieces⟩ :=
        List.exists_cons_of_ne_nil (List.splitOnP_ne_nil isSeparator cs)
      rw [List.splitOnP_cons_eq_if_modifyHead, List.filter_cons, ← ih, hpieces]
      cases isSeparator c <;> simp

theorem flatten_wordsOf (raw : List Char) :
    (wordsOf raw).flatten = raw.filter (!isSeparator ·) := by
  rw [wordsOf, ← flatten_splitOnP, ← List.flatMap_id, flatMap_filter_isEmpty rfl, List.flatMap_id]

/-! ## Hyphens -/

/-- A file name once its blanks and points are hyphens; `inRun` says that a blank has just been
written as one. -/
def hyphenated (inRun : Bool) (raw : List Char) : List Char :=
  hyphenatePoints (hyphenateBlanks inRun raw)

/-- A text with hyphens once the letters behind them are capitals and they are gone. -/
def joined (cs : List Char) : List Char := dropHyphens (raiseAfterHyphens cs)

theorem hyphenated_cons_of_not_isSeparator (h : isSeparator c = false) (inRun : Bool) :
    hyphenated inRun (c :: cs) = c :: hyphenated false cs := by
  simp only [isSeparator, Bool.or_eq_false_iff, beq_eq_false_iff_ne] at h
  simp [hyphenated, hyphenateBlanks, hyphenatePoints, h]

/-- Of a run of blanks only the first one is written. -/
theorem hyphenated_cons_of_isSeparator (h : isSeparator c = true) (inRun : Bool) :
    ∃ b, hyphenated inRun (c :: cs) = '-' :: hyphenated b cs ∨
      (inRun = true ∧ hyphenated inRun (c :: cs) = hyphenated b cs) := by
  cases hblank : isBlank c with
  | true => cases inRun <;> exact ⟨true, by simp [hyphenated, hyphenateBlanks, hyphenatePoints,
      hblank]⟩
  | false =>
      have hmark : c = '.' ∨ c = '-' := by simpa [isSeparator, hblank] using h
      refine ⟨false, Or.inl ?_⟩
      rcases hmark with rfl | rfl <;>
        simp [hyphenated, hyphenateBlanks, hyphenatePoints, hblank]

theorem asciiCapital_ne_hyphen (h : c ≠ '-') : asciiCapital c ≠ '-' := by
  rcases asciiCapital_cases c with hself | ⟨_, hsettled, _⟩
  · rwa [hself]
  · exact hsettled.notHyphen

theorem joined_cons (h : c ≠ '-') : joined (c :: cs) = c :: joined cs := by
  rw [joined, raiseAfterHyphens.eq_2 _ _ (by simp [h])]
  simp [dropHyphens, joined, h]

theorem joined_hyphen_hyphen : joined ('-' :: '-' :: cs) = joined ('-' :: cs) := by
  simp [joined, raiseAfterHyphens, dropHyphens]

theorem joined_hyphen_cons (h : c ≠ '-') :
    joined ('-' :: c :: cs) = asciiCapital c :: joined cs := by
  rw [joined, raiseAfterHyphens]
  by_cases hsmall : 'a' ≤ c ∧ c ≤ 'z'
  · rw [if_pos hsmall, dropHyphens, List.filter_cons_of_pos (by simp [asciiCapital_ne_hyphen h])]
    rfl
  · rw [if_neg hsmall, dropHyphens, List.filter_cons_of_neg (by simp), ← dropHyphens, ← joined,
      joined_cons h, asciiCapital, if_neg hsmall]

/-- The hyphens leave no trace but the capitals behind them. The piece in front of the first
separator is raised only if a hyphen stands before it. -/
theorem joined_hyphenated {first : List Char} {rest : List (List Char)}
    (hpieces : raw.splitOnP isSeparator = first :: rest) :
    joined (hyphenated false raw) = first ++ rest.flatMap raiseFirst ∧
      ∀ inRun, joined ('-' :: hyphenated inRun raw) =
        raiseFirst first ++ rest.flatMap raiseFirst := by
  -- A hyphen in front is carried along, since a separator leaves one for the text behind it.
  induction raw generalizing first rest with
  | nil =>
      obtain ⟨rfl, rfl⟩ := List.cons.inj (List.splitOnP_nil.symm.trans hpieces)
      exact ⟨rfl, fun _ ↦ rfl⟩
  | cons c cs ih =>
      obtain ⟨next, later, hnext⟩ :=
        List.exists_cons_of_ne_nil (List.splitOnP_ne_nil isSeparator cs)
      obtain ⟨hplain, hbehind⟩ := ih hnext
      rw [List.splitOnP_cons_eq_if_modifyHead, hnext] at hpieces
      cases hsep : isSeparator c with
      | true =>
          rw [hsep, if_pos rfl] at hpieces
          obtain ⟨rfl, rfl⟩ := List.cons.inj hpieces
          constructor
          · obtain ⟨b, heq | ⟨hrun, _⟩⟩ := hyphenated_cons_of_isSeparator hsep false
            · rw [heq, hbehind, List.flatMap_cons, List.nil_append]
            · cases hrun
          · intro inRun
            obtain ⟨b, heq | ⟨_, heq⟩⟩ := hyphenated_cons_of_isSeparator hsep inRun
            · rw [heq, joined_hyphen_hyphen, hbehind, List.flatMap_cons]
              rfl
            · rw [heq, hbehind, List.flatMap_cons]
              rfl
      | false =>
          rw [hsep, if_neg Bool.false_ne_true, List.modifyHead_cons] at hpieces
          obtain ⟨rfl, rfl⟩ := List.cons.inj hpieces
          have hne : c ≠ '-' := by
            rintro rfl
            simp [isSeparator] at hsep
          constructor
          · rw [hyphenated_cons_of_not_isSeparator hsep, joined_cons hne, hplain, List.cons_append]
          · intro inRun
            rw [hyphenated_cons_of_not_isSeparator hsep, joined_hyphen_cons hne, hplain]
            rfl

/-! ## The name that the words make -/

/-- Raising the first letter of the whole undoes the difference that raising its first word makes,
and digits are dropped before either. -/
theorem capitalizeFirst_raiseFirst (word rest : List Char) :
    capitalizeFirst ((raiseFirst word ++ rest).dropWhile isDigit) =
      capitalizeFirst ((word ++ rest).dropWhile isDigit) := by
  cases word with
  | nil => rfl
  | cons c cs =>
      rw [raiseFirst, List.cons_append, List.cons_append, List.dropWhile_cons, List.dropWhile_cons,
        isDigit_asciiCapital]
      split_ifs
      · rfl
      · rw [capitalizeFirst, capitalizeFirst, capital_asciiCapital]

theorem classNameChars_eq (raw : List Char) : classNameChars raw = nameOfWords (wordsOf raw) := by
  obtain ⟨first, rest, hpieces⟩ :=
    List.exists_cons_of_ne_nil (List.splitOnP_ne_nil isSeparator raw)
  have hjoined : classNameChars raw =
      capitalizeFirst ((joined (hyphenated false raw)).dropWhile isDigit) := rfl
  rw [hjoined, (joined_hyphenated hpieces).1, ← capitalizeFirst_raiseFirst, nameOfWords, wordsOf,
    flatMap_filter_isEmpty rfl, hpieces, List.flatMap_cons]

theorem className_eq_error_iff {name : String} {problem : Problem} :
    className name = .error problem ↔
      classNameChars name.toList = [] ∧ problem = .invalidName name := by
  unfold className
  split
  case h_1 hnil => simp [hnil, eq_comm]
  case h_2 hne => exact iff_of_false (fun h ↦ by cases h) fun h ↦ hne h.1

theorem className_eq_ok_iff {raw name : String} :
    className raw = .ok name ↔
      classNameChars raw.toList ≠ [] ∧ name.toList = classNameChars raw.toList := by
  unfold className
  split
  case h_1 hnil => simp [hnil]
  case h_2 hne =>
    rw [Except.ok.injEq, and_iff_right hne]
    exact ⟨fun h ↦ h ▸ String.toList_ofList, fun h ↦ h ▸ String.ofList_toList⟩

/-- File names of the same words have the same class name, or none of them has one. -/
theorem className_eq_of_words {a b : String} (h : wordsOf a.toList = wordsOf b.toList) :
    (∃ name, className a = .ok name ∧ className b = .ok name) ∨
      (className a = .error (.invalidName a) ∧ className b = .error (.invalidName b)) := by
  have hchars : classNameChars a.toList = classNameChars b.toList := by
    rw [classNameChars_eq, classNameChars_eq, h]
  by_cases hnil : classNameChars b.toList = []
  · exact Or.inr ⟨className_eq_error_iff.mpr ⟨hchars.trans hnil, rfl⟩,
      className_eq_error_iff.mpr ⟨hnil, rfl⟩⟩
  · refine Or.inl ⟨String.ofList (classNameChars b.toList), ?_, ?_⟩
    · exact className_eq_ok_iff.mpr ⟨hchars ▸ hnil, String.toList_ofList.trans hchars.symm⟩
    · exact className_eq_ok_iff.mpr ⟨hnil, String.toList_ofList⟩

/-- The same four words, of which the digits in front are dropped. -/
theorem className_eq_of_words_token :
    wordsOf "721 my-token.v2".toList = wordsOf "--721.\tmy  . token-\n-v2. ".toList ∧
      className "721 my-token.v2" = .ok "MyTokenV2" ∧
      className "--721.\tmy  . token-\n-v2. " = .ok "MyTokenV2" := by
  have hwords : wordsOf "721 my-token.v2".toList =
      wordsOf "--721.\tmy  . token-\n-v2. ".toList := by
    decide +kernel
  have hname : className "721 my-token.v2" = .ok "MyTokenV2" :=
    toOption_eq_some_iff.mp (by decide +kernel)
  refine ⟨hwords, hname, ?_⟩
  rcases className_eq_of_words hwords with ⟨name, hfirst, hsecond⟩ | ⟨hfails, _⟩
  · rw [hsecond, ← hfirst, hname]
  · rw [hname] at hfails
    cases hfails

/-! ## The characters that are kept -/

/-- The characters of a file name that its class name is made of. -/
def keptChars (raw : List Char) : List Char := (raw.filter (!isSeparator ·)).dropWhile isDigit

/-- The character as it stands, or the capital of a small ASCII letter. -/
def IsRaised (c d : Char) : Prop := d = c ∨ d = asciiCapital c

/-- Nothing in the file name can stand in a class name. -/
def IsNameless (raw : List Char) : Prop := ∀ c ∈ raw, isSeparator c = true ∨ isDigit c = true

instance (raw : List Char) : Decidable (IsNameless raw) :=
  inferInstanceAs (Decidable (∀ c ∈ raw, isSeparator c = true ∨ isDigit c = true))

theorem IsRaised.isDigit_eq {d : Char} (h : IsRaised c d) : isDigit d = isDigit c := by
  rcases h with rfl | rfl
  · rfl
  · exact isDigit_asciiCapital c

theorem IsRaised.isSeparator_eq_false {d : Char} (h : IsRaised c d)
    (hc : isSeparator c = false) : isSeparator d = false := by
  rcases h with rfl | rfl
  · exact hc
  · rcases asciiCapital_cases c with hself | ⟨_, hsettled, _⟩
    · rwa [hself]
    · exact isSeparator_of_isSettled hsettled

theorem forall₂_raiseFirst (word : List Char) : List.Forall₂ IsRaised word (raiseFirst word) := by
  cases word with
  | nil => exact .nil
  | cons c cs => exact .cons (Or.inr rfl) (List.forall₂_same.mpr fun _ _ ↦ Or.inl rfl)

theorem forall₂_flatMap_raiseFirst (words : List (List Char)) :
    List.Forall₂ IsRaised words.flatten (words.flatMap raiseFirst) := by
  induction words with
  | nil => exact .nil
  | cons word rest ih => exact List.rel_append (forall₂_raiseFirst word) ih

theorem forall₂_dropWhile_isDigit (h : List.Forall₂ IsRaised cs ds) :
    List.Forall₂ IsRaised (cs.dropWhile isDigit) (ds.dropWhile isDigit) := by
  induction h with
  | nil => exact .nil
  | cons hraised hrest ih =>
      rw [List.dropWhile_cons, List.dropWhile_cons, hraised.isDigit_eq]
      split_ifs
      · exact ih
      · exact .cons hraised hrest

theorem forall₂_keptChars (raw : List Char) :
    List.Forall₂ IsRaised (keptChars raw)
      (((wordsOf raw).flatMap raiseFirst).dropWhile isDigit) := by
  rw [keptChars, ← flatten_wordsOf]
  exact forall₂_dropWhile_isDigit (forall₂_flatMap_raiseFirst _)

/-- The first character that is kept is written with its full capital, and the others as they are
or raised. -/
theorem classNameChars_cases (raw : List Char) :
    (keptChars raw = [] ∧ classNameChars raw = []) ∨
      ∃ c cs ds, keptChars raw = c :: cs ∧ List.Forall₂ IsRaised cs ds ∧
        classNameChars raw = capital c ++ ds := by
  have hkept := forall₂_keptChars raw
  rw [classNameChars_eq, nameOfWords]
  cases hchars : keptChars raw with
  | nil =>
      rw [hchars, List.forall₂_nil_left_iff] at hkept
      rw [hkept]
      exact Or.inl ⟨rfl, rfl⟩
  | cons c cs =>
      rw [hchars, List.forall₂_cons_left_iff] at hkept
      obtain ⟨d, ds, hraised, hrest, heq⟩ := hkept
      rw [heq]
      refine Or.inr ⟨c, cs, ds, rfl, hrest, ?_⟩
      rcases hraised with rfl | rfl
      · rfl
      · rw [capitalizeFirst, capital_asciiCapital]

theorem keptChars_eq_nil_iff : keptChars raw = [] ↔ IsNameless raw := by
  simp only [keptChars, List.dropWhile_eq_nil_iff, List.mem_filter, Bool.not_eq_true', and_imp]
  refine forall₂_congr fun c _ ↦ ?_
  cases isSeparator c <;> simp

theorem capital_ne_nil (c : Char) : capital c ≠ [] := by
  rcases capital_cases c with hself | ⟨hne, _⟩
  · rw [hself]
    exact List.cons_ne_nil c []
  · exact hne

theorem classNameChars_eq_nil_iff : classNameChars raw = [] ↔ IsNameless raw := by
  rw [← keptChars_eq_nil_iff]
  rcases classNameChars_cases raw with ⟨hkept, hnil⟩ | ⟨c, cs, ds, hkept, _, hchars⟩
  · exact iff_of_true hnil hkept
  · rw [hkept, hchars]
    simp [capital_ne_nil]

/-! ## Names of names -/

/-- A character that is kept stays what it is, from its capital on. -/
theorem exists_capital_eq_cons (hsep : isSeparator c = false) (hdigit : isDigit c = false) :
    ∃ d ds, capital c = d :: ds ∧ capital d = [d] ∧ isDigit d = false ∧
      ∀ e ∈ d :: ds, isSeparator e = false := by
  rcases capital_cases c with hself | ⟨hne, hsettled⟩
  · exact ⟨c, [], hself, hself, hdigit, fun e he ↦ List.mem_singleton.mp he ▸ hsep⟩
  · obtain ⟨d, ds, hcapital⟩ := List.exists_cons_of_ne_nil hne
    rw [hcapital] at hsettled
    have hd := hsettled d List.mem_cons_self
    exact ⟨d, ds, hcapital, hd.capital, hd.notDigit,
      fun e he ↦ isSeparator_of_isSettled (hsettled e he)⟩

/-- A text without separators that starts with a capital is its own class name. -/
theorem classNameChars_eq_self (hcapital : capital c = [c]) (hdigit : isDigit c = false)
    (hsep : ∀ d ∈ c :: cs, isSeparator d = false) : classNameChars (c :: cs) = c :: cs := by
  have hpieces : (c :: cs).splitOnP isSeparator = [c :: cs] :=
    List.splitOnP_eq_singleton hsep
  have hname := capitalizeFirst_raiseFirst (c :: cs) []
  rw [List.append_nil, List.append_nil] at hname
  rw [classNameChars_eq, nameOfWords, wordsOf, hpieces, List.filter_cons_of_pos rfl,
    List.filter_nil, List.flatMap_singleton, hname,
    List.dropWhile_cons_of_neg (by rw [hdigit]; exact Bool.false_ne_true), capitalizeFirst,
    hcapital, List.singleton_append]

theorem mem_keptChars (h : c ∈ keptChars raw) : isSeparator c = false := by
  have hmem := List.mem_filter.mp ((List.dropWhile_sublist isDigit).mem h)
  simpa using hmem.2

theorem isDigit_of_keptChars_eq_cons (h : keptChars raw = c :: cs) : isDigit c = false := by
  have hhead := List.head?_dropWhile_not isDigit (raw.filter (!isSeparator ·))
  rw [← keptChars, h] at hhead
  simpa using hhead

theorem classNameChars_classNameChars (h : classNameChars raw ≠ []) :
    classNameChars (classNameChars raw) = classNameChars raw := by
  rcases classNameChars_cases raw with ⟨_, hnil⟩ | ⟨c, cs, ds, hkept, hraised, hchars⟩
  · exact absurd hnil h
  · have hsep : ∀ e ∈ c :: cs, isSeparator e = false := fun e he ↦ mem_keptChars (hkept ▸ he)
    obtain ⟨d, rest, hcapital, hself, hdigit, hrest⟩ :=
      exists_capital_eq_cons (hsep c List.mem_cons_self) (isDigit_of_keptChars_eq_cons hkept)
    rw [hchars, hcapital, List.cons_append]
    refine classNameChars_eq_self hself hdigit fun e he ↦ ?_
    rw [← List.cons_append] at he
    rcases List.mem_append.mp he with he | he
    · exact hrest e he
    · obtain ⟨e', he', hfrom⟩ := exists_mem_of_forall₂ hraised he
      exact hfrom.isSeparator_eq_false (hsep e' (List.mem_cons_of_mem c he'))

/-- There is no class name if and only if there is nothing but separators and digits; any class
name is its own class name. -/
theorem className_idempotent (raw : String) :
    (className raw = .error (.invalidName raw) ↔ IsNameless raw.toList) ∧
      ((∃ name, className raw = .ok name ∧ name ≠ "" ∧ className name = .ok name) ↔
        ¬ IsNameless raw.toList) := by
  rw [← classNameChars_eq_nil_iff, className_eq_error_iff, and_iff_left rfl]
  refine ⟨Iff.rfl, ?_⟩
  constructor
  · rintro ⟨name, hname, _⟩
    exact (className_eq_ok_iff.mp hname).1
  · intro hne
    have hagain := classNameChars_classNameChars hne
    have hname : className raw = .ok (String.ofList (classNameChars raw.toList)) :=
      className_eq_ok_iff.mpr ⟨hne, String.toList_ofList⟩
    refine ⟨_, hname, ?_, ?_⟩
    · intro hempty
      exact hne (String.toList_ofList.symm.trans (congrArg String.toList hempty))
    · rw [className_eq_ok_iff, String.toList_ofList, hagain]
      exact ⟨hne, rfl⟩

end AbiTypings.Abi
