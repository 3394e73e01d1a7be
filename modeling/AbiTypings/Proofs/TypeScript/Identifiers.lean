import AbiTypings.Proofs.Abi.ClassNames
import AbiTypings.TypeScript.Document

/-!
# Class names that a document can use

The class of a document needs an identifier for its name, and one that the imports above it do not
bind already. Of a file name only separators, digits in front and the case of some letters are
mended, so a class name is an identifier only if the other characters make one, and it can be a
name that the imports bind.
-/

namespace AbiTypings.TypeScript

open Abi Outcome Text

variable {c : Char} {cs ds front : List Char}

/-! ## Identifiers -/

def isIdentifierStart (c : Char) : Bool := isLetter c || c == '_' || c == '$'

def isIdentifierPart (c : Char) : Bool := isIdentifierStart c || isDigit c

def isIdentifier : List Char → Bool
  | [] => false
  | c :: cs => isIdentifierStart c && cs.all isIdentifierPart

theorem isIdentifierPart_of_isRaised {d : Char} (h : IsRaised c d) :
    isIdentifierPart d = isIdentifierPart c := by
  rcases h with rfl | rfl
  · rfl
  · rcases asciiCapital_cases c with hself | ⟨_, _, _, hfrom, hto⟩
    · rw [hself]
    · simp [isIdentifierPart, isIdentifierStart, hfrom, hto]

theorem all_isIdentifierPart_of_raised (h : List.Forall₂ IsRaised cs ds) :
    ds.all isIdentifierPart = cs.all isIdentifierPart := by
  induction h with
  | nil => rfl
  | cons hraised _ ih => rw [List.all_cons, List.all_cons, isIdentifierPart_of_isRaised hraised, ih]

theorem isIdentifier_append_of_raised (hne : front ≠ []) (h : List.Forall₂ IsRaised cs ds) :
    isIdentifier (front ++ ds) = isIdentifier (front ++ cs) := by
  obtain ⟨c, rest, rfl⟩ := List.exists_cons_of_ne_nil hne
  rw [List.cons_append, List.cons_append, isIdentifier, isIdentifier, List.all_append,
    List.all_append, all_isIdentifierPart_of_raised h]

/-- The class name of a file is an identifier if the characters that are kept of the file name
are one, as soon as the first of them is a capital. -/
theorem isIdentifier_classNameChars (raw : List Char) :
    isIdentifier (classNameChars raw) = isIdentifier (capitalizeFirst (keptChars raw)) := by
  rcases classNameChars_cases raw with ⟨hkept, hnil⟩ | ⟨c, cs, ds, hkept, hraised, hchars⟩
  · rw [hkept, hnil]
    rfl
  · rw [hkept, hchars, capitalizeFirst]
    exact isIdentifier_append_of_raised (capital_ne_nil c) hraised

/-! ## ASCII names -/

/-- The ASCII letters and digits, the low line and the dollar sign. -/
def plainRanges : Ranges :=
  [(0x24, 0x24), (0x30, 0x39), (0x41, 0x5a), (0x5f, 0x5f), (0x61, 0x7a)]

def isPlainPart (c : Char) : Bool := plainRanges.has c

theorem plainRanges_identify :
    ((plainRanges.points.map Char.ofNat).all fun c ↦ isIdentifierPart c &&
      (isDigit c || isIdentifierStart (asciiCapital c) &&
        (c == '_' || c == '$' || capitalPoints.contains (asciiCapital c).toNat))) = true := by
  decide +kernel

theorem isIdentifierPart_of_isPlainPart (h : isPlainPart c = true) :
    isIdentifierPart c = true ∧ (isDigit c = false → isIdentifier (capital c) = true) := by
  have hmem : c ∈ plainRanges.points.map Char.ofNat :=
    List.mem_map.mpr ⟨c.toNat, Ranges.mem_points h, Char.ofNat_toNat c⟩
  have hcheck := List.all_eq_true.mp plainRanges_identify c hmem
  rw [Bool.and_eq_true] at hcheck
  refine ⟨hcheck.1, fun hdigit ↦ ?_⟩
  simp only [hdigit, Bool.false_or, Bool.and_eq_true, Bool.or_eq_true, beq_iff_eq,
    List.contains_iff_mem] at hcheck
  obtain ⟨_, hstart, hmark | hpoint⟩ := hcheck
  · rcases hmark with rfl | rfl <;> decide +kernel
  · have hsettled := isSettled_of_mem_capitalPoints hpoint
    rw [Char.ofNat_toNat] at hsettled
    rw [← capital_asciiCapital, hsettled.capital, isIdentifier, hstart]
    rfl

/-- Separators and plain characters are all that an identifier needs. -/
theorem isIdentifier_of_isPlainPart {raw : List Char} (hnamed : ¬ IsNameless raw)
    (h : ∀ c ∈ raw, isSeparator c = true ∨ isPlainPart c = true) :
    isIdentifier (classNameChars raw) = true := by
  have hplain : ∀ c ∈ keptChars raw, isPlainPart c = true := fun c hc ↦ by
    have hmem := List.mem_of_mem_filter ((List.dropWhile_sublist isDigit).mem hc)
    refine (h c hmem).resolve_left ?_
    rw [mem_keptChars hc]
    exact Bool.false_ne_true
  obtain ⟨c, cs, hkept⟩ := List.exists_cons_of_ne_nil (mt keptChars_eq_nil_iff.mp hnamed)
  rw [isIdentifier_classNameChars, hkept, capitalizeFirst]
  rw [hkept] at hplain
  have hfirst := (isIdentifierPart_of_isPlainPart (hplain c List.mem_cons_self)).2
    (isDigit_of_keptChars_eq_cons hkept)
  obtain ⟨d, rest, hcapital⟩ := List.exists_cons_of_ne_nil (capital_ne_nil c)
  rw [hcapital, isIdentifier, Bool.and_eq_true] at hfirst
  rw [hcapital, List.cons_append, isIdentifier, List.all_append, hfirst.1, hfirst.2,
    Bool.true_and, Bool.true_and, List.all_eq_true]
  exact fun e he ↦
    (isIdentifierPart_of_isPlainPart (hplain e (List.mem_cons_of_mem c he))).1

/-! ## Imported names -/

/-- The names that a line of imports binds: the words in front of the quoted source, other than
the keywords and braces. -/
def namesBoundBy (line : String) : List String :=
  (((line.toList.takeWhile (· != '\x22')).splitOnP fun c ↦ c == ' ' || c == ',').map
    String.ofList).filter fun word ↦ word ∉ ["", "import", "\x7b", "\x7d", "from"]

/-- The names that the imports of a contract document bind. -/
def importedNames : List String := contractImports.flatMap namesBoundBy

theorem importedNames_eq : importedNames = ["BN", "Contract", "ContractOptions", "EventOptions",
    "EventLog", "EventEmitter", "Callback", "TransactionObject", "ContractEvent"] := by
  decide +kernel

/-- A name that can stand in the class line. -/
structure IsUsable (name : String) : Prop where
  identifier : isIdentifier name.toList = true
  notImported : name ∉ importedNames

theorem isUsable_iff_of_className {raw name : String} (h : className raw = .ok name) :
    IsUsable name ↔ isIdentifier (capitalizeFirst (keptChars raw.toList)) = true ∧
      ∀ imported ∈ importedNames, imported.toList ≠ nameOfWords (wordsOf raw.toList) := by
  have htext : name.toList = classNameChars raw.toList := (className_eq_ok_iff.mp h).2
  rw [← isIdentifier_classNameChars, ← classNameChars_eq, ← htext]
  constructor
  · rintro ⟨hidentifier, hnot⟩
    exact ⟨hidentifier, fun imported hmem heq ↦ hnot (String.toList_inj.mp heq ▸ hmem)⟩
  · rintro ⟨hidentifier, hnot⟩
    exact ⟨hidentifier, fun hmem ↦ hnot name hmem rfl⟩

/-- A file name gives no class name, or one that a document can use exactly when the characters
that are kept make an identifier and the words do not make an imported name. Characters that are
separators, ASCII letters or digits, low lines and dollar signs always make an identifier. -/
theorem className_isUsable_iff (raw : String) :
    className raw = .error (.invalidName raw) ∨
      ∃ name, className raw = .ok name ∧
        (IsUsable name ↔ isIdentifier (capitalizeFirst (keptChars raw.toList)) = true ∧
          ∀ imported ∈ importedNames, imported.toList ≠ nameOfWords (wordsOf raw.toList)) ∧
        ((∀ c ∈ raw.toList, isSeparator c = true ∨ isPlainPart c = true) →
          isIdentifier name.toList = true) := by
  by_cases hnil : classNameChars raw.toList = []
  · exact Or.inl (className_eq_error_iff.mpr ⟨hnil, rfl⟩)
  · have hname : className raw = .ok (String.ofList (classNameChars raw.toList)) :=
      className_eq_ok_iff.mpr ⟨hnil, String.toList_ofList⟩
    refine Or.inr ⟨_, hname, isUsable_iff_of_className hname, fun hplain ↦ ?_⟩
    rw [String.toList_ofList]
    exact isIdentifier_of_isPlainPart (mt classNameChars_eq_nil_iff.mpr hnil) hplain

/-- One name has a bracket in it, and the other is the name of the class that is extended. -/
theorem className_not_isUsable :
    className "pool(v2)" = .ok "Pool(v2)" ∧ ¬ IsUsable "Pool(v2)" ∧
      className "contract" = .ok "Contract" ∧ ¬ IsUsable "Contract" ∧
      "export class Contract extends Contract \x7b" ∈
        documentLines defaultUnit "Contract" [] [] := by
  refine ⟨toOption_eq_some_iff.mp (by decide +kernel), fun h ↦ ?_,
    toOption_eq_some_iff.mp (by decide +kernel), fun h ↦ ?_, by decide +kernel⟩
  · exact absurd h.identifier (by decide +kernel)
  · exact h.notImported (by simp [importedNames_eq])

end AbiTypings.TypeScript
