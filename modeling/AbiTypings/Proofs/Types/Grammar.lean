import Mathlib.Data.Nat.Digits.Defs
import AbiTypings.Abi.Parameter
import AbiTypings.Proofs.Types.Oversized

/-!
# The grammar of type strings

A type string is a base name and array suffixes, with gaps of blanks between the tokens. The
grammar is stated on its own, and the strings that can be read are those it derives, to the types
it gives them. Numbers over the length limit are left out of the comparison: such a number can
end the reading of a string that the grammar derives.
-/

namespace AbiTypings

namespace TypeString

open Decimal Text Outcome

/-! ## The grammar -/

/-- The number that the digits write, ones last. -/
def decimal (digits : List Char) : Nat := Nat.ofDigits 10 (digits.map digitValue).reverse

def bitsOf (digits : List Char) : Nat := if digits = [] then 256 else decimal digits

def AreDigits (cs : List Char) : Prop := ∀ c ∈ cs, isAsciiDigit c = true

/-- The base names, each with its type. The components of a tuple are given from outside. -/
inductive NamesBase (components : Option Components) : List Char → EvmType → Prop
  | address : NamesBase components "address".toList .address
  | bool : NamesBase components "bool".toList .bool
  | string : NamesBase components "string".toList .string
  | bytes : NamesBase components "bytes".toList .bytes
  | byte : NamesBase components "byte".toList (.fixedBytes 1)
  | tuple {cs : Components} (hcs : components = some cs) :
      NamesBase components "tuple".toList (.tuple cs)
  | uint {digits : List Char} (hdigits : AreDigits digits) :
      NamesBase components ("uint".toList ++ digits) (.uint (bitsOf digits))
  | int {digits : List Char} (hdigits : AreDigits digits) :
      NamesBase components ("int".toList ++ digits) (.int (bitsOf digits))
  | fixedBytes {digits : List Char} (hne : digits ≠ []) (hdigits : AreDigits digits) :
      NamesBase components ("bytes".toList ++ digits) (.fixedBytes (decimal digits))

/-- Array suffixes with their sizes, a gap in front of every token and behind the last one. -/
inductive WritesSuffixes : List (Option Int) → List Char → Prop
  | nil {gap : List Char} (hgap : IsGap gap) : WritesSuffixes [] gap
  | dynamic {gap inner rest : List Char} {sizes : List (Option Int)} (hgap : IsGap gap)
      (hinner : IsGap inner) (hrest : WritesSuffixes sizes rest) :
      WritesSuffixes (none :: sizes) (gap ++ '[' :: (inner ++ ']' :: rest))
  | sized {gap left digits right rest : List Char} {sizes : List (Option Int)} (hgap : IsGap gap)
      (hleft : IsGap left) (hne : digits ≠ []) (hdigits : AreDigits digits) (hright : IsGap right)
      (hrest : WritesSuffixes sizes rest) :
      WritesSuffixes (some (decimal digits) :: sizes)
        (gap ++ '[' :: (left ++ (digits ++ (right ++ ']' :: rest))))

/-- One array around the type for each size, the last one outermost. -/
def arraysOf (t : EvmType) (sizes : List (Option Int)) : EvmType := sizes.foldl .array t

/-- The text derives the type: a base name behind a gap, then suffixes. -/
def Derives (components : Option Components) (cs : List Char) (t : EvmType) : Prop :=
  ∃ gap name suffixes base sizes, cs = gap ++ (name ++ suffixes) ∧ IsGap gap ∧
    NamesBase components name base ∧ WritesSuffixes sizes suffixes ∧ t = arraysOf base sizes

/-! ## Numbers -/

theorem numeralValue_eq_decimal (digits : List Char) : numeralValue digits = decimal digits := by
  induction digits using List.reverseRecOn with
  | nil => rfl
  | append_singleton digits c ih =>
      have hlast : decimal (digits ++ [c]) = decimal digits * 10 + digitValue c := by
        rw [decimal, List.map_append, List.reverse_append, List.map_singleton,
          List.reverse_singleton, List.singleton_append, Nat.ofDigits_cons, decimal]
        ring
      rw [numeralValue_append, ih, hlast]
      rfl

/-- The step gives `a`, unless it meets a number over the limit. -/
def Gives {α : Type} (x : Except Fault α) (a : α) : Prop :=
  x = .ok a ∨ ∃ o, x = .error (.oversized o)

theorem Gives.ok {α : Type} (a : α) : Gives (.ok a) a := Or.inl rfl

theorem Gives.bind {α β : Type} {x : Except Fault α} {f : α → Except Fault β} {a : α} {b : β}
    (hx : Gives x a) (hf : Gives (f a) b) : Gives (x >>= f) b := by
  rcases hx with rfl | ⟨o, rfl⟩
  · exact hf
  · exact Or.inr ⟨o, rfl⟩

theorem Gives.map {α β : Type} {x : Except Fault α} {a : α} (hx : Gives x a) (f : α → β) :
    Gives (f <$> x) (f a) := by
  rcases hx with rfl | ⟨o, rfl⟩
  · exact Or.inl rfl
  · exact Or.inr ⟨o, rfl⟩

theorem gives_readNumber (digits : List Char) : Gives (readNumber digits) (decimal digits) := by
  rw [← numeralValue_eq_decimal]
  by_cases hlong : maxNumeralLength < digits.length
  · exact Or.inr ⟨_, readNumber_of_lt hlong⟩
  · have hread := readNumeral_of_length_le (Nat.not_lt.mp hlong)
    exact Or.inl (by rw [readNumber, hread])

theorem gives_readBits (digits : List Char) : Gives (readBits digits) (bitsOf digits) := by
  unfold readBits bitsOf
  by_cases hempty : digits = []
  · subst hempty
    exact Gives.ok _
  · rw [if_neg (by simpa using hempty), if_neg hempty]
    exact gives_readNumber digits

theorem eq_of_gives {α : Type} {x : Except Fault α} {a b : α} (hx : Gives x a) (h : x = .ok b) :
    b = a := by
  rcases hx with ha | ⟨o, ho⟩
  · exact Except.ok.inj (h.symm.trans ha)
  · cases h.symm.trans ho

/-! ## Base names -/

theorem digitsAfter?_eq_none {head name : List Char} (h : ¬ head <+: name) :
    digitsAfter? head name = none := by
  rw [Option.eq_none_iff_forall_ne_some]
  intro digits hdigits
  obtain ⟨rfl, _⟩ := digitsAfter?_eq_some hdigits
  exact h (List.prefix_append head digits)

section Base

variable {components : Option Components} {name : List Char} {t : EvmType}

theorem namesBase_of_plainType? (h : plainType? name = some t) : NamesBase components name t := by
  unfold plainType? at h
  split_ifs at h with haddress hbool hstring hbytes hbyte <;> cases h
  · exact haddress ▸ .address
  · exact hbool ▸ .bool
  · exact hstring ▸ .string
  · exact hbytes ▸ .bytes
  · exact hbyte ▸ .byte

theorem namesBase_of_baseType (h : baseType components name = .ok t) :
    NamesBase components name t := by
  unfold baseType at h
  split at h
  case h_1 u hplain =>
    cases h
    exact namesBase_of_plainType? hplain
  case h_2 hplain =>
    split_ifs at h with htuple
    · cases components with
      | none => cases h
      | some cs =>
          cases h
          exact htuple ▸ .tuple rfl
    split at h
    case h_1 digits huint =>
      obtain ⟨rfl, hdigits⟩ := digitsAfter?_eq_some huint
      rw [eq_of_gives ((gives_readBits digits).map _) h]
      exact .uint (List.all_eq_true.mp hdigits)
    case h_2 =>
      split at h
      case h_1 digits hint =>
        obtain ⟨rfl, hdigits⟩ := digitsAfter?_eq_some hint
        rw [eq_of_gives ((gives_readBits digits).map _) h]
        exact .int (List.all_eq_true.mp hdigits)
      case h_2 =>
        split at h
        case h_1 digits hbytes =>
          obtain ⟨rfl, hdigits⟩ := digitsAfter?_eq_some hbytes
          have hne : digits ≠ [] := by
            rintro rfl
            simp [plainType?] at hplain
          rw [eq_of_gives ((gives_readNumber digits).map _) h]
          exact .fixedBytes hne (List.all_eq_true.mp hdigits)
        case h_2 => cases h

theorem gives_baseType (h : NamesBase components name t) : Gives (baseType components name) t := by
  -- the questions before the one that is answered have to fail
  cases h with
  | address | bool | string | bytes | byte => exact Or.inl (by simp [baseType, plainType?])
  | tuple hcs =>
      subst hcs
      exact Or.inl (by simp [baseType, plainType?])
  | @uint digits hdigits =>
      have hplain : plainType? ("uint".toList ++ digits) = none := by simp [plainType?]
      have htuple : "uint".toList ++ digits ≠ "tuple".toList := by simp
      have huint := digitsAfter?_append "uint".toList (List.all_eq_true.mpr hdigits)
      simp only [baseType, hplain, if_neg htuple, huint]
      exact (gives_readBits digits).map _
  | @int digits hdigits =>
      have hplain : plainType? ("int".toList ++ digits) = none := by simp [plainType?]
      have htuple : "int".toList ++ digits ≠ "tuple".toList := by simp
      have huint : digitsAfter? "uint".toList ("int".toList ++ digits) = none :=
        digitsAfter?_eq_none (by simp)
      have hint := digitsAfter?_append "int".toList (List.all_eq_true.mpr hdigits)
      simp only [baseType, hplain, if_neg htuple, huint, hint]
      exact (gives_readBits digits).map _
  | @fixedBytes digits hne hdigits =>
      have hplain : plainType? ("bytes".toList ++ digits) = none := by simp [plainType?, hne]
      have htuple : "bytes".toList ++ digits ≠ "tuple".toList := by simp
      have huint : digitsAfter? "uint".toList ("bytes".toList ++ digits) = none :=
        digitsAfter?_eq_none (by simp)
      have hint : digitsAfter? "int".toList ("bytes".toList ++ digits) = none :=
        digitsAfter?_eq_none (by simp)
      have hbytes := digitsAfter?_append "bytes".toList (List.all_eq_true.mpr hdigits)
      simp only [baseType, hplain, if_neg htuple, huint, hint, hbytes]
      exact (gives_readNumber digits).map _

theorem exists_cons_of_namesBase (h : NamesBase components name t) :
    ∃ c word, name = c :: word ∧ isNameStart c = true ∧ isTypeBlank c = false ∧
      isAsciiDigit c = false ∧ ∀ d ∈ word, isNamePart d = true := by
  have hpart {head digits : List Char} (hhead : head.all isNamePart = true)
      (hdigits : AreDigits digits) : ∀ d ∈ head ++ digits, isNamePart d = true := by
    intro d hd
    rcases List.mem_append.mp hd with hd | hd
    · exact List.all_eq_true.mp hhead d hd
    · exact isNamePart_of_isAsciiDigit (hdigits d hd)
  cases h with
  | address | bool | string | bytes | byte | tuple =>
      exact ⟨_, _, rfl, by decide, by decide, by decide, List.all_eq_true.mp (by decide)⟩
  | uint hdigits =>
      exact ⟨'u', ['i', 'n', 't'] ++ _, rfl, by decide, by decide, by decide,
        hpart (by decide) hdigits⟩
  | int hdigits =>
      exact ⟨'i', ['n', 't'] ++ _, rfl, by decide, by decide, by decide, hpart (by decide) hdigits⟩
  | fixedBytes hne hdigits =>
      exact ⟨'b', ['y', 't', 'e', 's'] ++ _, rfl, by decide, by decide, by decide,
        hpart (by decide) hdigits⟩

end Base

/-! ## Suffixes -/

section Suffixes

variable {sizes : List (Option Int)} {cs : List Char}

theorem writesSuffixes_of_readSuffixes {t u : EvmType} {column : Nat} {ts : List Token}
    (htokens : tokensFrom column cs = .ok ts) (h : readSuffixes t ts = .ok u) :
    ∃ sizes, WritesSuffixes sizes cs ∧ u = arraysOf t sizes := by
  -- along the reader, taking the tokens of each suffix off the text
  fun_induction readSuffixes t ts generalizing column cs with
  | case1 t _ _ _ _ rest ih =>
      obtain ⟨gap, _, _, rfl, hgap, rfl, hinner⟩ := exists_rest_of_tokensFrom htokens (by simp)
      obtain ⟨inner, _, _, rfl, hblank, rfl, hrest⟩ := exists_rest_of_tokensFrom hinner (by simp)
      obtain ⟨sizes, hsizes, rfl⟩ := ih hrest h
      exact ⟨none :: sizes, .dynamic hgap hblank hsizes, rfl⟩
  | case2 t _ _ digits _ rest ih =>
      obtain ⟨size, hsize, hread⟩ := bind_eq_ok_iff.mp h
      obtain rfl := eq_of_gives (gives_readNumber digits) hsize
      obtain ⟨gap, _, _, rfl, hgap, rfl, hinner⟩ := exists_rest_of_tokensFrom htokens (by simp)
      obtain ⟨left, _, _, rfl, hleft, ⟨hne, hdigits⟩, hbehind⟩ :=
        exists_rest_of_tokensFrom hinner (by simp)
      have ih := ih (decimal digits)
      split at hread
      · obtain ⟨right, _, _, rfl, hright, rfl, hrest⟩ :=
          exists_rest_of_tokensFrom hbehind (by simp)
        obtain ⟨sizes, hsizes, rfl⟩ := ih hrest hread
        exact ⟨some (decimal digits) :: sizes, .sized hgap hleft hne hdigits hright hsizes, rfl⟩
      · exact absurd hread (expected_ne_ok _ _ _)
  | case3 => exact absurd h (expected_ne_ok _ _ _)
  | case4 t =>
      cases h
      exact ⟨[], .nil (isGap_of_tokensFrom htokens rfl), rfl⟩
  | case5 => exact absurd h (expected_ne_ok _ _ _)

theorem stopsAt_of_gap {p : Char → Bool} {gap rest : List Char} {c : Char}
    (hblank : ∀ d, isTypeBlank d = true → p d = false) (hgap : IsGap gap) (hc : p c = false) :
    StopsAt p (gap ++ c :: rest) := by
  intro d others hcons
  cases gap with
  | nil =>
      obtain ⟨rfl, _⟩ := List.cons.inj hcons
      exact hc
  | cons b gap =>
      obtain ⟨rfl, _⟩ := List.cons.inj hcons
      exact hblank b (hgap b List.mem_cons_self)

theorem stopsAt_of_writesSuffixes (h : WritesSuffixes sizes cs) : StopsAt isNamePart cs := by
  have hblank (d : Char) : isTypeBlank d = true → isNamePart d = false :=
    isNamePart_of_isTypeBlank
  cases h with
  | nil hgap =>
      rintro c rest rfl
      exact hblank c (hgap c List.mem_cons_self)
  | dynamic hgap => exact stopsAt_of_gap hblank hgap isNamePart_bracket.1
  | sized hgap => exact stopsAt_of_gap hblank hgap isNamePart_bracket.1

theorem gives_readSuffixes (h : WritesSuffixes sizes cs) (t : EvmType) (column : Nat) :
    ∃ ts, tokensFrom column cs = .ok ts ∧ Gives (readSuffixes t ts) (arraysOf t sizes) := by
  induction h generalizing t column with
  | @nil gap hgap =>
      have htokens := tokensFrom_gap hgap column []
      rw [List.append_nil, tokensFrom] at htokens
      exact ⟨_, htokens, Gives.ok t⟩
  | @dynamic gap inner rest sizes hgap hinner _ ih =>
      obtain ⟨ts, hts, hread⟩ := ih (.array t none) (column + gap.length + 1 + inner.length + 1)
      refine ⟨⟨.leftBracket, ['['], column + gap.length⟩ ::
        ⟨.rightBracket, [']'], column + gap.length + 1 + inner.length⟩ :: ts, ?_, ?_⟩
      · rw [tokensFrom_gap hgap, tokensFrom_leftBracket, tokensFrom_gap hinner,
          tokensFrom_rightBracket, hts]
        rfl
      · rw [readSuffixes]
        exact hread
  | @sized gap left digits right rest sizes hgap hleft hne hdigits hright _ ih =>
      obtain ⟨ts, hts, hread⟩ := ih (.array t (some (decimal digits)))
        (column + gap.length + 1 + left.length + digits.length + right.length + 1)
      have hstops : StopsAt isAsciiDigit (right ++ ']' :: rest) :=
        stopsAt_of_gap (fun d hd ↦ isAsciiDigit_of_isTypeBlank hd) hright (by decide)
      refine ⟨⟨.leftBracket, ['['], column + gap.length⟩ ::
        ⟨.number, digits, column + gap.length + 1 + left.length⟩ ::
        ⟨.rightBracket, [']'], column + gap.length + 1 + left.length + digits.length +
          right.length⟩ :: ts, ?_, ?_⟩
      · rw [tokensFrom_gap hgap, tokensFrom_leftBracket, tokensFrom_gap hleft,
          tokensFrom_number ⟨hne, hdigits⟩ hstops, tokensFrom_gap hright, tokensFrom_rightBracket,
          hts]
        rfl
      · rw [readSuffixes]
        exact (gives_readNumber digits).bind hread

end Suffixes

/-! ## Whole strings -/

section Whole

variable {components : Option Components} {source : String} {t : EvmType}

theorem derives_of_read (h : read source components = .ok t) :
    Derives components source.toList t := by
  unfold read at h
  split at h
  case h_1 ts htokens =>
    unfold ofTokens at h
    split at h
    case h_1 name column rest =>
      obtain ⟨base, hbase, hsuffixes⟩ := bind_eq_ok_iff.mp h
      obtain ⟨gap, suffixes, _, hsource, hgap, _, hrest⟩ :=
        exists_rest_of_tokensFrom htokens (by simp)
      obtain ⟨sizes, hsizes, ht⟩ := writesSuffixes_of_readSuffixes hrest hsuffixes
      exact ⟨gap, name, suffixes, base, sizes, hsource, hgap, namesBase_of_baseType hbase, hsizes,
        ht⟩
    case h_2 => exact absurd h (expected_ne_ok _ _ _)
  case h_2 => cases h

theorem gives_read (h : Derives components source.toList t) : Gives (read source components) t := by
  obtain ⟨gap, name, suffixes, base, sizes, hsource, hgap, hname, hsuffixes, rfl⟩ := h
  obtain ⟨c, word, rfl, hstart, hblank, hdigit, hword⟩ := exists_cons_of_namesBase hname
  obtain ⟨ts, hts, hread⟩ :=
    gives_readSuffixes hsuffixes base (0 + gap.length + (c :: word).length)
  have htokens : tokens source = .ok (⟨.name, c :: word, 0 + gap.length⟩ :: ts) := by
    rw [tokens, hsource, tokensFrom_gap hgap, List.cons_append,
      tokensFrom_word hstart hblank hdigit hword (stopsAt_of_writesSuffixes hsuffixes), hts]
    rfl
  simp only [read, htokens, ofTokens]
  exact (gives_baseType hname).bind hread

theorem read_eq_ok_iff (hlimit : ¬ HasLongRun source) :
    read source components = .ok t ↔ Derives components source.toList t := by
  refine ⟨derives_of_read, fun h ↦ ?_⟩
  rcases gives_read h with hread | ⟨o, ho⟩
  · exact hread
  · exact absurd (hasLongRun_of_read ho) hlimit

end Whole

end TypeString

namespace Abi

open TypeString

/-- The strings that are read are those that the grammar derives; the others are refused as
unknown types. -/
theorem typeOfString_eq_ok_iff_derives {source : String} (hlimit : ¬ HasLongRun source)
    (components : Option Components) :
    (∀ t, typeOfString source components = .ok t ↔ Derives components source.toList t) ∧
      ((∀ t, ¬ Derives components source.toList t) →
        ∃ refusal, typeOfString source components = .error (.unknownType source refusal)) := by
  have hiff (t : EvmType) :
      typeOfString source components = .ok t ↔ Derives components source.toList t := by
    rw [typeOfString, Outcome.mapError_eq_ok_iff, read_eq_ok_iff hlimit]
  refine ⟨hiff, fun hnone ↦ ?_⟩
  cases h : read source components with
  | ok t => exact absurd (derives_of_read h) (hnone t)
  | error fault =>
      cases fault with
      | refused refusal => exact ⟨refusal, by rw [typeOfString, h]; rfl⟩
      | oversized o => exact absurd (hasLongRun_of_read h) hlimit

def shareComponents : Components := [(.text "owner", .address), (.text "share", .uint 256)]

/-- Blanks may stand around a size with zeros in front, but not between a name and its digits. -/
theorem typeOfString_tupleArrays :
    (¬ HasLongRun " tuple [ 003\t][]" ∧
      typeOfString " tuple [ 003\t][]" (some shareComponents) =
        .ok (.array (.array (.tuple shareComponents) (some 3)) none)) ∧
    (¬ HasLongRun "int 8" ∧ (∀ t, ¬ Derives none "int 8".toList t) ∧
      ∃ refusal, typeOfString "int 8" none = .error (.unknownType "int 8" refusal)) := by
  have hshort (s : String) (hs : s.toList.length ≤ 20) : ¬ HasLongRun s := by
    rintro ⟨run, hrun, _, hlong⟩
    have hlength := hrun.length_le
    rw [Decimal.maxNumeralLength] at hlong
    omega
  have harrays := typeOfString_eq_ok_iff_derives (hshort " tuple [ 003\t][]" (by decide))
    (some shareComponents)
  have hderives : Derives (some shareComponents) " tuple [ 003\t][]".toList
      (.array (.array (.tuple shareComponents) (some 3)) none) := by
    have hgaps : IsGap [' '] ∧ IsGap ['\t'] ∧ IsGap [] := by simp [IsGap, isTypeBlank]
    have hdigits : AreDigits ['0', '0', '3'] := List.all_eq_true.mp (by decide)
    have hlast : WritesSuffixes [none] "[]".toList := .dynamic hgaps.2.2 hgaps.2.2 (.nil hgaps.2.2)
    have hsizes : WritesSuffixes [some 3, none] " [ 003\t][]".toList :=
      .sized hgaps.1 hgaps.1 (by simp) hdigits hgaps.2.1 hlast
    exact ⟨[' '], "tuple".toList, _, _, _, rfl, hgaps.1, .tuple rfl, hsizes, rfl⟩
  have hrefused := typeOfString_eq_ok_iff_derives (hshort "int 8" (by decide)) none
  have hfails : (typeOfString "int 8" none).toBool = false := by decide +kernel
  have hnone (t : EvmType) : ¬ Derives none "int 8".toList t := by
    intro h
    rw [(hrefused.1 t).mpr h] at hfails
    cases hfails
  exact ⟨⟨hshort _ (by decide), (harrays.1 _).mpr hderives⟩,
    hshort _ (by decide), hnone, hrefused.2 hnone⟩

end Abi

end AbiTypings
