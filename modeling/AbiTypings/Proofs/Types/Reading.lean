import AbiTypings.Proofs.Abi.Parameters
import AbiTypings.Proofs.Types.Subtrees

/-!
# Types that are read are types of values

A type string names no void and no foreign node, and array suffixes add none. So the type of a
parameter is a type of values if the types of its components are, at any depth.
-/

namespace AbiTypings

open Outcome

namespace TypeString

variable {components : Option Components}

theorem isValue_of_plainType? {name : List Char} {t : EvmType} (h : plainType? name = some t) :
    t.IsValue := by
  unfold plainType? at h
  split_ifs at h <;> cases h <;> simp [EvmType.IsValue, EvmType.subtrees]

/-- A base name is a plain one, or `tuple`, or a head with digits that fill in a leaf, or it is
unknown. -/
theorem baseType_cases (components : Option Components) (name : List Char) :
    (∃ t, plainType? name = some t ∧ baseType components name = .ok t) ∨
      (∃ cs, components = some cs ∧ baseType components name = .ok (.tuple cs)) ∨
      (∃ head digits leaf, digitsAfter? head name = some digits ∧
        (∀ n : Int, EvmType.IsValue (leaf n)) ∧
        (baseType components name = leaf <$> readBits digits ∨
          baseType components name = leaf <$> readNumber digits)) ∨
      ∃ r, baseType components name = .error (.refused r) := by
  have huint (n : Int) : (EvmType.uint n).IsValue := by simp [EvmType.IsValue, EvmType.subtrees]
  have hint (n : Int) : (EvmType.int n).IsValue := by simp [EvmType.IsValue, EvmType.subtrees]
  have hbytes (n : Int) : (EvmType.fixedBytes n).IsValue := by
    simp [EvmType.IsValue, EvmType.subtrees]
  unfold baseType
  split
  case h_1 t hplain => exact Or.inl ⟨t, hplain, rfl⟩
  case h_2 =>
    refine Or.inr ?_
    split_ifs
    · cases components with
      | none => exact Or.inr (Or.inr ⟨_, rfl⟩)
      | some cs => exact Or.inl ⟨cs, rfl, rfl⟩
    · refine Or.inr ?_
      split
      case h_1 digits h => exact Or.inl ⟨_, digits, _, h, huint, Or.inl rfl⟩
      case h_2 =>
        split
        case h_1 digits h => exact Or.inl ⟨_, digits, _, h, hint, Or.inl rfl⟩
        case h_2 =>
          split
          case h_1 digits h => exact Or.inl ⟨_, digits, _, h, hbytes, Or.inr rfl⟩
          case h_2 => exact Or.inr ⟨_, rfl⟩

theorem isValue_of_baseType {name : List Char} {t : EvmType}
    (hcomponents : ∀ cs, components = some cs → ∀ c ∈ cs, c.2.IsValue)
    (h : baseType components name = .ok t) : t.IsValue := by
  obtain ⟨u, hplain, hbase⟩ | ⟨cs, hcs, hbase⟩ | ⟨_, _, leaf, _, hleaf, hbase⟩ | ⟨_, hbase⟩ :=
    baseType_cases components name
  · cases h.symm.trans hbase
    exact isValue_of_plainType? hplain
  · cases h.symm.trans hbase
    exact EvmType.isValue_tuple.mpr (hcomponents cs hcs)
  · rcases hbase with hbase | hbase
    all_goals
      obtain ⟨n, _, rfl⟩ := map_eq_ok_iff.mp (hbase.symm.trans h)
      exact hleaf n
  · cases h.symm.trans hbase

theorem expected_ne_ok {α : Type} (wanted : TokenKind) (ts : List Token) (a : α) :
    expected wanted ts ≠ .ok a := by
  cases ts <;> simp [expected]

theorem isValue_of_readSuffixes {t u : EvmType} {ts : List Token} (ht : t.IsValue)
    (h : readSuffixes t ts = .ok u) : u.IsValue := by
  fun_induction readSuffixes t ts with
  | case1 t _ _ _ _ rest ih => exact ih (EvmType.isValue_array.mpr ht) h
  | case2 t _ _ digits _ rest ih =>
      obtain ⟨size, _, h⟩ := bind_eq_ok_iff.mp h
      have ih := ih size
      split at h
      · exact ih (EvmType.isValue_array.mpr ht) h
      · exact absurd h (expected_ne_ok _ _ _)
  | case3 => exact absurd h (expected_ne_ok _ _ _)
  | case4 =>
      cases h
      exact ht
  | case5 => exact absurd h (expected_ne_ok _ _ _)

theorem isValue_of_read {source : String} {t : EvmType}
    (hcomponents : ∀ cs, components = some cs → ∀ c ∈ cs, c.2.IsValue)
    (h : read source components = .ok t) : t.IsValue := by
  unfold read at h
  split at h
  case h_1 ts _ =>
    unfold ofTokens at h
    split at h
    · obtain ⟨base, hbase, hsuffixes⟩ := bind_eq_ok_iff.mp h
      exact isValue_of_readSuffixes (isValue_of_baseType hcomponents hbase) hsuffixes
    · exact absurd h (expected_ne_ok _ _ _)
  case h_2 => cases h

end TypeString

namespace Abi

open Json

theorem isValue_of_parameterType {v : Value} {t : EvmType} (h : parameterType v = .ok t) :
    t.IsValue := by
  induction v using parameterInduction generalizing t with
  | step v ih =>
      obtain ⟨source, components, _, hcomponents, htype⟩ := parameterType_eq_ok_iff.mp h
      refine TypeString.isValue_of_read ?_ (mapError_eq_ok_iff.mp htype)
      rintro cs rfl c hc
      obtain ⟨item, hitem, hread⟩ := exists_mem_of_parameterComponents hcomponents c hc
      exact ih item hitem hread

theorem isValue_of_mapM_parameter {items : List Value} {ps : List Parameter}
    (h : items.mapM parameter = .ok ps) : ∀ p ∈ ps, p.type.IsValue := by
  intro p hp
  obtain ⟨v, _, hv⟩ := exists_mem_of_forall₂ (mapM_eq_ok_iff.mp h) hp
  obtain ⟨t, ht, rfl⟩ := map_eq_ok_iff.mp hv
  exact isValue_of_parameterType ht

theorem isValue_of_mapM_eventField {items : List Value} {fs : List EventField}
    (h : items.mapM eventField = .ok fs) : ∀ f ∈ fs, f.type.IsValue := by
  intro f hf
  obtain ⟨v, _, hv⟩ := exists_mem_of_forall₂ (mapM_eq_ok_iff.mp h) hf
  obtain ⟨t, ht, rfl⟩ := map_eq_ok_iff.mp hv
  exact isValue_of_parameterType ht

end Abi

end AbiTypings
