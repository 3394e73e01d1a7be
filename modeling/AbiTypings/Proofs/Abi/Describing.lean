import AbiTypings.Proofs.Abi.Problems
import AbiTypings.Proofs.Types.Grammar

/-!
# What describes a parameter

A parameter is described by an object: a type string that the grammar derives, and, where it has
components, a vacant value or a list of objects that describe parameters again. What is read is
what an object describes. Any other value is refused, as malformed if its type is no text or its
components are no list of objects, else for the first type string that is no type. Numbers over
the length limit are left out, as in the grammar.
-/

namespace AbiTypings.Abi

open Json TypeString Outcome

/-- The components that are read from a list: each item is called by its own name, or by its
position if it has none. -/
def componentsOf (items : List Value) (types : List EvmType) : Components :=
  (items.mapIdx componentName).zip types

/-- The object describes a parameter of the type. Components are looked at whatever the type
string says, but only the base `tuple` takes them up, and it has to have some. -/
inductive Describes : Value → EvmType → Prop
  | plain {v : Value} {source : String} {t : EvmType}
      (htype : field? "type" v = some (.text source)) (hnone : field? "components" v = none)
      (hderives : Derives none source.toList t) : Describes v t
  | vacant {v c : Value} {source : String} {t : EvmType}
      (htype : field? "type" v = some (.text source)) (hfield : field? "components" v = some c)
      (hvacant : c.isVacant = true) (hderives : Derives (some []) source.toList t) : Describes v t
  | listed {v : Value} {source : String} {t : EvmType} {items : List Value} {types : List EvmType}
      (htype : field? "type" v = some (.text source))
      (hfield : field? "components" v = some (.list items))
      (hobjects : items.all Value.isObject = true) (hitems : List.Forall₂ Describes items types)
      (hderives : Derives (some (componentsOf items types)) source.toList t) : Describes v t

/-! ## Lists of components -/

theorem forall₂_imp_of_mem {α β : Type} {R S : α → β → Prop} {xs : List α} {ys : List β}
    (h : ∀ x ∈ xs, ∀ y, R x y → S x y) (hR : List.Forall₂ R xs ys) : List.Forall₂ S xs ys := by
  have hmem : List.Forall₂ (fun x y ↦ x ∈ xs ∧ R x y) xs ys :=
    (List.forall₂_and_left xs ys).mpr ⟨fun _ hx ↦ hx, hR⟩
  exact hmem.imp fun x y hxy ↦ h x hxy.1 y hxy.2

theorem componentsFrom_eq_ok_iff {position : Nat} {items : List Value} {cs : Components} :
    componentsFrom position items = .ok cs ↔
      ∃ types, List.Forall₂ (fun v t ↦ parameterType v = .ok t) items types ∧
        cs = (items.mapIdx fun i ↦ componentName (position + i)).zip types := by
  induction items generalizing position cs with
  | nil =>
      simp only [componentsFrom, List.forall₂_nil_left_iff, exists_eq_left, List.mapIdx_nil,
        List.zip_nil_left, Except.ok.injEq]
      exact eq_comm
  | cons v rest ih =>
      have hshift : (fun i ↦ componentName (position + (i + 1))) =
          fun i ↦ componentName (position + 1 + i) := by
        funext i
        rw [Nat.add_right_comm, Nat.add_assoc]
      rw [componentsFrom, both_eq_ok_iff, List.mapIdx_cons, hshift]
      constructor
      · rintro ⟨t, others, ht, hothers, rfl⟩
        obtain ⟨types, htypes, rfl⟩ := ih.mp hothers
        exact ⟨t :: types, .cons ht htypes, rfl⟩
      · rintro ⟨types, htypes, rfl⟩
        obtain ⟨t, others, ht, hothers, rfl⟩ := List.forall₂_cons_left_iff.mp htypes
        exact ⟨t, _, ht, ih.mpr ⟨others, hothers, rfl⟩, rfl⟩

theorem componentsFrom_zero_eq_ok_iff {items : List Value} {cs : Components} :
    componentsFrom 0 items = .ok cs ↔
      ∃ types, List.Forall₂ (fun v t ↦ parameterType v = .ok t) items types ∧
        cs = componentsOf items types := by
  simp only [componentsFrom_eq_ok_iff, Nat.zero_add, componentsOf]

theorem parameterComponents_eq_ok_iff {v : Value} {components : Option Components} :
    parameterComponents v = .ok components ↔
      (field? "components" v = none ∧ components = none) ∨
        (∃ c, field? "components" v = some c ∧ c.isVacant = true ∧ components = some []) ∨
        ∃ items types, field? "components" v = some (.list items) ∧
          items.all Value.isObject = true ∧
            List.Forall₂ (fun v t ↦ parameterType v = .ok t) items types ∧
              components = some (componentsOf items types) := by
  unfold parameterComponents
  cases hfield : field? "components" v with
  | none =>
      constructor
      · rintro ⟨⟩
        exact Or.inl ⟨rfl, rfl⟩
      · rintro (⟨_, rfl⟩ | ⟨c, hc, _⟩ | ⟨items, _, hc, _⟩)
        · rfl
        · cases hc
        · cases hc
  | some c =>
      refine map_eq_ok_iff.trans ⟨?_, ?_⟩
      · rintro ⟨cs, hcs, rfl⟩
        obtain ⟨items, hitems, hfrom⟩ := bind_eq_ok_iff.mp hcs
        obtain ⟨types, htypes, rfl⟩ := componentsFrom_zero_eq_ok_iff.mp hfrom
        rcases parameterObjects_eq_ok_iff.mp hitems with ⟨hvacant, rfl⟩ | ⟨rfl, hobjects⟩
        · exact Or.inr (Or.inl ⟨c, rfl, hvacant, rfl⟩)
        · exact Or.inr (Or.inr ⟨items, types, rfl, hobjects, htypes, rfl⟩)
      · rintro (⟨hnone, _⟩ | ⟨c', hc', hvacant, rfl⟩ | ⟨items, types, hc', hobjects, htypes, rfl⟩)
        · cases hnone
        · obtain rfl := Option.some.inj hc'
          refine ⟨[], bind_eq_ok_iff.mpr ⟨[], ?_, rfl⟩, rfl⟩
          exact parameterObjects_eq_ok_iff.mpr (Or.inl ⟨hvacant, rfl⟩)
        · obtain rfl := Option.some.inj hc'
          refine ⟨_, bind_eq_ok_iff.mpr ⟨items, ?_, ?_⟩, rfl⟩
          · exact parameterObjects_eq_ok_iff.mpr (Or.inr ⟨rfl, hobjects⟩)
          · exact componentsFrom_zero_eq_ok_iff.mpr ⟨types, htypes, rfl⟩

/-- Components that are neither vacant nor a list of objects are refused at once. -/
theorem parameterComponents_of_not_objects {v c : Value} (hfield : field? "components" v = some c)
    (hvacant : c.isVacant = false) (hobjects : ∀ items, c = .list items →
      items.all Value.isObject = false) :
    parameterComponents v = .error (.malformedAbi (.notParameterList "components" c)) := by
  have hnone : ∀ items, parameterObjects "components" c ≠ .ok items := by
    intro items hok
    rcases parameterObjects_eq_ok_iff.mp hok with ⟨h, _⟩ | ⟨h, hall⟩
    · exact Bool.false_ne_true (hvacant.symm.trans h)
    · exact Bool.false_ne_true ((hobjects items h).symm.trans hall)
  unfold parameterComponents
  rw [hfield]
  cases hparameters : parameterObjects "components" c with
  | ok items => exact absurd hparameters (hnone items)
  | error p =>
      obtain rfl := parameterObjects_eq_error hparameters
      simp only [hparameters]
      rfl

/-! ## Whole parameters -/

theorem typeOfString_eq_ok_iff {source : String} (hlimit : ¬ HasLongRun source)
    {components : Option Components} {t : EvmType} :
    typeOfString source components = .ok t ↔ Derives components source.toList t := by
  rw [typeOfString, mapError_eq_ok_iff, read_eq_ok_iff hlimit]

theorem parameterType_eq_ok_iff_describes {v : Value} (hlimit : ¬ ParameterHasLongRun v)
    {t : EvmType} : parameterType v = .ok t ↔ Describes v t := by
  induction v using parameterInduction generalizing t with
  | step v ih =>
      have hsource {source : String} (htype : field? "type" v = some (.text source)) :
          ¬ HasLongRun source := fun hrun ↦ hlimit (.here htype hrun)
      -- Reading a list of components goes over to describing them, item by item.
      have hitems {items : List Value} {types : List EvmType}
          (hfield : field? "components" v = some (.list items)) :
          List.Forall₂ (fun v t ↦ parameterType v = .ok t) items types ↔
            List.Forall₂ Describes items types := by
        have hmem : ∀ item ∈ items, item ∈ componentItems v := by
          intro item hitem
          rw [componentItems, hfield]
          exact hitem
        have hsame : ∀ item ∈ items, ∀ t, parameterType item = .ok t ↔ Describes item t :=
          fun item hitem t ↦ ih item (hmem item hitem) fun hrun ↦
            hlimit (.component (hmem item hitem) hrun)
        exact ⟨forall₂_imp_of_mem fun item hitem t ↦ (hsame item hitem t).mp,
          forall₂_imp_of_mem fun item hitem t ↦ (hsame item hitem t).mpr⟩
      rw [parameterType_eq_ok_iff]
      constructor
      · rintro ⟨source, components, htype, hcomponents, hread⟩
        rw [typeOfString_eq_ok_iff (hsource htype)] at hread
        rcases parameterComponents_eq_ok_iff.mp hcomponents with
          ⟨hnone, rfl⟩ | ⟨c, hfield, hvacant, rfl⟩ | ⟨items, types, hfield, hobjects, htypes, rfl⟩
        · exact .plain htype hnone hread
        · exact .vacant htype hfield hvacant hread
        · exact .listed htype hfield hobjects ((hitems hfield).mp htypes) hread
      · intro h
        cases h with
        | plain htype hnone hderives =>
            exact ⟨_, _, htype, parameterComponents_eq_ok_iff.mpr (Or.inl ⟨hnone, rfl⟩),
              (typeOfString_eq_ok_iff (hsource htype)).mpr hderives⟩
        | vacant htype hfield hvacant hderives =>
            refine ⟨_, _, htype, parameterComponents_eq_ok_iff.mpr ?_,
              (typeOfString_eq_ok_iff (hsource htype)).mpr hderives⟩
            exact Or.inr (Or.inl ⟨_, hfield, hvacant, rfl⟩)
        | listed htype hfield hobjects hdescribes hderives =>
            refine ⟨_, _, htype, parameterComponents_eq_ok_iff.mpr ?_,
              (typeOfString_eq_ok_iff (hsource htype)).mpr hderives⟩
            exact Or.inr (Or.inr ⟨_, _, hfield, hobjects, (hitems hfield).mpr hdescribes, rfl⟩)

/-! ## Refusals -/

theorem refusal_of_parameterType {v : Value} (hlimit : ¬ ParameterHasLongRun v) {p : Problem}
    (h : parameterType v = .error p) :
    (∃ m, p = .malformedAbi m) ∨ ∃ source refusal, p = .unknownType source refusal := by
  induction v using parameterInduction generalizing p with
  | step v ih =>
      rcases parameterType_eq_error h with rfl | hcomponents | ⟨source, cs, htype, hread⟩
      · exact Or.inl ⟨_, rfl⟩
      · rcases parameterComponents_eq_error hcomponents with ⟨c, rfl⟩ | ⟨item, hitem, hitemType⟩
        · exact Or.inl ⟨_, rfl⟩
        · exact ih item hitem (fun hrun ↦ hlimit (.component hitem hrun)) hitemType
      · obtain ⟨fault, hfault, rfl⟩ := mapError_eq_error_iff.mp hread
        cases fault with
        | refused refusal => exact Or.inr ⟨source, refusal, rfl⟩
        | oversized o => exact absurd (.here htype (hasLongRun_of_read hfault)) hlimit

theorem malformed_of_parameterType {v : Value}
    (h : (∀ source, field? "type" v ≠ some (.text source)) ∨
      ∃ c, field? "components" v = some c ∧ c.isVacant = false ∧
        ∀ items, c = .list items → items.all Value.isObject = false) :
    ∃ m, parameterType v = .error (.malformedAbi m) := by
  rw [parameterType_eq]
  split
  case h_1 source htype =>
    obtain ⟨c, hfield, hvacant, hobjects⟩ := h.resolve_left fun hnone ↦ hnone source htype
    exact ⟨_, bind_eq_error_iff.mpr
      (Or.inl (parameterComponents_of_not_objects hfield hvacant hobjects))⟩
  case h_2 => exact ⟨_, rfl⟩

/-- A value is read to the types that it describes, of which there is at most one. One that
describes none is refused as malformed or for an unknown type, and it is malformed if its type is
no text or its components are neither vacant nor a list of objects. -/
theorem parameterType_reads_described {v : Value} (hlimit : ¬ ParameterHasLongRun v) :
    (∀ t, parameterType v = .ok t ↔ Describes v t) ∧
      ((∀ t, ¬ Describes v t) → ∃ p, parameterType v = .error p ∧
        ((∃ m, p = .malformedAbi m) ∨ ∃ source refusal, p = .unknownType source refusal)) ∧
      ((∀ source, field? "type" v ≠ some (.text source)) ∨
          (∃ c, field? "components" v = some c ∧ c.isVacant = false ∧
            ∀ items, c = .list items → items.all Value.isObject = false) →
        ∃ m, parameterType v = .error (.malformedAbi m)) := by
  refine ⟨fun t ↦ parameterType_eq_ok_iff_describes hlimit, fun hnone ↦ ?_,
    malformed_of_parameterType⟩
  cases h : parameterType v with
  | ok t => exact absurd ((parameterType_eq_ok_iff_describes hlimit).mp h) (hnone t)
  | error p => exact ⟨p, rfl, refusal_of_parameterType hlimit h⟩

/-- Two tuples of a flag, which has no name, and a tag with components of its own. -/
def flagsParameter : Value :=
  .object [("type", .text "tuple[2]"), ("components", .list
    [.object [("type", .text "bool")],
      .object [("name", .text "tag"), ("components", .null), ("type", .text "bytes4")]])]

theorem not_parameterHasLongRun {v : Value} {source : String}
    (htype : field? "type" v = some (.text source)) (hsource : source.length ≤ 20)
    (hitems : ∀ item ∈ componentItems v, ¬ ParameterHasLongRun item) :
    ¬ ParameterHasLongRun v := by
  intro h
  cases h with
  | here htype' hrun =>
      obtain rfl := Value.text.inj (Option.some.inj (htype.symm.trans htype'))
      obtain ⟨run, hwithin, _, hlong⟩ := hrun
      have hlength := hwithin.length_le
      rw [String.length_toList] at hlength
      rw [Decimal.maxNumeralLength] at hlong
      omega
  | component hitem hrun => exact hitems _ hitem hrun

/-- The second component has vacant components, which `bytes4` has no use for. The word in the
place of a list is refused before the type string next to it. -/
theorem parameterType_reads_described_flags :
    ¬ ParameterHasLongRun flagsParameter ∧
      parameterType flagsParameter = .ok (.array
        (.tuple [(.text "0", .bool), (.text "tag", .fixedBytes 4)]) (some 2)) ∧
      ¬ ParameterHasLongRun (.object [("type", .text "?"), ("components", .text "x")]) ∧
      ∃ m, parameterType (.object [("type", .text "?"), ("components", .text "x")]) =
        .error (.malformedAbi m) := by
  have hlimit : ¬ ParameterHasLongRun flagsParameter := by
    refine not_parameterHasLongRun rfl (by decide) fun item hitem ↦ ?_
    rcases List.mem_pair.mp hitem with rfl | rfl
    · exact not_parameterHasLongRun rfl (by decide) fun _ h ↦ absurd h List.not_mem_nil
    · exact not_parameterHasLongRun rfl (by decide) fun _ h ↦ absurd h List.not_mem_nil
  have hword : ¬ ParameterHasLongRun
      (.object [("type", .text "?"), ("components", .text "x")]) :=
    not_parameterHasLongRun rfl (by decide) fun _ h ↦ absurd h List.not_mem_nil
  have hflag : Describes (.object [("type", .text "bool")]) .bool :=
    .plain rfl rfl ⟨[], _, [], .bool, [], rfl, isGap_nil, .bool, .nil isGap_nil, rfl⟩
  have htag : Describes
      (.object [("name", .text "tag"), ("components", .null), ("type", .text "bytes4")])
      (.fixedBytes 4) := by
    have hdigits : AreDigits ['4'] := List.all_eq_true.mp (by decide)
    exact .vacant rfl rfl rfl ⟨[], _, [], .fixedBytes 4, [], rfl, isGap_nil,
      .fixedBytes (by simp) hdigits, .nil isGap_nil, rfl⟩
  have hflags : Describes flagsParameter
      (.array (.tuple [(.text "0", .bool), (.text "tag", .fixedBytes 4)]) (some 2)) := by
    have hdigits : AreDigits ['2'] := List.all_eq_true.mp (by decide)
    have hsuffix : WritesSuffixes [some 2] "[2]".toList :=
      .sized isGap_nil isGap_nil (by simp) hdigits isGap_nil (.nil isGap_nil)
    exact .listed rfl rfl rfl (.cons hflag (.cons htag .nil))
      ⟨[], "tuple".toList, _, _, _, rfl, isGap_nil, .tuple rfl, hsuffix, rfl⟩
  obtain ⟨hread, _⟩ := parameterType_reads_described hlimit
  obtain ⟨_, _, hmalformed⟩ := parameterType_reads_described hword
  exact ⟨hlimit, (hread _).mpr hflags, hword,
    hmalformed (Or.inr ⟨.text "x", rfl, rfl, fun items h ↦ by cases h⟩)⟩

end AbiTypings.Abi
