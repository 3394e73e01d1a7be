import AbiTypings.Abi.Parameter
import AbiTypings.Proofs.Outcome

/-!
# Parameters and their components

The reader of parameters, one level at a time: a parameter is read from its type string and from
what its components, parameters themselves, were read to. A fact about parameters follows by
induction from the components to the parameter.
-/

namespace AbiTypings.Abi

open Json Outcome

theorem mem_of_get?_eq_some {key : String} {v : Value} {fields : Fields}
    (h : fields.get? key = some v) : (key, v) ∈ fields := by
  induction fields with
  | nil => simp at h
  | cons f rest ih =>
      obtain ⟨k, w⟩ := f
      rw [Fields.get?_cons] at h
      split_ifs at h with hk
      · simp_all
      · exact List.mem_cons_of_mem _ (ih h)

/-! ## Lists of parameters -/

theorem parameterObjects_eq_ok_iff {key : String} {v : Value} {items : List Value} :
    parameterObjects key v = .ok items ↔
      v.isVacant = true ∧ items = [] ∨ v = .list items ∧ items.all Value.isObject = true := by
  unfold parameterObjects
  split_ifs with hvacant
  · constructor
    · rintro ⟨⟩
      exact Or.inl ⟨hvacant, rfl⟩
    · rintro (⟨_, rfl⟩ | ⟨rfl, _⟩)
      · rfl
      · rw [List.isEmpty_iff.mp hvacant]
  · cases v with
    | list found =>
        by_cases hobjects : found.all Value.isObject = true
        · simp only [hobjects, hvacant]
          grind
        · simp only [hobjects, hvacant]
          grind
    | _ => simp [hvacant]

theorem parameterObjects_eq_error {key : String} {v : Value} {p : Problem}
    (h : parameterObjects key v = .error p) : p = .malformedAbi (.notParameterList key v) := by
  unfold parameterObjects at h
  split_ifs at h
  cases v with
  | list items =>
      simp only at h
      split_ifs at h
      exact (Except.error.inj h).symm
  | _ => exact (Except.error.inj h).symm

/-! ## Components -/

/-- The components of a parameter, if it has that field. -/
def parameterComponents (v : Value) : Except Problem (Option Components) :=
  match field? "components" v with
  | none => .ok none
  | some c => some <$> (parameterObjects "components" c >>= componentsFrom 0)

/-- The items among which the components of a parameter are looked for. -/
def componentItems (v : Value) : List Value :=
  match field? "components" v with
  | some (.list items) => items
  | _ => []

theorem componentList_eq (v : Value) :
    componentList v = parameterObjects "components" v >>= componentsFrom 0 := by
  cases v with
  | list items =>
      simp only [componentList, parameterObjects, Value.isVacant, List.isEmpty_iff]
      by_cases hempty : items = []
      · subst hempty
        rfl
      · by_cases hobjects : items.all Value.isObject = true
        · simp [hempty, hobjects, bind, Except.bind]
        · simp [hempty, hobjects, bind, Except.bind]
  | _ =>
    simp only [componentList, parameterObjects]
    split_ifs <;> rfl

theorem componentsIn_eq (fields : Fields) :
    componentsIn fields = parameterComponents (.object fields) := by
  induction fields with
  | nil => rfl
  | cons f rest ih =>
      obtain ⟨key, v⟩ := f
      by_cases hkey : key = "components"
      · simp [componentsIn, parameterComponents, field?, fieldsOf, hkey, componentList_eq]
      · simp [componentsIn, parameterComponents, field?, fieldsOf, hkey, ih]

theorem forall₂_of_componentsFrom {position : Nat} {items : List Value} {cs : Components}
    (h : componentsFrom position items = .ok cs) :
    List.Forall₂ (fun v c ↦ parameterType v = .ok c.2) items cs := by
  induction items generalizing position cs with
  | nil =>
      cases h
      exact .nil
  | cons v rest ih =>
      rw [componentsFrom, bind_eq_ok_iff] at h
      obtain ⟨t, ht, h⟩ := h
      obtain ⟨others, hothers, h⟩ := bind_eq_ok_iff.mp h
      cases h
      exact .cons ht (ih hothers)

theorem exists_mem_of_componentsFrom_eq_error {position : Nat} {items : List Value} {p : Problem}
    (h : componentsFrom position items = .error p) :
    ∃ v ∈ items, parameterType v = .error p := by
  induction items generalizing position with
  | nil => cases h
  | cons v rest ih =>
      rw [componentsFrom, bind_eq_error_iff] at h
      rcases h with hv | ⟨t, _, h⟩
      · exact ⟨v, List.mem_cons_self, hv⟩
      · rcases bind_eq_error_iff.mp h with hrest | ⟨others, _, hpure⟩
        · obtain ⟨w, hw, hwp⟩ := ih hrest
          exact ⟨w, List.mem_cons_of_mem v hw, hwp⟩
        · cases hpure

theorem exists_mem_of_parameterComponents {v : Value} {cs : Components}
    (h : parameterComponents v = .ok (some cs)) :
    ∀ c ∈ cs, ∃ item ∈ componentItems v, parameterType item = .ok c.2 := by
  intro c hc
  unfold parameterComponents at h
  unfold componentItems
  split at h
  case h_1 => cases h
  case h_2 found hfield =>
    obtain ⟨read, hread, hsome⟩ := map_eq_ok_iff.mp h
    cases hsome
    obtain ⟨items, hitems, hfrom⟩ := bind_eq_ok_iff.mp hread
    obtain ⟨item, hitem, htype⟩ := exists_mem_of_forall₂ (forall₂_of_componentsFrom hfrom) hc
    rcases parameterObjects_eq_ok_iff.mp hitems with ⟨_, rfl⟩ | ⟨rfl, _⟩
    · cases hitem
    · rw [hfield]
      exact ⟨item, hitem, htype⟩

theorem parameterComponents_eq_error {v : Value} {p : Problem}
    (h : parameterComponents v = .error p) :
    (∃ c, p = .malformedAbi (.notParameterList "components" c)) ∨
      ∃ item ∈ componentItems v, parameterType item = .error p := by
  unfold parameterComponents at h
  unfold componentItems
  split at h
  case h_1 => cases h
  case h_2 found hfield =>
    rcases bind_eq_error_iff.mp (map_eq_error_iff.mp h) with hobjects | ⟨items, hitems, hfrom⟩
    · exact Or.inl ⟨found, parameterObjects_eq_error hobjects⟩
    · obtain ⟨item, hitem, htype⟩ := exists_mem_of_componentsFrom_eq_error hfrom
      rcases parameterObjects_eq_ok_iff.mp hitems with ⟨_, rfl⟩ | ⟨rfl, _⟩
      · cases hitem
      · rw [hfield]
        exact Or.inr ⟨item, hitem, htype⟩

/-! ## Parameters -/

/-- A parameter is read in two steps, its components first. -/
theorem parameterType_eq (v : Value) :
    parameterType v =
      match field? "type" v with
      | some (.text source) => parameterComponents v >>= typeOfString source
      | _ => .error (.malformedAbi (.parameterWithoutType v)) := by
  cases v with
  | object fields =>
      rw [parameterType, componentsIn_eq]
      rfl
  | _ => rfl

theorem parameterType_eq_ok_iff {v : Value} {t : EvmType} :
    parameterType v = .ok t ↔
      ∃ source components, field? "type" v = some (.text source) ∧
        parameterComponents v = .ok components ∧ typeOfString source components = .ok t := by
  rw [parameterType_eq]
  split
  case h_1 source hsource =>
    rw [bind_eq_ok_iff]
    simp [hsource]
  case h_2 hnone =>
    constructor
    · intro h
      cases h
    · rintro ⟨source, _, hsource, _⟩
      exact absurd hsource (hnone source)

theorem parameterType_eq_error {v : Value} {p : Problem} (h : parameterType v = .error p) :
    p = .malformedAbi (.parameterWithoutType v) ∨ parameterComponents v = .error p ∨
      ∃ source components, field? "type" v = some (.text source) ∧
        typeOfString source components = .error p := by
  rw [parameterType_eq] at h
  split at h
  case h_1 source hsource =>
    rcases bind_eq_error_iff.mp h with hcomponents | ⟨components, _, htype⟩
    · exact Or.inr (Or.inl hcomponents)
    · exact Or.inr (Or.inr ⟨source, components, hsource, htype⟩)
  case h_2 => exact Or.inl (Except.error.inj h).symm

theorem sizeOf_lt_of_mem_componentItems {v item : Value} (h : item ∈ componentItems v) :
    sizeOf item < sizeOf v := by
  unfold componentItems at h
  split at h
  case h_1 items hfield =>
    cases v with
    | object fields =>
        have hitem := List.sizeOf_lt_of_mem h
        have hfields := List.sizeOf_lt_of_mem (mem_of_get?_eq_some hfield)
        simp only [fieldsOf, Prod.mk.sizeOf_spec, Value.list.sizeOf_spec] at hfields
        simp only [Value.object.sizeOf_spec]
        omega
    | _ => cases hfield
  case h_2 => cases h

/-- What passes from the components of a parameter to the parameter holds of all values. -/
@[elab_as_elim] theorem parameterInduction {motive : Value → Prop}
    (step : ∀ v, (∀ item ∈ componentItems v, motive item) → motive v) (v : Value) : motive v :=
  step v fun item _hitem ↦ parameterInduction step item
termination_by sizeOf v
decreasing_by exact sizeOf_lt_of_mem_componentItems _hitem

end AbiTypings.Abi
