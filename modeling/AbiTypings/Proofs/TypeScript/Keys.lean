import Mathlib.Data.List.Nodup
import AbiTypings.Proofs.Abi.Describing
import AbiTypings.Proofs.TypeScript.Writable

/-!
# Keys of parameter lists and records

A parameter or a component without a name is called after its position, and an output is found
under its position besides its name. The numbers of two positions differ, so two keys are the same
only if a name is, or if one parameter has the name that another one is given.
-/

namespace AbiTypings

open Outcome

namespace TypeScript

/-! ## Names and numbers -/

/-- The names that are not vacant, as they are shown. -/
def ownNames (names : List Json.Value) : List String :=
  (names.filter (!·.isVacant)).map (·.display)

/-- The name, or in its place what stands for the position. -/
def keyAt (standIn : Nat → String) (position : Nat) (name : Json.Value) : String :=
  if name.isVacant then standIn position else name.display

theorem toString_injective : Function.Injective (toString : Nat → String) := by
  intro m n h
  have hdigits : Nat.toDigits 10 m = Nat.toDigits 10 n := by
    simpa only [Nat.toString_eq_repr, Nat.toList_repr] using congrArg String.toList h
  calc
    m = Nat.ofDigitChars 10 (Nat.toDigits 10 m) 0 := Nat.ofDigitChars_ten_toDigits.symm
    _ = Nat.ofDigitChars 10 (Nat.toDigits 10 n) 0 := by rw [hdigits]
    _ = n := Nat.ofDigitChars_ten_toDigits

def argumentName (position : Nat) : String := "arg" ++ toString position

theorem argumentName_injective : Function.Injective argumentName := by
  intro m n h
  exact toString_injective ((String.append_right_inj "arg").mp h)

section Keys

variable {standIn : Nat → String} {names : List Json.Value} {v w : Json.Value} {i j : Nat}

theorem mem_ownNames {s : String} :
    s ∈ ownNames names ↔ ∃ v ∈ names, v.isVacant = false ∧ v.display = s := by
  simp [ownNames, and_assoc]

theorem nodup_ownNames_iff : (ownNames names).Nodup ↔ names.Pairwise fun v w ↦
    v.isVacant = false → w.isVacant = false → v.display ≠ w.display := by
  rw [ownNames, List.Nodup, List.pairwise_map, List.pairwise_filter]
  simp only [Bool.not_eq_true']

theorem keyAt_of_isVacant (h : v.isVacant = true) : keyAt standIn i v = standIn i := by
  rw [keyAt, if_pos h]

theorem keyAt_of_not_isVacant (h : v.isVacant = false) : keyAt standIn i v = v.display := by
  rw [keyAt, if_neg (by simp [h])]

/-- What stands for a position is the key of no other one, unless that has it for a name. -/
theorem keyAt_eq_iff (hstandIn : Function.Injective standIn) (hv : v.isVacant = true)
    (hne : j ≠ i) :
    keyAt standIn j w = keyAt standIn i v ↔ w.isVacant = false ∧ w.display = standIn i := by
  rw [keyAt_of_isVacant hv]
  cases hw : w.isVacant with
  | true =>
      rw [keyAt_of_isVacant hw]
      simp [hstandIn.eq_iff, hne]
  | false =>
      rw [keyAt_of_not_isVacant hw]
      simp

/-- The number of a vacant position is no name, if the keys differ. -/
theorem notMem_ownNames_of_nodup (hstandIn : Function.Injective standIn)
    (hkeys : (names.mapIdx (keyAt standIn)).Nodup) (hi : names[i]? = some v)
    (hv : v.isVacant = true) : standIn i ∉ ownNames names := by
  intro hmem
  obtain ⟨w, hw, hproper, hshown⟩ := mem_ownNames.mp hmem
  obtain ⟨j, hj⟩ := List.mem_iff_getElem?.mp hw
  have hne : j ≠ i := by
    rintro rfl
    obtain rfl := Option.some.inj (hi.symm.trans hj)
    simp [hproper] at hv
  have hsame := (keyAt_eq_iff hstandIn hv hne).mpr ⟨hproper, hshown⟩
  have hlength : j < (names.mapIdx (keyAt standIn)).length := by
    rw [List.length_mapIdx]
    exact (List.getElem?_eq_some_iff.mp hj).1
  refine hne ((List.getElem?_inj hlength hkeys).mp ?_)
  rw [List.getElem?_mapIdx, List.getElem?_mapIdx, hi, hj, Option.map_some, Option.map_some, hsame]

/-- Where the names differ, so do the keys, unless one stands for a position and is a name. -/
theorem nodup_keys_iff (hstandIn : Function.Injective standIn) (hown : (ownNames names).Nodup) :
    (names.mapIdx (keyAt standIn)).Nodup ↔
      ∀ i v, names[i]? = some v → v.isVacant = true → standIn i ∉ ownNames names := by
  refine ⟨fun hkeys i v hi hv ↦ notMem_ownNames_of_nodup hstandIn hkeys hi hv, fun hclear ↦ ?_⟩
  rw [nodup_ownNames_iff, List.pairwise_iff_getElem] at hown
  refine List.pairwise_iff_getElem.mpr fun i j hi hj hlt hsame ↦ ?_
  rw [List.getElem_mapIdx, List.getElem_mapIdx] at hsame
  rw [List.length_mapIdx] at hi hj
  cases hv : names[i].isVacant with
  | true =>
      obtain ⟨hproper, hshown⟩ := (keyAt_eq_iff hstandIn hv hlt.ne').mp hsame.symm
      exact hclear i _ (List.getElem?_eq_getElem hi) hv
        (mem_ownNames.mpr ⟨_, List.getElem_mem hj, hproper, hshown⟩)
  | false =>
      cases hw : names[j].isVacant with
      | true =>
          obtain ⟨hproper, hshown⟩ := (keyAt_eq_iff hstandIn hw hlt.ne).mp hsame
          exact hclear j _ (List.getElem?_eq_getElem hj) hw
            (mem_ownNames.mpr ⟨_, List.getElem_mem hi, hproper, hshown⟩)
      | false =>
          rw [keyAt_of_not_isVacant hv, keyAt_of_not_isVacant hw] at hsame
          exact hown i j hi hj hlt hv hw hsame

end Keys

/-! ## Names of parameters -/

theorem shownName_eq_keyAt (i : Nat) (p : Parameter) :
    shownName i p = keyAt argumentName i p.name := rfl

theorem keys_inputSlots (ps : List Parameter) :
    (inputSlots 0 ps).map (·.key) = ps.mapIdx shownName := by
  rw [List.mapIdx_eq_zipIdx_map, inputSlots, List.map_map]
  rfl

theorem mapIdx_shownName (ps : List Parameter) :
    ps.mapIdx shownName = (ps.map (·.name)).mapIdx (keyAt argumentName) := by
  refine List.ext_getElem? fun i ↦ ?_
  rw [List.getElem?_mapIdx, List.getElem?_mapIdx, List.getElem?_map, Option.map_map]
  rfl

/-- A parameter without a name is called after its position. No other parameter is shown by that
name, unless it has it for its own; so parameters with different names are shown by different
names exactly when none has the name that one without a name is given. -/
theorem inputsText_names_parameters {ps : List Parameter} {s : String}
    (h : inputsText ps = .ok s) :
    ∃ fields : List Field, s = ", ".intercalate (fields.map Field.text) ∧
      fields.map (·.key) = ps.mapIdx shownName ∧
      (∀ i p, ps[i]? = some p → p.name.isVacant = true → shownName i p = argumentName i ∧
        ∀ j q, ps[j]? = some q → j ≠ i → (shownName j q = shownName i p ↔
          q.name.isVacant = false ∧ q.name.display = argumentName i)) ∧
      ((ownNames (ps.map (·.name))).Nodup → ((ps.mapIdx shownName).Nodup ↔
        ∀ i p, ps[i]? = some p → p.name.isVacant = true →
          argumentName i ∉ ownNames (ps.map (·.name)))) := by
  obtain ⟨fields, hfields, rfl⟩ := inputsText_eq_ok_iff.mp h
  refine ⟨fields, rfl, (keys_eq_of_written hfields).trans (keys_inputSlots ps), ?_, fun hown ↦ ?_⟩
  · intro i p _ hvacant
    simp only [shownName_eq_keyAt]
    exact ⟨keyAt_of_isVacant hvacant, fun j q _ hne ↦
      keyAt_eq_iff argumentName_injective hvacant hne⟩
  · rw [mapIdx_shownName, nodup_keys_iff argumentName_injective hown]
    constructor
    · intro hclear i p hi hvacant
      exact hclear i p.name (by rw [List.getElem?_map, hi, Option.map_some]) hvacant
    · intro hclear i v hi hvacant
      obtain ⟨p, hp, rfl⟩ := Option.map_eq_some_iff.mp (List.getElem?_map.symm.trans hi)
      exact hclear i p hp hvacant

/-- The second parameter is called after its position, as the first one is called already. -/
def namesakeInputs : List Parameter := [⟨.text "arg1", .address⟩, ⟨.text "", .bool⟩]

/-- Different names of their own do not keep parameters from being shown by one name. -/
theorem inputsText_shows_name_twice :
    inputsText namesakeInputs = .ok "arg1: string, arg1: boolean" ∧
      (ownNames (namesakeInputs.map (·.name))).Nodup ∧
      namesakeInputs.mapIdx shownName = ["arg1", "arg1"] ∧
      ¬ (namesakeInputs.mapIdx shownName).Nodup :=
  ⟨rfl, by decide, by decide, by decide⟩

/-- The last parameter is called as the first one would be if it had no name. -/
def approvalInputs : List Parameter :=
  [⟨.text "spender", .address⟩, ⟨.text "", .uint 256⟩, ⟨.text "arg0", .bool⟩]

theorem inputsText_names_parameters_approval :
    inputsText approvalInputs = .ok "spender: string, arg1: number | string, arg0: boolean" ∧
      (ownNames (approvalInputs.map (·.name))).Nodup ∧
      approvalInputs.mapIdx shownName = ["spender", "arg1", "arg0"] ∧
      (approvalInputs.mapIdx shownName).Nodup := by
  have htext : inputsText approvalInputs =
      .ok "spender: string, arg1: number | string, arg0: boolean" := rfl
  have hown : (ownNames (approvalInputs.map (·.name))).Nodup := by decide
  obtain ⟨_, _, _, _, hnodup⟩ := inputsText_names_parameters htext
  refine ⟨htext, hown, by decide, (hnodup hown).mpr fun i p hi hvacant ↦ ?_⟩
  rcases i with _ | _ | _ | i
  · obtain rfl := Option.some.inj hi
    cases hvacant
  · decide
  · obtain rfl := Option.some.inj hi
    cases hvacant
  · cases hi

/-! ## Records of outputs -/

/-- No name comes twice, and none is the number of a position. -/
structure AreClear (names : List Json.Value) : Prop where
  nodup : (ownNames names).Nodup
  noNumber : ∀ i < names.length, toString i ∉ ownNames names

/-- The fields are those of the named outputs under their names, in order, and then those of all
outputs under their positions; an output has the same type in both places. -/
structure IsRecordOf (outputs : List Parameter) (fields : List Field) : Prop where
  keys : fields.map (·.key) =
    ownNames (outputs.map (·.name)) ++ (List.range outputs.length).map toString
  types : ∀ i p, outputs[i]? = some p → ∃ type, outputType p.type = .ok type ∧
    fields[(ownNames (outputs.map (·.name))).length + i]? = some ⟨toString i, type⟩ ∧
    (p.name.isVacant = false →
      fields[(ownNames ((outputs.take i).map (·.name))).length]? = some ⟨p.name.display, type⟩)

theorem keys_namedSlots (ps : List Parameter) :
    (namedSlots ps).map (·.key) = ownNames (ps.map (·.name)) := by
  rw [ownNames, List.filter_map, List.map_map, namedSlots, List.map_map]
  rfl

theorem keys_positionSlots (ps : List Parameter) :
    (positionSlots 0 ps).map (·.key) = (List.range ps.length).map toString := by
  rw [List.range_eq_range', ← List.zipIdx_map_snd, List.map_map, positionSlots, List.map_map]
  rfl

theorem length_namedSlots (ps : List Parameter) :
    (namedSlots ps).length = (ownNames (ps.map (·.name))).length := by
  rw [← keys_namedSlots, List.length_map]

theorem getElem?_namedSlots {ps : List Parameter} {i : Nat} {p : Parameter}
    (hi : ps[i]? = some p) (hp : p.name.isVacant = false) :
    (namedSlots ps)[(ownNames ((ps.take i).map (·.name))).length]? =
      some ⟨p.name.display, p.type⟩ := by
  obtain ⟨hlt, rfl⟩ := List.getElem?_eq_some_iff.mp hi
  have happend (a b : List Parameter) : namedSlots (a ++ b) = namedSlots a ++ namedSlots b := by
    simp [namedSlots]
  rw [← length_namedSlots]
  nth_rewrite 1 [← List.take_append_drop i ps]
  rw [happend, List.getElem?_append_right le_rfl, Nat.sub_self, List.drop_eq_getElem_cons hlt,
    namedSlots, List.filter_cons_of_pos (by simp [hp])]
  rfl

theorem getElem?_positionSlots {ps : List Parameter} {i : Nat} {p : Parameter}
    (hi : ps[i]? = some p) : (positionSlots 0 ps)[i]? = some ⟨toString i, p.type⟩ := by
  rw [positionSlots, List.getElem?_map, List.getElem?_zipIdx, hi, Option.map_some, Option.map_some,
    Nat.zero_add]

theorem isRecordOf_of_written {outputs : List Parameter} {fields : List Field}
    (h : List.Forall₂ (Slot.IsWrittenAs .output) (namedSlots outputs ++ positionSlots 0 outputs)
      fields) : IsRecordOf outputs fields where
  keys := by
    rw [keys_eq_of_written h, List.map_append, keys_namedSlots, keys_positionSlots]
  types i p hi := by
    have hposition : (namedSlots outputs ++ positionSlots 0 outputs)[
        (ownNames (outputs.map (·.name))).length + i]? = some ⟨toString i, p.type⟩ := by
      rw [← length_namedSlots, List.getElem?_append_right (Nat.le_add_right _ _),
        Nat.add_sub_cancel_left, getElem?_positionSlots hi]
    obtain ⟨type, htype, hfield⟩ := exists_field_of_written h hposition
    refine ⟨type, outputType_eq_ok_iff.mpr htype, hfield, fun hproper ↦ ?_⟩
    have hnamed := getElem?_namedSlots hi hproper
    obtain ⟨type', htype', hfield'⟩ := exists_field_of_written h
      ((List.getElem?_append_left (List.getElem?_eq_some_iff.mp hnamed).1).trans hnamed)
    obtain rfl := Except.ok.inj (htype.symm.trans htype')
    exact hfield'

theorem AreClear.nodup_outputKeys {names : List Json.Value} (h : AreClear names) :
    (ownNames names ++ (List.range names.length).map toString).Nodup := by
  refine List.nodup_append.mpr ⟨h.nodup, List.nodup_range.map toString_injective, ?_⟩
  rintro s hs _ hnumber rfl
  obtain ⟨i, hi, rfl⟩ := List.mem_map.mp hnumber
  exact h.noNumber i (List.mem_range.mp hi) hs

theorem AreClear.nodup_componentKeys {names : List Json.Value} (h : AreClear names) :
    (names.mapIdx (keyAt toString)).Nodup :=
  (nodup_keys_iff toString_injective h.nodup).mpr fun i _ hi _ ↦
    h.noNumber i (List.getElem?_eq_some_iff.mp hi).1

/-! ## Records of components -/

theorem display_componentName (i : Nat) (item : Json.Value) :
    (Abi.componentName i item).display = keyAt toString i (Abi.fieldD "name" item) := by
  cases h : (Abi.fieldD "name" item).isVacant with
  | true => rw [Abi.componentName, Json.Value.orElse_of_isVacant h, keyAt_of_isVacant h]; rfl
  | false => rw [Abi.componentName, Json.Value.orElse_of_not_isVacant h, keyAt_of_not_isVacant h]

theorem keys_componentSlots {items : List Json.Value} {types : List EvmType}
    (hlength : items.length = types.length) :
    (componentSlots (Abi.componentsOf items types)).map (·.key) =
      (items.map (Abi.fieldD "name")).mapIdx (keyAt toString) := by
  have hnames : (Abi.componentsOf items types).map Prod.fst = items.mapIdx Abi.componentName :=
    List.map_fst_zip (by rw [List.length_mapIdx, hlength])
  have hkeys : (componentSlots (Abi.componentsOf items types)).map (·.key) =
      ((Abi.componentsOf items types).map Prod.fst).map (·.display) := by
    rw [componentSlots, List.map_map, List.map_map]
    rfl
  rw [hkeys, hnames]
  refine List.ext_getElem? fun i ↦ ?_
  rw [List.getElem?_map, List.getElem?_mapIdx, List.getElem?_mapIdx, List.getElem?_map,
    Option.map_map, Option.map_map]
  exact Option.map_congr fun item _ ↦ display_componentName i item

end TypeScript

namespace EvmType

/-- The type under all arrays. -/
def withoutArrays : EvmType → EvmType
  | array item _ => item.withoutArrays
  | t => t
termination_by structural t => t

@[simp] theorem withoutArrays_array (item : EvmType) (size : Option Int) :
    (array item size).withoutArrays = item.withoutArrays := rfl

def isTuple : EvmType → Bool
  | tuple _ => true
  | _ => false

theorem exists_of_isTuple {t : EvmType} (h : t.isTuple = true) :
    ∃ components, t = tuple components := by
  cases t with
  | tuple components => exact ⟨components, rfl⟩
  | _ => cases h

theorem withoutArrays_arraysOf (t : EvmType) (sizes : List (Option Int)) :
    (TypeString.arraysOf t sizes).withoutArrays = t.withoutArrays := by
  induction sizes generalizing t with
  | nil => rfl
  | cons size sizes ih => exact ih (array t size)

theorem isValue_withoutArrays {t : EvmType} (h : t.IsValue) : t.withoutArrays.IsValue := by
  induction t using treeInduction with
  | leaf t hleaf => cases t <;> first | exact h | simp at hleaf
  | array item size ih => exact ih (isValue_array.mp h)
  | tuple components ih => exact h

end EvmType

namespace TypeScript

/-- A tuple that is read has the components that were given with its type string. -/
theorem components_of_typeOfString {source : String} {given : Option Components} {t : EvmType}
    {components : Components} (h : Abi.typeOfString source given = .ok t)
    (htuple : t.withoutArrays = .tuple components) : given = some components := by
  obtain ⟨_, _, _, base, sizes, _, _, hname, _, rfl⟩ :=
    TypeString.derives_of_read (mapError_eq_ok_iff.mp h)
  rw [EvmType.withoutArrays_arraysOf] at htuple
  cases hname with
  | tuple hgiven => exact hgiven.trans (congrArg some (EvmType.tuple.inj htuple))
  | _ => cases htuple

theorem components_of_parameterType {v : Json.Value} {items : List Json.Value} {t : EvmType}
    {components : Components} (hitems : Abi.field? "components" v = some (.list items))
    (h : Abi.parameterType v = .ok t) (htuple : t.withoutArrays = .tuple components) :
    ∃ types : List EvmType, items.length = types.length ∧
      components = Abi.componentsOf items types := by
  obtain ⟨source, given, _, hgiven, htype⟩ := Abi.parameterType_eq_ok_iff.mp h
  obtain rfl := components_of_typeOfString htype htuple
  rcases Abi.parameterComponents_eq_ok_iff.mp hgiven with
    ⟨hnone, _⟩ | ⟨c, hc, hvacant, hempty⟩ | ⟨found, types, hfound, _, htypes, hlisted⟩
  · cases hitems.symm.trans hnone
  · obtain rfl := Option.some.inj (hitems.symm.trans hc)
    obtain rfl := List.isEmpty_iff.mp hvacant
    exact ⟨[], rfl, Option.some.inj hempty⟩
  · obtain rfl := Json.Value.list.inj (Option.some.inj (hitems.symm.trans hfound))
    exact ⟨types, htypes.length_eq, Option.some.inj hlisted⟩

/-- Outputs, and the fields of an event, make a record with each value under its position, and
under its name too if it has one; components make a record with each under its name or, for want
of one, its position. No key comes twice, if no name does and none is the number of a position. -/
theorem records_have_clear_keys :
    (∀ (outputs : List Parameter) (s : String), outputs.length ≠ 1 → outputsText outputs = .ok s →
      ∃ fields : List Field, s = recordText (fields.map Field.text) ∧ IsRecordOf outputs fields ∧
        (AreClear (outputs.map (·.name)) → (fields.map (·.key)).Nodup)) ∧
    ∀ (v : Json.Value) (items : List Json.Value) (t : EvmType) (components : Components),
      Abi.field? "components" v = some (.list items) → Abi.parameterType v = .ok t →
        t.withoutArrays = .tuple components → ∀ d, ∃ fields : List Field,
          typeText d (.tuple components) = .ok (recordText (fields.map Field.text)) ∧
            fields.map (·.key) = (items.map (Abi.fieldD "name")).mapIdx (keyAt toString) ∧
            (AreClear (items.map (Abi.fieldD "name")) → (fields.map (·.key)).Nodup) := by
  constructor
  · intro outputs s hlength h
    obtain ⟨fields, hfields, rfl⟩ := (outputsText_eq_ok_iff hlength).mp h
    have hrecord := isRecordOf_of_written hfields
    refine ⟨fields, rfl, hrecord, fun hclear ↦ ?_⟩
    have hkeys := hclear.nodup_outputKeys
    rwa [List.length_map, ← hrecord.keys] at hkeys
  · intro v items t components hitems h htuple d
    have hvalue : (EvmType.tuple components).IsValue :=
      htuple ▸ EvmType.isValue_withoutArrays (Abi.isValue_of_parameterType h)
    obtain ⟨s, hs⟩ := exists_typeText_of_isValue d hvalue
    obtain ⟨fields, hfields, rfl⟩ := typeText_tuple_eq_ok_iff.mp hs
    obtain ⟨types, hlength, rfl⟩ := components_of_parameterType hitems h htuple
    have hkeys := (keys_eq_of_written hfields).trans (keys_componentSlots hlength)
    exact ⟨fields, hs, hkeys, fun hclear ↦ hkeys ▸ hclear.nodup_componentKeys⟩

def ledgerOutputs : List Parameter :=
  [⟨.text "owner", .address⟩, ⟨.text "", .uint 256⟩, ⟨.text "frozen", .bool⟩]

def ledgerItems : List Json.Value :=
  [.object [("type", .text "bool")], .object [("name", .text "tag"), ("type", .text "bytes4")]]

def ledgerParameter : Json.Value :=
  .object [("type", .text "tuple[2]"), ("components", .list ledgerItems)]

/-- One output and one component have no name, and the components stand under an array. -/
theorem records_have_clear_keys_ledger :
    (∃ fields : List Field,
      outputsText ledgerOutputs = .ok (recordText (fields.map Field.text)) ∧
        IsRecordOf ledgerOutputs fields ∧ AreClear (ledgerOutputs.map (·.name)) ∧
        (fields.map (·.key)).Nodup) ∧
      ∃ t components, Abi.parameterType ledgerParameter = .ok t ∧
        t.withoutArrays = .tuple components ∧ AreClear (ledgerItems.map (Abi.fieldD "name")) ∧
        ∃ fields : List Field,
          typeText .input (.tuple components) = .ok (recordText (fields.map Field.text)) ∧
            fields.map (·.key) = ["0", "tag"] ∧ (fields.map (·.key)).Nodup := by
  obtain ⟨houtputs, hcomponents⟩ := records_have_clear_keys
  have htext : outputsText ledgerOutputs =
      .ok "\x7b owner: string, frozen: boolean, 0: string, 1: BN, 2: boolean \x7d" := rfl
  have hclear : AreClear (ledgerOutputs.map (·.name)) := ⟨by decide, by decide⟩
  have hclearItems : AreClear (ledgerItems.map (Abi.fieldD "name")) := ⟨by decide, by decide⟩
  have hread : (Abi.parameterType ledgerParameter).toOption.map (·.withoutArrays.isTuple) =
      some true := by decide +kernel
  obtain ⟨fields, hfields, hrecord, hnodup⟩ := houtputs ledgerOutputs _ (by decide) htext
  refine ⟨⟨fields, hfields ▸ htext, hrecord, hclear, hnodup hclear⟩, ?_⟩
  obtain ⟨t, htype, histuple⟩ := Option.map_eq_some_iff.mp hread
  have htype := toOption_eq_some_iff.mp htype
  obtain ⟨components, htuple⟩ := EvmType.exists_of_isTuple histuple
  obtain ⟨fields, htext, hkeys, hnodup⟩ :=
    hcomponents ledgerParameter ledgerItems t components rfl htype htuple .input
  exact ⟨t, components, htype, htuple, hclearItems, fields, htext, hkeys.trans (by decide),
    hnodup hclearItems⟩

end TypeScript

end AbiTypings
