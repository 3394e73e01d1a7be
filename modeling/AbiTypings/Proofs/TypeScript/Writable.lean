import AbiTypings.TypeScript.Document
import AbiTypings.Proofs.Abi.Partition
import AbiTypings.Proofs.Types.Reading
import AbiTypings.Proofs.TypeScript.Fields

/-!
# Contracts that are read can be written

The types of a contract that is read are types of values, but for the void result of a method
that gives nothing back. A type of values has a text in both directions and void has one as an
output, so the document of the contract exists.
-/

namespace AbiTypings

open Outcome

/-! ## Well-typed contracts -/

/-- Void is the type of the only output or of nothing. -/
structure Method.IsWellTyped (m : Method) : Prop where
  inputs : ∀ p ∈ m.inputs, p.type.IsValue
  outputs : (∃ p, m.outputs = [p] ∧ p.type = .void) ∨ ∀ p ∈ m.outputs, p.type.IsValue

structure Contract.IsWellTyped (c : Contract) : Prop where
  methods : ∀ m ∈ c.methods, m.IsWellTyped
  readOnlyMethods : ∀ m ∈ c.readOnlyMethods, m.IsWellTyped
  constants : ∀ k ∈ c.constants, k.output.IsValue
  events : ∀ e ∈ c.events, ∀ f ∈ e.fields, f.type.IsValue

/-- The types that stand in the declarations of a contract. -/
def Contract.types (c : Contract) : List EvmType :=
  (c.methods ++ c.readOnlyMethods).flatMap (fun m ↦ (m.inputs ++ m.outputs).map (·.type)) ++
    c.constants.map (·.output) ++ c.events.flatMap (fun e ↦ e.fields.map (·.type))

theorem Method.IsWellTyped.noForeign {m : Method} (h : m.IsWellTyped) {p : Parameter}
    (hp : p ∈ m.inputs ++ m.outputs) {n : EvmType} (hn : n ∈ p.type.subtrees)
    (node : ForeignNode) : n ≠ .foreign node := by
  rcases List.mem_append.mp hp with hp | hp
  · exact (h.inputs p hp n hn).2 node
  · rcases h.outputs with ⟨q, houtputs, hvoid⟩ | houtputs
    · rw [houtputs, List.mem_singleton] at hp
      subst hp
      rw [hvoid, EvmType.subtrees_of_isLeaf (by simp [EvmType.IsLeaf]), List.mem_singleton] at hn
      simp [hn]
    · exact (houtputs p hp n hn).2 node

theorem Contract.IsWellTyped.noForeign {c : Contract} (h : c.IsWellTyped) {t : EvmType}
    (ht : t ∈ c.types) {n : EvmType} (hn : n ∈ t.subtrees) (node : ForeignNode) :
    n ≠ .foreign node := by
  simp only [Contract.types, List.mem_append, List.mem_flatMap, List.mem_map] at ht
  rcases ht with (⟨m, hm, p, hp, rfl⟩ | ⟨k, hk, rfl⟩) | ⟨e, he, f, hf, rfl⟩
  · have hwell : m.IsWellTyped := hm.elim (h.methods m) (h.readOnlyMethods m)
    exact hwell.noForeign (List.mem_append.mpr hp) hn node
  · exact (h.constants k hk n hn).2 node
  · exact (h.events e he f hf n hn).2 node

namespace Abi

open Json

theorem isWellTyped_of_readMethod {e : Value} {m : Method} (h : readMethod e = .ok m) :
    m.IsWellTyped := by
  obtain ⟨outputItems, _, hrest⟩ := bind_eq_ok_iff.mp h
  obtain ⟨outputs, houtputs, hrest⟩ := bind_eq_ok_iff.mp hrest
  obtain ⟨inputItems, _, hrest⟩ := bind_eq_ok_iff.mp hrest
  obtain ⟨inputs, hinputs, hmethod⟩ := bind_eq_ok_iff.mp hrest
  cases hmethod
  refine ⟨isValue_of_mapM_parameter hinputs, ?_⟩
  dsimp only
  split_ifs
  · exact Or.inl ⟨_, rfl, rfl⟩
  · exact Or.inr (isValue_of_mapM_parameter houtputs)

theorem isWellTyped_of_sorts {abi : List Value} {c : Contract} (h : Sorts abi c) :
    c.IsWellTyped where
  methods m hm := by
    obtain ⟨e, _, he⟩ := exists_mem_of_forall₂ h.methods hm
    exact isWellTyped_of_readMethod he
  readOnlyMethods m hm := by
    obtain ⟨e, _, he⟩ := exists_mem_of_forall₂ h.readOnlyMethods hm
    exact isWellTyped_of_readMethod he
  constants k hk := by
    obtain ⟨e, _, _, output, _, htype⟩ := exists_mem_of_forall₂ h.constants hk
    exact isValue_of_parameterType htype
  events ev hev := by
    obtain ⟨e, _, _, objects, _, hfields⟩ := exists_mem_of_forall₂ h.events hev
    exact isValue_of_mapM_eventField hfields

end Abi

namespace TypeScript

/-! ## Types -/

theorem exists_componentTexts {d : Direction} {components : Components}
    (h : ∀ c ∈ components, ∃ s, typeText d c.2 = .ok s) :
    ∃ fields, componentTexts d components = .ok fields :=
  (writes_componentTexts d components).exists_eq_ok (List.forall_mem_map.mpr h)

theorem exists_typeText {d : Direction} {t : EvmType}
    (h : ∀ n ∈ t.subtrees, n.IsLeaf → ∃ s, leaf? d n = some s) : ∃ s, typeText d t = .ok s := by
  induction t using EvmType.treeInduction with
  | leaf t hleaf =>
      obtain ⟨s, hs⟩ := h t (by simp [EvmType.subtrees_of_isLeaf hleaf]) hleaf
      exact ⟨s, by cases t <;> simp_all [typeText]⟩
  | array item size ih =>
      exact exists_map_eq_ok (ih fun n hn ↦ h n (List.mem_cons_of_mem _ hn))
  | tuple components ih =>
      have htexts := exists_componentTexts fun c hc ↦ ih c hc fun n hn ↦
        h n (by simp only [EvmType.subtrees_tuple, List.mem_cons, List.mem_flatMap]; grind)
      exact exists_map_eq_ok htexts

theorem exists_leaf?_input {n : EvmType} (hleaf : n.IsLeaf) (hvoid : n ≠ .void)
    (hforeign : ∀ node, n ≠ .foreign node) : ∃ s, leaf? .input n = some s := by
  cases n <;> simp_all [leaf?, inputLeaf?]

theorem exists_leaf?_output {n : EvmType} (hleaf : n.IsLeaf)
    (hforeign : ∀ node, n ≠ .foreign node) : ∃ s, leaf? .output n = some s := by
  cases n <;> simp_all [leaf?, outputLeaf?]

theorem exists_typeText_of_isValue (d : Direction) {t : EvmType} (h : t.IsValue) :
    ∃ s, typeText d t = .ok s := by
  refine exists_typeText fun n hn hleaf ↦ ?_
  cases d with
  | input => exact exists_leaf?_input hleaf (h n hn).1 (h n hn).2
  | output => exact exists_leaf?_output hleaf (h n hn).2

theorem exists_inputType {t : EvmType} (h : t.IsValue) : ∃ s, inputType t = .ok s := by
  obtain ⟨s, hs⟩ := exists_typeText_of_isValue .input h
  exact ⟨s, inputType_eq_ok_iff.mpr hs⟩

theorem exists_outputType_of_isClosed {t : EvmType} (h : t.IsClosed) :
    ∃ s, outputType t = .ok s := by
  obtain ⟨s, hs⟩ := exists_typeText fun n hn hleaf ↦ exists_leaf?_output hleaf (h n hn)
  exact ⟨s, outputType_eq_ok_iff.mpr hs⟩

theorem exists_outputType {t : EvmType} (h : t.IsValue) : ∃ s, outputType t = .ok s :=
  exists_outputType_of_isClosed fun n hn ↦ (h n hn).2

/-! ## Members -/

section Members

variable {ps : List Parameter}

theorem exists_inputFields (position : Nat) (h : ∀ p ∈ ps, p.type.IsValue) :
    ∃ fields, inputFields position ps = .ok fields :=
  (writes_inputFields position ps).exists_eq_ok <| List.forall_mem_map.mpr fun x hx ↦
    exists_typeText_of_isValue .input (h x.1 (List.fst_mem_of_mem_zipIdx hx))

theorem exists_outputsText (h : ∀ p ∈ ps, p.type.IsValue) : ∃ s, outputsText ps = .ok s := by
  by_cases hlength : ps.length = 1
  · obtain ⟨p, rfl⟩ := List.length_eq_one_iff.mp hlength
    exact exists_outputType (h p List.mem_cons_self)
  · rw [outputsText_eq hlength]
    refine exists_map_eq_ok (((writes_namedFields ps).append
      (writes_positionFields 0 ps)).exists_eq_ok ?_)
    have hnamed : ∀ slot ∈ namedSlots ps, ∃ s, typeText .output slot.type = .ok s :=
      List.forall_mem_map.mpr fun p hp ↦
        exists_typeText_of_isValue .output (h p (List.mem_of_mem_filter hp))
    have hposition : ∀ slot ∈ positionSlots 0 ps, ∃ s, typeText .output slot.type = .ok s :=
      List.forall_mem_map.mpr fun x hx ↦
        exists_typeText_of_isValue .output (h x.1 (List.fst_mem_of_mem_zipIdx hx))
    exact List.forall_mem_append.mpr ⟨hnamed, hposition⟩

theorem exists_methodLine {m : Method} (h : m.IsWellTyped) : ∃ line, methodLine m = .ok line := by
  have hinputs : ∃ s, inputsText m.inputs = .ok s :=
    exists_map_eq_ok (exists_inputFields 0 h.inputs)
  have houtputs : ∃ s, outputsText m.outputs = .ok s := by
    rcases h.outputs with ⟨p, houtputs, hvoid⟩ | hvalues
    · exact ⟨"void", by rw [houtputs, outputsText, outputType, hvoid]; rfl⟩
    · exact exists_outputsText hvalues
  exact exists_bind_eq_ok hinputs fun inputs ↦ exists_bind_eq_ok houtputs fun outputs ↦
    ⟨memberLine m.name.display inputs outputs, rfl⟩

theorem exists_constantLine {k : Constant} (h : k.output.IsValue) :
    ∃ line, constantLine k = .ok line :=
  exists_map_eq_ok (exists_outputType h)

theorem exists_eventLine {e : Event} (h : ∀ f ∈ e.fields, f.type.IsValue) :
    ∃ line, eventLine e = .ok line := by
  have hparameters : ∀ p ∈ e.parameters, p.type.IsValue := by
    intro p hp
    obtain ⟨f, hf, rfl⟩ := List.mem_map.mp hp
    exact h f hf
  exact exists_bind_eq_ok (exists_outputsText hparameters) fun payload ↦ ⟨_, rfl⟩

end Members

/-! ## Documents -/

theorem exists_lineEach {α : Type} {f : α → Except Unrecognized String} {xs : List α}
    (h : ∀ x ∈ xs, ∃ line, f x = .ok line) : ∃ lines, lineEach f xs = .ok lines := by
  induction xs with
  | nil => exact ⟨[], rfl⟩
  | cons x rest ih =>
      obtain ⟨hx, hrest⟩ := List.forall_mem_cons.mp h
      exact exists_bind_eq_ok hx fun line ↦ exists_bind_eq_ok (ih hrest) fun lines ↦
        ⟨line :: lines, rfl⟩

theorem exists_contractDocument (unit : String) {c : Contract} (h : c.IsWellTyped) :
    ∃ text, contractDocument unit c = .ok text := by
  have hreadOnly := exists_lineEach fun m hm ↦ exists_methodLine (h.readOnlyMethods m hm)
  have hothers := exists_lineEach fun m hm ↦ exists_methodLine (h.methods m hm)
  have hconstants := exists_lineEach fun k hk ↦ exists_constantLine (h.constants k hk)
  have hevents := exists_lineEach fun e he ↦ exists_eventLine (h.events e he)
  have hmethods : ∃ lines, methodLines c = .ok lines :=
    exists_bind_eq_ok hreadOnly fun readOnly ↦ exists_bind_eq_ok hothers fun others ↦
      exists_bind_eq_ok hconstants fun constants ↦ ⟨readOnly ++ others ++ constants, rfl⟩
  have hlines : ∃ lines, contractLines unit c = .ok lines :=
    exists_bind_eq_ok hmethods fun methods ↦ exists_bind_eq_ok hevents fun events ↦
      ⟨documentLines unit c.name methods events, rfl⟩
  exact exists_map_eq_ok hlines

/-- A contract that is read, with or without a collector, is well typed. -/
theorem isWellTyped_of_collectContract {d : Collector} {file rawName : String}
    {abi : List Json.Value} {c : Contract}
    (h : (Abi.collectContract d file abi rawName).2 = .ok c) : c.IsWellTyped := by
  rw [Abi.collectContract_eq] at h
  exact Abi.isWellTyped_of_sorts (Abi.readContract_eq_ok (Prod.ext rfl h)).1

end TypeScript

end AbiTypings
