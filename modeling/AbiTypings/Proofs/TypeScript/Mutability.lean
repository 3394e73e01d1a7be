import Mathlib.Data.List.Perm.Basic
import AbiTypings.Proofs.TypeScript.Layout

/-!
# Mutability and the order of the methods

Two fields of an entry say whether a function only reads. They decide on the class of the entry,
and so on the place of its line among the methods, but on nothing else: not on the line, and not
on whether the entry can be read. ABIs that differ in those fields alone have the same document,
up to the order of the methods.
-/

namespace AbiTypings

open Json Outcome TypeScript

namespace Abi

/-! ## Entries that agree but for their mutability -/

def mutabilityKeys : List String := ["constant", "stateMutability"]

/-- One and the same value, or two objects with the same fields but for those that say whether a
function only reads. -/
def AgreeButMutability (e e' : Value) : Prop :=
  e = e' ∨ e.isObject = true ∧ e'.isObject = true ∧
    ∀ key, key ∉ mutabilityKeys → field? key e = field? key e'

theorem AgreeButMutability.symm {e e' : Value} (h : AgreeButMutability e e') :
    AgreeButMutability e' e := by
  rcases h with rfl | ⟨hobject, hobject', hfields⟩
  · exact Or.inl rfl
  · exact Or.inr ⟨hobject', hobject, fun key hkey ↦ (hfields key hkey).symm⟩

theorem get?_append_of_forall_ne {key : String} {fields marks : Fields}
    (h : ∀ f ∈ marks, f.1 ≠ key) : Fields.get? key (fields ++ marks) = Fields.get? key fields := by
  induction fields with
  | nil =>
      induction marks with
      | nil => rfl
      | cons mark rest ih =>
          obtain ⟨hmark, hrest⟩ := List.forall_mem_cons.mp h
          rw [List.nil_append, Fields.get?_cons, if_neg hmark]
          exact ih hrest
  | cons field rest ih => rw [List.cons_append, Fields.get?_cons, Fields.get?_cons, ih]

theorem agreeButMutability_append {fields marks : Fields}
    (h : ∀ f ∈ marks, f.1 ∈ mutabilityKeys) :
    AgreeButMutability (.object fields) (.object (fields ++ marks)) := by
  refine Or.inr ⟨rfl, rfl, fun key hkey ↦ (get?_append_of_forall_ne fun f hf heq ↦ ?_).symm⟩
  exact hkey (heq ▸ h f hf)

/-- The line of an item in the block of methods, if it has one there. -/
def Item.methodLine? : Item → Option (Except Unrecognized String)
  | constant k => some (constantLine k)
  | readOnlyMethod m => some (methodLine m)
  | method m => some (methodLine m)
  | _ => none

/-- The items leave the same line among the methods, or the same event. -/
def SameMember (a b : Item) : Prop := a.methodLine? = b.methodLine? ∧ a.event? = b.event?

/-- The item leaves the line of the method. -/
def LineOf (a : Item) (m : Method) : Prop := a.methodLine? = some (methodLine m) ∧ a.event? = none

/-! ## Reading one entry -/

theorem constantLine_eq_methodLine (name : Value) (p : Parameter) :
    constantLine ⟨name, p.type⟩ = methodLine ⟨name, [], [p]⟩ := by
  have hinputs : inputsText [] = .ok "" := rfl
  rw [constantLine, methodLine, hinputs, outputsText]
  cases outputType p.type <;> rfl

theorem readMethod_eq_ok_iff {e : Value} {m : Method} :
    readMethod e = .ok m ↔ ∃ outputItems outputs inputItems inputs,
      parameterList "outputs" e = .ok outputItems ∧ outputItems.mapM parameter = .ok outputs ∧
      parameterList "inputs" e = .ok inputItems ∧ inputItems.mapM parameter = .ok inputs ∧
      ⟨fieldD "name" e, inputs, if outputs.isEmpty then noOutput else outputs⟩ = m := by
  unfold readMethod
  simp only [bind_eq_ok_iff, pure, Except.pure, Except.ok.injEq]
  grind

theorem exists_readMethod_of_readReadOnly {e : Value} {item : Item}
    (h : readReadOnly e = .ok item) : ∃ m, readMethod e = .ok m ∧ LineOf item m := by
  obtain ⟨inputs, hinputs, hrest⟩ := bind_eq_ok_iff.mp h
  obtain ⟨outputs, houtputs, hbranch⟩ := bind_eq_ok_iff.mp hrest
  split at hbranch
  case h_1 output =>
    obtain ⟨t, ht, hitem⟩ := bind_eq_ok_iff.mp hbranch
    cases hitem
    have hparameter : [output].mapM parameter = .ok [⟨parameterName output, t⟩] := by
      rw [mapM_eq_ok_iff, List.forall₂_cons, parameter, ht]
      exact ⟨rfl, .nil⟩
    have hmethod := readMethod_eq_ok_iff.mpr ⟨_, _, _, _, houtputs, hparameter, hinputs, rfl, rfl⟩
    refine ⟨_, hmethod, ?_, rfl⟩
    exact congrArg some (constantLine_eq_methodLine _ ⟨parameterName output, t⟩)
  case h_2 =>
    obtain ⟨m, hm, hitem⟩ := bind_eq_ok_iff.mp hbranch
    cases hitem
    exact ⟨m, hm, rfl, rfl⟩

theorem exists_readReadOnly_of_readMethod {e : Value} {m : Method} (h : readMethod e = .ok m) :
    ∃ item, readReadOnly e = .ok item := by
  obtain ⟨outputItems, outputs, inputItems, inputs, houtputs, htypes, hinputs, _⟩ :=
    readMethod_eq_ok_iff.mp h
  simp only [readReadOnly, hinputs, houtputs, bind, Except.bind]
  split
  case h_1 output =>
    obtain ⟨p, _, hp, _⟩ := List.forall₂_cons_left_iff.mp (mapM_eq_ok_iff.mp htypes)
    obtain ⟨t, ht, _⟩ := map_eq_ok_iff.mp hp
    rw [ht]
    exact ⟨_, rfl⟩
  case h_2 =>
    rw [h]
    exact ⟨_, rfl⟩

theorem alike_readFunction (e : Value) : Alike LineOf (readFunction e) (readMethod e) := by
  unfold readFunction
  split_ifs
  · exact alike_of_ok (fun _ h ↦ exists_readMethod_of_readReadOnly h)
      fun _ h ↦ exists_readReadOnly_of_readMethod h
  · cases readMethod e with
    | ok m => exact ⟨rfl, rfl⟩
    | error p => trivial

/-! ## Two entries that agree -/

section Agree

variable {e e' : Value} (h : AgreeButMutability e e')

include h

theorem field?_eq_of_agree {key : String} (hkey : key ∉ mutabilityKeys) :
    field? key e = field? key e' := by
  rcases h with rfl | ⟨_, _, hfields⟩
  · rfl
  · exact hfields key hkey

theorem fieldD_eq_of_agree {key : String} (hkey : key ∉ mutabilityKeys) :
    fieldD key e = fieldD key e' := by
  rw [fieldD, fieldD, field?_eq_of_agree h hkey]

theorem readMethod_eq_of_agree : readMethod e = readMethod e' := by
  have hlist (key : String) (hkey : key ∉ mutabilityKeys) :
      parameterList key e = parameterList key e' := by
    rw [parameterList, parameterList, fieldD_eq_of_agree h hkey]
  rw [readMethod, readMethod, hlist "outputs" (by decide), hlist "inputs" (by decide),
    fieldD_eq_of_agree h (by decide : "name" ∉ mutabilityKeys)]

theorem readEvent_eq_of_agree : readEvent e = readEvent e' := by
  rw [readEvent, readEvent, parameterList, parameterList,
    fieldD_eq_of_agree h (by decide : "anonymous" ∉ mutabilityKeys),
    fieldD_eq_of_agree h (by decide : "name" ∉ mutabilityKeys),
    fieldD_eq_of_agree h (by decide : "inputs" ∉ mutabilityKeys)]

theorem alike_readNamed {kind : String} {read : Value → Except Problem Item}
    (hread : Alike SameMember (read e) (read e')) :
    Alike SameMember (readNamed kind read e) (readNamed kind read e') := by
  unfold readNamed
  rw [fieldD_eq_of_agree h (by decide : "name" ∉ mutabilityKeys)]
  split_ifs
  · trivial
  · exact hread

theorem alike_readEntry_of_agree : Alike SameMember (readEntry e) (readEntry e') := by
  have hsame (x : Except Problem Item) : Alike SameMember x x := Alike.refl (fun _ ↦ ⟨rfl, rfl⟩) x
  have hfunction : Alike SameMember (readFunction e) (readFunction e') := by
    have hcommon := alike_readFunction e'
    rw [← readMethod_eq_of_agree h] at hcommon
    exact (alike_readFunction e).of_common hcommon fun a a' m ha ha' ↦
      ⟨ha.1.trans ha'.1.symm, ha.2.trans ha'.2.symm⟩
  have hevent : Alike SameMember (readEvent e) (readEvent e') := by
    rw [readEvent_eq_of_agree h]
    exact hsame _
  have hkind : entryKind e = entryKind e' := by
    rw [entryKind, entryKind, field?_eq_of_agree h (by decide)]
  rcases h with rfl | ⟨hobject, hobject', hfields⟩
  · exact hsame _
  · have h : AgreeButMutability e e' := Or.inr ⟨hobject, hobject', hfields⟩
    rw [readEntry, readEntry, hobject, hobject', hkind]
    simp only [Bool.not_true, Bool.false_eq_true, if_false]
    split
    · exact alike_readNamed h hfunction
    · exact alike_readNamed h hevent
    · exact hsame _

end Agree

/-! ## Constants and methods -/

/-- A constant has the line of the method that the same entry would give. -/
theorem alike_readFunction_of_isSingleValued {e : Value} (hread : isReadOnly e = true)
    (hsingle : isSingleValued e = true) :
    Alike (fun item m ↦ ∃ k, item = .constant k ∧ constantLine k = methodLine m) (readFunction e)
      (readMethod e) := by
  refine (alike_readFunction e).imp fun item m hitem _ hline ↦ ?_
  rw [readFunction, if_pos hread] at hitem
  obtain ⟨inputs, hinputs, hrest⟩ := bind_eq_ok_iff.mp hitem
  obtain ⟨outputs, houtputs, hbranch⟩ := bind_eq_ok_iff.mp hrest
  obtain ⟨rfl, output, rfl⟩ := (isSingleValued_iff hinputs houtputs).mp hsingle
  obtain ⟨t, _, hconstant⟩ := bind_eq_ok_iff.mp hbranch
  cases hconstant
  exact ⟨_, rfl, Option.some.inj hline.1⟩

/-! ## Whole ABIs -/

theorem exists_items_of_agree {abi abi' : List Value} {items : List Item}
    (hagree : List.Forall₂ AgreeButMutability abi abi')
    (hread : List.Forall₂ (fun e item ↦ readEntry e = .ok item) abi items) :
    ∃ items', List.Forall₂ (fun e item ↦ readEntry e = .ok item) abi' items' ∧
      List.Forall₂ SameMember items items' := by
  induction hagree generalizing items with
  | nil =>
      cases hread
      exact ⟨[], .nil, .nil⟩
  | cons hhead _ ih =>
      obtain ⟨item, rest, hitem, hrest, rfl⟩ := List.forall₂_cons_left_iff.mp hread
      obtain ⟨item', hitem', hsame⟩ := (alike_readEntry_of_agree hhead).exists_ok hitem
      obtain ⟨rest', hrest', hsames⟩ := ih hrest
      exact ⟨item' :: rest', .cons hitem' hrest', .cons hsame hsames⟩

theorem readContract_eq_ok_iff {abi : List Value} {rawName : String} {c : Contract} :
    (readContract abi rawName).2 = .ok c ↔ ∃ name items, className rawName = .ok name ∧
      List.Forall₂ (fun e item ↦ readEntry e = .ok item) abi items ∧
        contractOf name items = c := by
  simp only [← readEntries_eq_none_iff]
  unfold readContract
  cases className rawName with
  | error p => simp
  | ok name =>
      cases readEntries abi with
      | mk items problem => cases problem <;> simp

theorem methodRenderings_contractOf_perm (name : String) (items : List Item) :
    (methodRenderings (contractOf name items)).Perm (items.filterMap Item.methodLine?) := by
  -- a new item puts its line in front of one of the three parts
  induction items with
  | nil => rfl
  | cons item rest ih =>
      cases item with
      | readOnlyMethod m => exact ih.cons _
      | method m =>
          refine List.Perm.trans ?_ (ih.cons (methodLine m))
          exact (List.perm_middle).append_right _
      | constant k => exact List.perm_middle.trans (ih.cons (constantLine k))
      | event e => exact ih
      | leftOut r => exact ih

/-- Contracts of one name with the same events, and methods with the same lines in some order. -/
structure SameButOrder (c c' : Contract) : Prop where
  name : c.name = c'.name
  methods : (methodRenderings c).Perm (methodRenderings c')
  events : eventRenderings c = eventRenderings c'

theorem sameButOrder_contractOf (name : String) {items items' : List Item}
    (h : List.Forall₂ SameMember items items') :
    SameButOrder (contractOf name items) (contractOf name items') where
  name := rfl
  methods := by
    have hlines := filterMap_eq_of_forall₂ h fun _ _ hsame ↦ hsame.1
    have hperm' := methodRenderings_contractOf_perm name items'
    exact (methodRenderings_contractOf_perm name items).trans (hlines ▸ hperm'.symm)
  events := by
    have hevents := filterMap_eq_of_forall₂ h fun _ _ hsame ↦ hsame.2
    exact congrArg (List.map eventLine) hevents

theorem exists_readContract_of_agree {abi abi' : List Value} {rawName : String} {c : Contract}
    (hagree : List.Forall₂ AgreeButMutability abi abi') (h : (readContract abi rawName).2 = .ok c) :
    ∃ c', (readContract abi' rawName).2 = .ok c' ∧ SameButOrder c c' := by
  obtain ⟨name, items, hname, hread, rfl⟩ := readContract_eq_ok_iff.mp h
  obtain ⟨items', hread', hsame⟩ := exists_items_of_agree hagree hread
  exact ⟨contractOf name items', readContract_eq_ok_iff.mpr ⟨name, items', hname, hread', rfl⟩,
    sameButOrder_contractOf name hsame⟩

theorem alike_readContract_of_agree {abi abi' : List Value}
    (hagree : List.Forall₂ AgreeButMutability abi abi') (rawName : String) :
    Alike SameButOrder (readContract abi rawName).2 (readContract abi' rawName).2 := by
  have hagree' : List.Forall₂ AgreeButMutability abi' abi :=
    hagree.flip.imp fun _ _ h ↦ AgreeButMutability.symm h
  refine alike_of_ok (fun c hc ↦ exists_readContract_of_agree hagree hc) fun c' hc' ↦ ?_
  obtain ⟨c, hc, _⟩ := exists_readContract_of_agree hagree' hc'
  exact ⟨c, hc⟩

end Abi

namespace TypeScript

open Abi

/-! ## Documents -/

def abiDocument (unit : String) (abi : List Value) (rawName : String) : Except Problem String := do
  let c ← (readContract abi rawName).2
  (contractDocument unit c).mapError .ofUnrecognized

theorem abiDocument_eq_ok_iff {unit rawName text : String} {abi : List Value} :
    abiDocument unit abi rawName = .ok text ↔
      ∃ c, (readContract abi rawName).2 = .ok c ∧ contractDocument unit c = .ok text := by
  simp only [abiDocument, bind_eq_ok_iff, mapError_eq_ok_iff]

theorem exists_contractDocument_of_readContract {abi : List Value} {rawName : String}
    {c : Contract} (h : (readContract abi rawName).2 = .ok c) (unit : String) :
    ∃ text, contractDocument unit c = .ok text :=
  exists_contractDocument unit (isWellTyped_of_sorts (readContract_eq_ok (Prod.ext rfl h)).1)

/-- Two documents whose lines are the same but for the order of those of the methods. -/
def SameButMethodOrder (unit text text' : String) (c c' : Contract) : Prop :=
  ∃ methods methods' events, c.name = c'.name ∧ methods.Perm methods' ∧
    HasRenderings unit c methods events text ∧ HasRenderings unit c' methods' events text'

theorem sameButMethodOrder_of_contracts {unit text text' : String} {c c' : Contract}
    (h : SameButOrder c c') (htext : contractDocument unit c = .ok text)
    (htext' : contractDocument unit c' = .ok text') : SameButMethodOrder unit text text' c c' := by
  obtain ⟨methods, events, hwritten⟩ := contractDocument_eq_ok_iff.mp htext
  obtain ⟨methods', events', hwritten'⟩ := contractDocument_eq_ok_iff.mp htext'
  have hmethods := h.methods
  have hevents := h.events
  rw [hwritten.hasMethods, hwritten'.hasMethods] at hmethods
  rw [hwritten.hasEvents, hwritten'.hasEvents, map_ok_inj] at hevents
  subst hevents
  have hok : Function.Injective (Except.ok : String → Except Unrecognized String) :=
    fun _ _ ↦ Except.ok.inj
  exact ⟨methods, methods', events, h.name, (List.map_perm_map_iff hok).mp hmethods,
    hwritten, hwritten'⟩

def ledgerAbi (marks : Fields) : List Value :=
  let amount : Value := .object [("name", .text "amount"), ("type", .text "uint256")]
  [.object ([("name", .text "total"), ("outputs", .list [amount])] ++ marks),
    .object [("name", .text "set"), ("inputs", .list [amount])]]

end TypeScript

end AbiTypings
