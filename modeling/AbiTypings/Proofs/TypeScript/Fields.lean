import AbiTypings.TypeScript.Member
import AbiTypings.Proofs.Outcome

/-!
# Slots and their fields

Parameter lists and records are written alike. Each slot, a key and a type, gives a field, the key
and the text of the type, and a list of slots is written if each of them is. What differs is where
the keys come from: inputs are called by their names or after their positions, outputs by both,
and components by their names.
-/

namespace AbiTypings.TypeScript

open Outcome

/-- A key and the type under it. -/
structure Slot where
  key : String
  type : EvmType

/-- A key and the text of the type under it. -/
structure Field where
  key : String
  type : String
  deriving DecidableEq, Repr

def Field.text (f : Field) : String := fieldText f.key f.type

structure Slot.IsWrittenAs (d : Direction) (slot : Slot) (field : Field) : Prop where
  key : field.key = slot.key
  type : typeText d slot.type = .ok field.type

/-- The step gives the texts of the slots' fields, and fails if a slot has none. -/
def Writes {ε : Type} (d : Direction) (slots : List Slot) (x : Except ε (List String)) : Prop :=
  ∀ texts, x = .ok texts ↔
    ∃ fields, List.Forall₂ (Slot.IsWrittenAs d) slots fields ∧ texts = fields.map Field.text

section Writes

variable {ε : Type} {d : Direction} {slot : Slot} {slots : List Slot} {fields : List Field}
  {x : Except ε (List String)} {texts : List String}

theorem keys_eq_of_written (h : List.Forall₂ (Slot.IsWrittenAs d) slots fields) :
    fields.map (·.key) = slots.map (·.key) := by
  induction h with
  | nil => rfl
  | cons hfield _ ih => rw [List.map_cons, List.map_cons, hfield.key, ih]

theorem exists_field_of_written {n : Nat}
    (h : List.Forall₂ (Slot.IsWrittenAs d) slots fields) (hn : slots[n]? = some slot) :
    ∃ type, typeText d slot.type = .ok type ∧ fields[n]? = some ⟨slot.key, type⟩ := by
  induction h generalizing n with
  | nil => cases hn
  | @cons _ field _ _ hfield _ ih =>
      cases n with
      | zero =>
          obtain rfl := Option.some.inj hn
          exact ⟨field.type, hfield.type, by rw [← hfield.key]; rfl⟩
      | succ n => exact ih hn

theorem exists_written (h : ∀ slot ∈ slots, ∃ s, typeText d slot.type = .ok s) :
    ∃ fields, List.Forall₂ (Slot.IsWrittenAs d) slots fields := by
  induction slots with
  | nil => exact ⟨[], .nil⟩
  | cons slot rest ih =>
      obtain ⟨⟨s, hs⟩, hrest⟩ := List.forall_mem_cons.mp h
      obtain ⟨fields, hfields⟩ := ih hrest
      exact ⟨⟨slot.key, s⟩ :: fields, .cons ⟨rfl, hs⟩ hfields⟩

theorem writes_nil : Writes d [] (.ok [] : Except ε (List String)) := by
  intro texts
  simp only [List.forall₂_nil_left_iff, exists_eq_left, List.map_nil, Except.ok.injEq]
  exact eq_comm

/-- The first slot is written by the first of two steps, the others by the second. -/
theorem Writes.cons {y : Except ε String} (hy : ∀ s, y = .ok s ↔ typeText d slot.type = .ok s)
    (hx : Writes d slots x) :
    Writes d (slot :: slots) (do
      let s ← y
      let others ← x
      return fieldText slot.key s :: others) := by
  intro texts
  rw [both_eq_ok_iff]
  constructor
  · rintro ⟨s, others, hs, hothers, rfl⟩
    obtain ⟨fields, hfields, rfl⟩ := (hx others).mp hothers
    exact ⟨⟨slot.key, s⟩ :: fields, .cons ⟨rfl, (hy s).mp hs⟩ hfields, rfl⟩
  · rintro ⟨_, hwritten, rfl⟩
    obtain ⟨field, fields, hfield, hfields, rfl⟩ := List.forall₂_cons_left_iff.mp hwritten
    refine ⟨field.type, _, (hy _).mpr hfield.type, (hx _).mpr ⟨fields, hfields, rfl⟩, ?_⟩
    rw [List.map_cons, Field.text, hfield.key]

theorem Writes.append {slots' : List Slot} {y : Except ε (List String)} (hx : Writes d slots x)
    (hy : Writes d slots' y) :
    Writes d (slots ++ slots') (do
      let first ← x
      let second ← y
      return first ++ second) := by
  intro texts
  rw [both_eq_ok_iff]
  constructor
  · rintro ⟨first, second, hfirst, hsecond, rfl⟩
    obtain ⟨fields, hfields, rfl⟩ := (hx first).mp hfirst
    obtain ⟨fields', hfields', rfl⟩ := (hy second).mp hsecond
    exact ⟨fields ++ fields', List.rel_append hfields hfields', (List.map_append).symm⟩
  · rintro ⟨fields, hfields, rfl⟩
    have hfirst := List.forall₂_take slots.length hfields
    have hsecond := List.forall₂_drop slots.length hfields
    rw [List.take_left] at hfirst
    rw [List.drop_left] at hsecond
    refine ⟨_, _, (hx _).mpr ⟨_, hfirst, rfl⟩, (hy _).mpr ⟨_, hsecond, rfl⟩, ?_⟩
    rw [← List.map_append, List.take_append_drop]

theorem Writes.exists_eq_ok (hx : Writes d slots x)
    (h : ∀ slot ∈ slots, ∃ s, typeText d slot.type = .ok s) : ∃ texts, x = .ok texts := by
  obtain ⟨fields, hfields⟩ := exists_written h
  exact ⟨_, (hx _).mpr ⟨fields, hfields, rfl⟩⟩

theorem Writes.exists_slot (hx : Writes d slots x) (h : x = .ok texts) {text : String}
    (htext : text ∈ texts) :
    ∃ slot ∈ slots, ∃ s, typeText d slot.type = .ok s ∧ text = fieldText slot.key s := by
  obtain ⟨fields, hfields, rfl⟩ := (hx texts).mp h
  obtain ⟨field, hfield, rfl⟩ := List.mem_map.mp htext
  obtain ⟨slot, hslot, hwritten⟩ := exists_mem_of_forall₂ hfields hfield
  exact ⟨slot, hslot, field.type, hwritten.type, by rw [Field.text, hwritten.key]⟩

theorem Writes.exists_text (hx : Writes d slots x) (h : x = .ok texts) (hslot : slot ∈ slots) :
    ∃ s, typeText d slot.type = .ok s ∧ fieldText slot.key s ∈ texts := by
  obtain ⟨fields, hfields, rfl⟩ := (hx texts).mp h
  obtain ⟨field, hfield, hwritten⟩ := exists_mem_of_forall₂ hfields.flip hslot
  exact ⟨field.type, hwritten.type, List.mem_map.mpr ⟨field, hfield, by
    rw [Field.text, hwritten.key]⟩⟩

theorem Writes.map_eq_ok_iff {f : List String → String} (hx : Writes d slots x) {s : String} :
    f <$> x = .ok s ↔ ∃ fields, List.Forall₂ (Slot.IsWrittenAs d) slots fields ∧
      s = f (fields.map Field.text) := by
  rw [Outcome.map_eq_ok_iff]
  constructor
  · rintro ⟨texts, htexts, rfl⟩
    obtain ⟨fields, hfields, rfl⟩ := (hx texts).mp htexts
    exact ⟨fields, hfields, rfl⟩
  · rintro ⟨fields, hfields, rfl⟩
    exact ⟨_, (hx _).mpr ⟨fields, hfields, rfl⟩, rfl⟩

end Writes

/-! ## Parameter lists and records -/

def inputSlots (position : Nat) (ps : List Parameter) : List Slot :=
  (ps.zipIdx position).map fun x ↦ ⟨shownName x.2 x.1, x.1.type⟩

def namedSlots (ps : List Parameter) : List Slot :=
  (ps.filter (!·.name.isVacant)).map fun p ↦ ⟨p.name.display, p.type⟩

def positionSlots (position : Nat) (ps : List Parameter) : List Slot :=
  (ps.zipIdx position).map fun x ↦ ⟨toString x.2, x.1.type⟩

def componentSlots (components : Components) : List Slot :=
  components.map fun c ↦ ⟨c.1.display, c.2⟩

theorem inputType_eq_ok_iff {t : EvmType} {s : String} :
    inputType t = .ok s ↔ typeText .input t = .ok s := mapError_eq_ok_iff

theorem outputType_eq_ok_iff {t : EvmType} {s : String} :
    outputType t = .ok s ↔ typeText .output t = .ok s := mapError_eq_ok_iff

theorem writes_inputFields (position : Nat) (ps : List Parameter) :
    Writes .input (inputSlots position ps) (inputFields position ps) := by
  induction ps generalizing position with
  | nil => exact writes_nil
  | cons p rest ih => exact (ih (position + 1)).cons fun _ ↦ inputType_eq_ok_iff

theorem writes_namedFields (ps : List Parameter) :
    Writes .output (namedSlots ps) (namedFields ps) := by
  induction ps with
  | nil => exact writes_nil
  | cons p rest ih =>
      rw [namedFields, namedSlots]
      by_cases hvacant : p.name.isVacant = true
      · rw [if_pos hvacant, List.filter_cons_of_neg (by simp [hvacant])]
        exact ih
      · rw [if_neg hvacant, List.filter_cons_of_pos (by simp [hvacant])]
        exact ih.cons fun _ ↦ outputType_eq_ok_iff

theorem writes_positionFields (position : Nat) (ps : List Parameter) :
    Writes .output (positionSlots position ps) (positionFields position ps) := by
  induction ps generalizing position with
  | nil => exact writes_nil
  | cons p rest ih => exact (ih (position + 1)).cons fun _ ↦ outputType_eq_ok_iff

theorem writes_componentTexts (d : Direction) (components : Components) :
    Writes d (componentSlots components) (componentTexts d components) := by
  induction components with
  | nil => exact writes_nil
  | cons c rest ih => exact ih.cons fun _ ↦ Iff.rfl

/-! ## Their texts -/

theorem inputsText_eq_ok_iff {ps : List Parameter} {s : String} :
    inputsText ps = .ok s ↔
      ∃ fields, List.Forall₂ (Slot.IsWrittenAs .input) (inputSlots 0 ps) fields ∧
        s = ", ".intercalate (fields.map Field.text) :=
  (writes_inputFields 0 ps).map_eq_ok_iff

/-- But for a single output, outputs make a record. -/
theorem outputsText_eq {ps : List Parameter} (hlength : ps.length ≠ 1) :
    outputsText ps = recordText <$> (do
      let named ← namedFields ps
      let byPosition ← positionFields 0 ps
      return named ++ byPosition) := by
  unfold outputsText
  split
  case h_1 => exact absurd rfl hlength
  case h_2 => simp only [map_bind, map_pure]

theorem outputsText_eq_ok_iff {ps : List Parameter} (hlength : ps.length ≠ 1) {s : String} :
    outputsText ps = .ok s ↔
      ∃ fields, List.Forall₂ (Slot.IsWrittenAs .output)
          (namedSlots ps ++ positionSlots 0 ps) fields ∧
        s = recordText (fields.map Field.text) := by
  rw [outputsText_eq hlength]
  exact ((writes_namedFields ps).append (writes_positionFields 0 ps)).map_eq_ok_iff

theorem typeText_tuple_eq_ok_iff {d : Direction} {components : Components} {s : String} :
    typeText d (.tuple components) = .ok s ↔
      ∃ fields, List.Forall₂ (Slot.IsWrittenAs d) (componentSlots components) fields ∧
        s = recordText (fields.map Field.text) :=
  (writes_componentTexts d components).map_eq_ok_iff

end AbiTypings.TypeScript
