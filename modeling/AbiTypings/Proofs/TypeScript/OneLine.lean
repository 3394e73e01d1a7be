import AbiTypings.Proofs.TypeScript.Shape

/-!
# Lines without line feeds

A text that is put together from texts of one line is a text of one line. So the line of a member
brings a line feed only if a name in it does, and it ends as all lines of members do.
-/

namespace AbiTypings

open Outcome

namespace TypeScript

/-! ## Texts of one line -/

def IsOneLine (s : String) : Prop := '\n' ∉ s.toList

instance (s : String) : Decidable (IsOneLine s) := inferInstanceAs (Decidable ('\n' ∉ s.toList))

@[simp] theorem isOneLine_append {a b : String} :
    IsOneLine (a ++ b) ↔ IsOneLine a ∧ IsOneLine b := by
  simp [IsOneLine]

theorem isOneLine_intercalate {separator : String} {parts : List String}
    (hseparator : IsOneLine separator) (hparts : ∀ s ∈ parts, IsOneLine s) :
    IsOneLine (separator.intercalate parts) := by
  induction parts with
  | nil => simp [IsOneLine]
  | cons s rest ih =>
      obtain ⟨hs, hrest⟩ := List.forall_mem_cons.mp hparts
      cases rest with
      | nil => simpa using hs
      | cons next rest =>
          rw [String.intercalate_cons_cons, isOneLine_append, isOneLine_append]
          exact ⟨⟨hs, hseparator⟩, ih hrest⟩

theorem isOneLine_toString (n : Nat) : IsOneLine (toString n) := by
  intro h
  have hdigit := Nat.isDigit_of_mem_toDigits (by decide) (by decide) (Nat.toList_repr ▸ h)
  revert hdigit
  decide

theorem isOneLine_recordText {fields : List String} (h : ∀ s ∈ fields, IsOneLine s) :
    IsOneLine (recordText fields) := by
  cases fields with
  | nil => simp [recordText, IsOneLine]
  | cons field rest =>
      have hfields := isOneLine_intercalate (by decide : IsOneLine ", ") h
      simp only [recordText, isOneLine_append]
      exact ⟨⟨by decide, hfields⟩, by decide⟩

theorem isOneLine_fieldText {key type : String} (hkey : IsOneLine key) (htype : IsOneLine type) :
    IsOneLine (fieldText key type) := by
  simp only [fieldText, isOneLine_append]
  exact ⟨⟨hkey, by decide⟩, htype⟩

/-- The names, as they are shown, bring no line feed. -/
def AreOneLine (names : List Json.Value) : Prop := ∀ v ∈ names, IsOneLine v.display

instance (names : List Json.Value) : Decidable (AreOneLine names) :=
  inferInstanceAs (Decidable (∀ v ∈ names, IsOneLine v.display))

theorem areOneLine_cons {v : Json.Value} {names : List Json.Value} :
    AreOneLine (v :: names) ↔ IsOneLine v.display ∧ AreOneLine names := List.forall_mem_cons

theorem areOneLine_flatMap {α : Type} {f : α → List Json.Value} {xs : List α} :
    AreOneLine (xs.flatMap f) ↔ ∀ x ∈ xs, AreOneLine (f x) := by
  simp only [AreOneLine, List.mem_flatMap]
  constructor
  · intro h x hx v hv
    exact h v ⟨x, hx, hv⟩
  · rintro h v ⟨x, hx, hv⟩
    exact h x hx v hv

theorem isOneLine_of_writes {ε : Type} {d : Direction} {slots : List Slot}
    {x : Except ε (List String)} {fields : List String} (hx : Writes d slots x)
    (hslots : ∀ slot ∈ slots, IsOneLine slot.key ∧
      ∀ s, typeText d slot.type = .ok s → IsOneLine s)
    (h : x = .ok fields) : ∀ field ∈ fields, IsOneLine field := by
  intro field hfield
  obtain ⟨slot, hslot, s, hs, rfl⟩ := hx.exists_slot h hfield
  obtain ⟨hkey, htype⟩ := hslots slot hslot
  exact isOneLine_fieldText hkey (htype s hs)

theorem isOneLine_componentTexts {d : Direction} {components : Components} {fields : List String}
    (htypes : ∀ c ∈ components, ∀ s, typeText d c.2 = .ok s → IsOneLine s)
    (hnames : ∀ c ∈ components, IsOneLine c.1.display)
    (h : componentTexts d components = .ok fields) : ∀ field ∈ fields, IsOneLine field :=
  isOneLine_of_writes (writes_componentTexts d components)
    (List.forall_mem_map.mpr fun c hc ↦ ⟨hnames c hc, htypes c hc⟩) h

theorem isOneLine_typeText {d : Direction} {t : EvmType} {s : String} (hnames : AreOneLine t.names)
    (h : typeText d t = .ok s) : IsOneLine s := by
  induction t using EvmType.treeInduction generalizing s with
  | leaf t hleaf =>
      have htexts : ∀ p ∈ leafTexts d, IsOneLine p.1 := by cases d <;> simp [leafTexts, IsOneLine]
      exact htexts _ (mem_leafTexts hleaf h)
  | array item size ih =>
      obtain ⟨inner, hinner, rfl⟩ := map_eq_ok_iff.mp h
      simp only [arrayText, isOneLine_append]
      exact ⟨⟨by decide, ih hnames hinner⟩, by decide⟩
  | tuple components ih =>
      obtain ⟨fields, hfields, rfl⟩ := map_eq_ok_iff.mp h
      rw [AreOneLine, EvmType.forall_names_tuple] at hnames
      exact isOneLine_recordText (isOneLine_componentTexts
        (fun c hc s hs ↦ ih c hc (hnames c hc).2 hs) (fun c hc ↦ (hnames c hc).1) hfields)

end TypeScript

/-! ## Names -/

def Parameter.names (p : Parameter) : List Json.Value := p.name :: p.type.names

def Method.names (m : Method) : List Json.Value :=
  m.name :: (m.inputs ++ m.outputs).flatMap Parameter.names

def Constant.names (k : Constant) : List Json.Value := k.name :: k.output.names

def Event.names (e : Event) : List Json.Value := e.name :: e.parameters.flatMap Parameter.names

/-- No name of the contract, of a member, of a parameter or of a component brings a line feed. -/
structure Contract.HasOneLineNames (c : Contract) : Prop where
  own : TypeScript.IsOneLine c.name
  methods : ∀ m ∈ c.methods, TypeScript.AreOneLine m.names
  readOnlyMethods : ∀ m ∈ c.readOnlyMethods, TypeScript.AreOneLine m.names
  constants : ∀ k ∈ c.constants, TypeScript.AreOneLine k.names
  events : ∀ e ∈ c.events, TypeScript.AreOneLine e.names

instance (c : Contract) : Decidable c.HasOneLineNames :=
  decidable_of_iff
    (TypeScript.IsOneLine c.name ∧ (∀ m ∈ c.methods, TypeScript.AreOneLine m.names) ∧
      (∀ m ∈ c.readOnlyMethods, TypeScript.AreOneLine m.names) ∧
      (∀ k ∈ c.constants, TypeScript.AreOneLine k.names) ∧
      ∀ e ∈ c.events, TypeScript.AreOneLine e.names)
    ⟨fun ⟨own, methods, readOnlyMethods, constants, events⟩ ↦
      ⟨own, methods, readOnlyMethods, constants, events⟩,
    fun h ↦ ⟨h.own, h.methods, h.readOnlyMethods, h.constants, h.events⟩⟩

namespace TypeScript

/-! ## The line of a member -/

section Fields

variable {ps : List Parameter} {fields : List String} (hnames : ∀ p ∈ ps, AreOneLine p.names)

include hnames

theorem isOneLine_inputFields {position : Nat} (h : inputFields position ps = .ok fields) :
    ∀ field ∈ fields, IsOneLine field := by
  refine isOneLine_of_writes (writes_inputFields position ps)
    (List.forall_mem_map.mpr fun x hx ↦ ?_) h
  obtain ⟨hname, htype⟩ := areOneLine_cons.mp (hnames x.1 (List.fst_mem_of_mem_zipIdx hx))
  refine ⟨?_, fun s ↦ isOneLine_typeText htype⟩
  change IsOneLine (shownName x.2 x.1)
  unfold shownName
  split_ifs
  · exact isOneLine_append.mpr ⟨by decide, isOneLine_toString x.2⟩
  · exact hname

theorem isOneLine_namedFields (h : namedFields ps = .ok fields) :
    ∀ field ∈ fields, IsOneLine field := by
  refine isOneLine_of_writes (writes_namedFields ps) (List.forall_mem_map.mpr fun p hp ↦ ?_) h
  obtain ⟨hname, htype⟩ := areOneLine_cons.mp (hnames p (List.mem_of_mem_filter hp))
  exact ⟨hname, fun s ↦ isOneLine_typeText htype⟩

theorem isOneLine_positionFields {position : Nat} (h : positionFields position ps = .ok fields) :
    ∀ field ∈ fields, IsOneLine field := by
  refine isOneLine_of_writes (writes_positionFields position ps)
    (List.forall_mem_map.mpr fun x hx ↦ ?_) h
  obtain ⟨_, htype⟩ := areOneLine_cons.mp (hnames x.1 (List.fst_mem_of_mem_zipIdx hx))
  exact ⟨isOneLine_toString x.2, fun s ↦ isOneLine_typeText htype⟩

theorem isOneLine_inputsText {s : String} (h : inputsText ps = .ok s) : IsOneLine s := by
  obtain ⟨fields, hfields, rfl⟩ := map_eq_ok_iff.mp h
  exact isOneLine_intercalate (by decide) (isOneLine_inputFields hnames hfields)

theorem isOneLine_outputsText {s : String} (h : outputsText ps = .ok s) : IsOneLine s := by
  unfold outputsText at h
  split at h
  case h_1 p =>
    have hp := hnames p List.mem_cons_self
    exact isOneLine_typeText (areOneLine_cons.mp hp).2 (mapError_eq_ok_iff.mp h)
  case h_2 =>
    obtain ⟨named, byPosition, hnamed, hposition, rfl⟩ := both_eq_ok_iff.mp h
    apply isOneLine_recordText
    intro field hfield
    rcases List.mem_append.mp hfield with hfield | hfield
    · exact isOneLine_namedFields hnames hnamed field hfield
    · exact isOneLine_positionFields hnames hposition field hfield

end Fields

/-- How the line of every method, constant and event ends. -/
def memberEnd : String := ">;"

structure IsMemberLine (line : String) : Prop where
  oneLine : IsOneLine line
  ending : memberEnd.toList <:+ line.toList

theorem isMemberLine_append {start : String} (h : IsOneLine start) :
    IsMemberLine (start ++ memberEnd) :=
  ⟨isOneLine_append.mpr ⟨h, by decide⟩, by simp⟩

theorem isMemberLine_methodLine {m : Method} {line : String} (hnames : AreOneLine m.names)
    (h : methodLine m = .ok line) : IsMemberLine line := by
  obtain ⟨inputs, outputs, hinputs, houtputs, rfl⟩ := both_eq_ok_iff.mp h
  obtain ⟨hname, hparameters⟩ := areOneLine_cons.mp hnames
  rw [areOneLine_flatMap, List.forall_mem_append] at hparameters
  apply isMemberLine_append
  simp only [isOneLine_append]
  exact ⟨⟨⟨⟨hname, by decide⟩, isOneLine_inputsText hparameters.1 hinputs⟩, by decide⟩,
    isOneLine_outputsText hparameters.2 houtputs⟩

theorem isMemberLine_constantLine {k : Constant} {line : String} (hnames : AreOneLine k.names)
    (h : constantLine k = .ok line) : IsMemberLine line := by
  obtain ⟨output, houtput, rfl⟩ := map_eq_ok_iff.mp h
  obtain ⟨hname, htype⟩ := areOneLine_cons.mp hnames
  apply isMemberLine_append
  simp only [isOneLine_append]
  exact ⟨⟨⟨⟨hname, by decide⟩, by decide⟩, by decide⟩,
    isOneLine_typeText htype (mapError_eq_ok_iff.mp houtput)⟩

theorem isMemberLine_eventLine {e : Event} {line : String} (hnames : AreOneLine e.names)
    (h : eventLine e = .ok line) : IsMemberLine line := by
  obtain ⟨payload, hpayload, hline⟩ := bind_eq_ok_iff.mp h
  cases hline
  obtain ⟨hname, hparameters⟩ := areOneLine_cons.mp hnames
  apply isMemberLine_append
  simp only [isOneLine_append]
  exact ⟨⟨hname, by decide⟩, isOneLine_outputsText (areOneLine_flatMap.mp hparameters) hpayload⟩

end TypeScript

end AbiTypings
