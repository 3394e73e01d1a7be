import AbiTypings.Abi.Entry
import AbiTypings.Proofs.Abi.Parameters

/-!
# Classes of entries

Every entry of an ABI belongs to exactly one of seven classes, told apart by its kind and by a
few of its fields. An entry that can be read gives the member or the remark of its class.
-/

namespace AbiTypings.Abi

open Json Outcome

theorem isOneOf_iff {names : List String} {v : Value} :
    isOneOf names v = true ↔ ∃ s ∈ names, v = .text s := by
  cases v <;> simp [isOneOf]

theorem isOneOf_append (a b : List String) (v : Value) :
    isOneOf (a ++ b) v = (isOneOf a v || isOneOf b v) := by
  cases v <;> simp [isOneOf]

theorem isOneOf_eq_false {a b : List String} (hdisjoint : ∀ s ∈ a, s ∉ b) {v : Value}
    (h : isOneOf a v = true) : isOneOf b v = false := by
  obtain ⟨s, hs, rfl⟩ := isOneOf_iff.mp h
  simpa [isOneOf] using hdisjoint s hs

/-! ## The classes -/

inductive EntryClass where
  | constant
  | readOnlyMethod
  | method
  | event
  | anonymousEvent
  | ignored
  | unsupported
  deriving DecidableEq, Repr

def isAnonymous (e : Value) : Bool := !(fieldD "anonymous" e).isVacant

/-- Nothing goes in and exactly one value comes out. -/
def isSingleValued (e : Value) : Bool :=
  (fieldD "inputs" e).isVacant &&
    match fieldD "outputs" e with
    | .list [_] => true
    | _ => false

def EntryClass.fits (e : Value) : EntryClass → Bool
  | constant => isOneOf ["function"] (entryKind e) && isReadOnly e && isSingleValued e
  | readOnlyMethod => isOneOf ["function"] (entryKind e) && isReadOnly e && !isSingleValued e
  | method => isOneOf ["function"] (entryKind e) && !isReadOnly e
  | event => isOneOf ["event"] (entryKind e) && !isAnonymous e
  | anonymousEvent => isOneOf ["event"] (entryKind e) && isAnonymous e
  | ignored => isOneOf ignoredKinds (entryKind e)
  | unsupported => !isOneOf ("function" :: "event" :: ignoredKinds) (entryKind e)

/-- The class found by asking one question after the other. -/
def classOf (e : Value) : EntryClass :=
  if isOneOf ["function"] (entryKind e) then
    if isReadOnly e then
      if isSingleValued e then .constant else .readOnlyMethod
    else .method
  else if isOneOf ["event"] (entryKind e) then
    if isAnonymous e then .anonymousEvent else .event
  else if isOneOf ignoredKinds (entryKind e) then .ignored
  else .unsupported

theorem fits_iff {k : EntryClass} {e : Value} : k.fits e = true ↔ k = classOf e := by
  have hkinds : isOneOf ("function" :: "event" :: ignoredKinds) (entryKind e) =
      (isOneOf ["function"] (entryKind e) ||
        (isOneOf ["event"] (entryKind e) || isOneOf ignoredKinds (entryKind e))) := by
    rw [← isOneOf_append, ← isOneOf_append]
    rfl
  -- No kind is asked for twice, so the first question that is answered decides.
  have hfunction : isOneOf ["function"] (entryKind e) = true →
      isOneOf ["event"] (entryKind e) = false ∧ isOneOf ignoredKinds (entryKind e) = false :=
    fun h ↦ ⟨isOneOf_eq_false (by decide) h, isOneOf_eq_false (by decide) h⟩
  have hevent : isOneOf ["event"] (entryKind e) = true →
      isOneOf ignoredKinds (entryKind e) = false :=
    isOneOf_eq_false (by decide)
  unfold classOf
  split_ifs <;> cases k <;> simp_all [EntryClass.fits]

theorem existsUnique_fits (e : Value) : ∃! k : EntryClass, k.fits e = true :=
  ⟨classOf e, fits_iff.mpr rfl, fun _ h ↦ fits_iff.mp h⟩

theorem fits_eq_of_fits {e : Value} {k : EntryClass} (h : k.fits e = true) (other : EntryClass) :
    other.fits e = decide (other = k) := by
  rw [fits_iff.mp h, Bool.eq_iff_iff, fits_iff, decide_eq_true_iff]

/-! ## What an entry gives -/

/-- The remark on an entry that gives no member. -/
def remarkOn? (e : Value) : Option Remark :=
  if EntryClass.anonymousEvent.fits e then some (.anonymousEvent (fieldD "name" e))
  else if EntryClass.ignored.fits e then some (.skippedEntry (entryKind e))
  else if EntryClass.unsupported.fits e then some (.unsupportedEntry (entryKind e))
  else none

/-- The code of that remark. -/
def codeOn? (e : Value) : Option String :=
  if EntryClass.anonymousEvent.fits e then some "W001"
  else if EntryClass.ignored.fits e then some "I001"
  else if EntryClass.unsupported.fits e then some "W002"
  else none

theorem code_remarkOn? (e : Value) : (remarkOn? e).map Remark.code = codeOn? e := by
  unfold remarkOn? codeOn?
  split_ifs <;> rfl

def DeclaresConstant (e : Value) (k : Constant) : Prop :=
  k.name = fieldD "name" e ∧
    ∃ output, fieldD "outputs" e = .list [output] ∧ parameterType output = .ok k.output

def DeclaresMethod (e : Value) (m : Method) : Prop := readMethod e = .ok m

def DeclaresEvent (e : Value) (ev : Event) : Prop :=
  ev.name = fieldD "name" e ∧
    ∃ objects, parameterList "inputs" e = .ok objects ∧ objects.mapM eventField = .ok ev.fields

namespace Item

/-- The class of the entries that give such an item. -/
def entryClass : Item → EntryClass
  | constant _ => .constant
  | readOnlyMethod _ => .readOnlyMethod
  | method _ => .method
  | event _ => .event
  | leftOut (.anonymousEvent _) => .anonymousEvent
  | leftOut (.skippedEntry _) => .ignored
  | leftOut _ => .unsupported

def DeclaredBy (e : Value) : Item → Prop
  | constant k => DeclaresConstant e k
  | readOnlyMethod m => DeclaresMethod e m
  | method m => DeclaresMethod e m
  | event ev => DeclaresEvent e ev
  | leftOut r => remarkOn? e = some r

end Item

theorem parameterList_eq_nil_iff {key : String} {e : Value} {items : List Value}
    (h : parameterList key e = .ok items) : items = [] ↔ (fieldD key e).isVacant = true := by
  rcases parameterObjects_eq_ok_iff.mp h with ⟨hvacant, rfl⟩ | ⟨hlist, _⟩
  · simp [hvacant]
  · simp [hlist, Value.isVacant]

theorem parameterList_eq_singleton {key : String} {e output : Value}
    (h : parameterList key e = .ok [output]) : fieldD key e = .list [output] := by
  rcases parameterObjects_eq_ok_iff.mp h with ⟨_, hnil⟩ | ⟨hlist, _⟩
  · cases hnil
  · exact hlist

theorem isSingleValued_iff {e : Value} {inputs outputs : List Value}
    (hinputs : parameterList "inputs" e = .ok inputs)
    (houtputs : parameterList "outputs" e = .ok outputs) :
    isSingleValued e = true ↔ inputs = [] ∧ ∃ output, outputs = [output] := by
  rw [isSingleValued, Bool.and_eq_true, ← parameterList_eq_nil_iff hinputs]
  refine and_congr_right fun _ ↦ ?_
  rcases parameterObjects_eq_ok_iff.mp houtputs with ⟨hvacant, rfl⟩ | ⟨hlist, _⟩
  · cases hfield : fieldD "outputs" e with
    | list items =>
        rw [hfield, Value.isVacant, List.isEmpty_iff] at hvacant
        simp [hvacant]
    | _ => simp
  · rw [hlist]
    rcases outputs with _ | ⟨output, _ | ⟨second, rest⟩⟩ <;> simp

section Read

variable {e : Value} {item : Item}

theorem declaredBy_of_readReadOnly (hkind : entryKind e = .text "function")
    (hread : isReadOnly e = true) (h : readReadOnly e = .ok item) :
    item.entryClass.fits e = true ∧ item.DeclaredBy e := by
  obtain ⟨inputs, hinputs, hrest⟩ := bind_eq_ok_iff.mp h
  obtain ⟨outputs, houtputs, hbranch⟩ := bind_eq_ok_iff.mp hrest
  have hsingle := isSingleValued_iff hinputs houtputs
  split at hbranch
  case h_1 output =>
    obtain ⟨t, ht, hitem⟩ := bind_eq_ok_iff.mp hbranch
    cases hitem
    have hfits : isSingleValued e = true := hsingle.mpr ⟨rfl, output, rfl⟩
    exact ⟨by simp [Item.entryClass, EntryClass.fits, isOneOf, hkind, hread, hfits],
      rfl, output, parameterList_eq_singleton houtputs, ht⟩
  case h_2 hnot =>
    obtain ⟨m, hm, hitem⟩ := bind_eq_ok_iff.mp hbranch
    cases hitem
    have hfits : isSingleValued e = false := by
      rw [Bool.eq_false_iff, ne_eq, hsingle]
      rintro ⟨rfl, output, rfl⟩
      exact hnot output rfl rfl
    exact ⟨by simp [Item.entryClass, EntryClass.fits, isOneOf, hkind, hread, hfits], hm⟩

theorem declaredBy_of_readFunction (hkind : entryKind e = .text "function")
    (h : readFunction e = .ok item) :
    item.entryClass.fits e = true ∧ item.DeclaredBy e := by
  unfold readFunction at h
  split_ifs at h with hread
  · exact declaredBy_of_readReadOnly hkind hread h
  · obtain ⟨m, hm, rfl⟩ := map_eq_ok_iff.mp h
    exact ⟨by simp [Item.entryClass, EntryClass.fits, isOneOf, hkind, hread], hm⟩

theorem declaredBy_of_readEvent (hkind : entryKind e = .text "event")
    (h : readEvent e = .ok item) :
    item.entryClass.fits e = true ∧ item.DeclaredBy e := by
  unfold readEvent at h
  split_ifs at h with hanonymous
  · cases h
    have hfits : EntryClass.anonymousEvent.fits e = true := by
      simp [EntryClass.fits, isOneOf, isAnonymous, hkind, hanonymous]
    exact ⟨hfits, by simp [Item.DeclaredBy, remarkOn?, hfits]⟩
  · obtain ⟨objects, hobjects, hrest⟩ := bind_eq_ok_iff.mp h
    obtain ⟨fields, hfields, hitem⟩ := bind_eq_ok_iff.mp hrest
    cases hitem
    exact ⟨by simp [Item.entryClass, EntryClass.fits, isOneOf, isAnonymous, hkind, hanonymous],
      rfl, objects, hobjects, hfields⟩

theorem readNamed_eq_ok {kind : String} {read : Value → Except Problem Item}
    (h : readNamed kind read e = .ok item) : read e = .ok item := by
  unfold readNamed at h
  split_ifs at h
  exact h

/-- An entry that can be read gives what its class says. -/
theorem declaredBy_of_readEntry (h : readEntry e = .ok item) :
    item.entryClass.fits e = true ∧ item.DeclaredBy e := by
  unfold readEntry at h
  split_ifs at h
  split at h
  case h_1 hkind => exact declaredBy_of_readFunction hkind (readNamed_eq_ok h)
  case h_2 hkind => exact declaredBy_of_readEvent hkind (readNamed_eq_ok h)
  case h_3 hfunction hevent =>
    have hother (s : String) (hs : entryKind e ≠ .text s) : isOneOf [s] (entryKind e) = false := by
      rw [Bool.eq_false_iff, ne_eq, isOneOf_iff]
      rintro ⟨_, hmem, hkind⟩
      exact hs (List.mem_singleton.mp hmem ▸ hkind)
    have hevent := hother "event" hevent
    split_ifs at h with hignored
    · cases h
      exact ⟨hignored, by simp [Item.DeclaredBy, remarkOn?, EntryClass.fits, hevent, hignored]⟩
    · cases h
      have hfits : EntryClass.unsupported.fits e = true := by
        have hfunction := hother "function" hfunction
        cases hkind : entryKind e <;> simp_all [EntryClass.fits, isOneOf]
      have hevent : EntryClass.anonymousEvent.fits e = false := by simp [EntryClass.fits, hevent]
      have hignored : EntryClass.ignored.fits e = false := by
        simpa [EntryClass.fits] using hignored
      exact ⟨hfits, by simp [Item.DeclaredBy, remarkOn?, hevent, hignored, hfits]⟩

theorem remark?_of_readEntry (h : readEntry e = .ok item) : item.remark? = remarkOn? e := by
  obtain ⟨hfits, hdeclared⟩ := declaredBy_of_readEntry h
  cases item with
  | leftOut r => exact hdeclared.symm
  | _ => simp [remarkOn?, fits_eq_of_fits hfits, Item.entryClass, Item.remark?]

end Read

/-! ## Pairings of entries and items -/

section Pairing

variable {abi : List Value} {items : List Item}
  (h : List.Forall₂ (fun e item ↦ readEntry e = .ok item) abi items)

include h

theorem filterMap_remark? : items.filterMap Item.remark? = abi.filterMap remarkOn? :=
  (filterMap_eq_of_forall₂ h fun _ _ hread ↦ (remark?_of_readEntry hread).symm).symm

/-- The members of one class are declared by the entries of that class, in their order. -/
theorem forall₂_members {γ : Type} {k : EntryClass} {member? : Item → Option γ}
    {Declares : Value → γ → Prop}
    (hsome : ∀ item, item.entryClass = k →
      ∃ m, member? item = some m ∧ ∀ e, item.DeclaredBy e → Declares e m)
    (hnone : ∀ item, item.entryClass ≠ k → member? item = none) :
    List.Forall₂ Declares (abi.filter (k.fits ·)) (items.filterMap member?) := by
  refine forall₂_filter_filterMap h fun e item hread ↦ ?_
  obtain ⟨hfits, hdeclared⟩ := declaredBy_of_readEntry hread
  by_cases hclass : item.entryClass = k
  · obtain ⟨m, hm, hdeclares⟩ := hsome item hclass
    exact Or.inl ⟨hclass ▸ hfits, m, hm, hdeclares e hdeclared⟩
  · refine Or.inr ⟨?_, hnone item hclass⟩
    simp [fits_eq_of_fits hfits, Ne.symm hclass]

end Pairing

end AbiTypings.Abi
