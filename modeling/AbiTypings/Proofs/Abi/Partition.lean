import AbiTypings.Proofs.Abi.Collecting

/-!
# The members of a contract and the entries of its ABI

A contract holds the members that the entries of each class declare, in the order of the ABI, and
the other entries are what is remarked on. Where an entry cannot be read, only the remarks on the
entries before it have been made.
-/

namespace AbiTypings.Abi

open Json Outcome

/-- Every list of members is declared by the entries of its class, one by each and in order. -/
structure Sorts (abi : List Value) (c : Contract) : Prop where
  constants : List.Forall₂ DeclaresConstant
    (abi.filter (EntryClass.constant.fits ·)) c.constants
  readOnlyMethods : List.Forall₂ DeclaresMethod
    (abi.filter (EntryClass.readOnlyMethod.fits ·)) c.readOnlyMethods
  methods : List.Forall₂ DeclaresMethod (abi.filter (EntryClass.method.fits ·)) c.methods
  events : List.Forall₂ DeclaresEvent (abi.filter (EntryClass.event.fits ·)) c.events

theorem sorts_contractOf {abi : List Value} {items : List Item} (name : String)
    (h : List.Forall₂ (fun e item ↦ readEntry e = .ok item) abi items) :
    Sorts abi (contractOf name items) where
  constants := by
    refine forall₂_members h ?_ ?_
    · rintro (k | _ | _ | _ | (_ | _ | _ | _ | _)) hclass <;> cases hclass
      exact ⟨k, rfl, fun _ hdeclared ↦ hdeclared⟩
    · rintro (_ | _ | _ | _ | _) hclass <;> simp_all [Item.entryClass, Item.constant?]
  readOnlyMethods := by
    refine forall₂_members h ?_ ?_
    · rintro (_ | m | _ | _ | (_ | _ | _ | _ | _)) hclass <;> cases hclass
      exact ⟨m, rfl, fun _ hdeclared ↦ hdeclared⟩
    · rintro (_ | _ | _ | _ | _) hclass <;> simp_all [Item.entryClass, Item.readOnlyMethod?]
  methods := by
    refine forall₂_members h ?_ ?_
    · rintro (_ | _ | m | _ | (_ | _ | _ | _ | _)) hclass <;> cases hclass
      exact ⟨m, rfl, fun _ hdeclared ↦ hdeclared⟩
    · rintro (_ | _ | _ | _ | _) hclass <;> simp_all [Item.entryClass, Item.method?]
  events := by
    refine forall₂_members h ?_ ?_
    · rintro (_ | _ | _ | e | (_ | _ | _ | _ | _)) hclass <;> cases hclass
      exact ⟨e, rfl, fun _ hdeclared ↦ hdeclared⟩
    · rintro (_ | _ | _ | _ | _) hclass <;> simp_all [Item.entryClass, Item.event?]

variable {abi : List Value} {rawName : String} {remarks : List Remark}

theorem readContract_eq_ok {c : Contract} (h : readContract abi rawName = (remarks, .ok c)) :
    Sorts abi c ∧ remarks = abi.filterMap remarkOn? := by
  unfold readContract at h
  split at h
  case h_1 => cases h
  case h_2 name _ =>
    split at h
    case h_1 items hitems =>
      have hread := readEntries_eq_none_iff.mp hitems
      cases h
      exact ⟨sorts_contractOf name hread, filterMap_remark? hread⟩
    case h_2 => cases h

theorem readContract_eq_error {p : Problem} (h : readContract abi rawName = (remarks, .error p)) :
    className rawName = .error p ∧ remarks = [] ∨
      ∃ before entry after, abi = before ++ entry :: after ∧
        (∀ e ∈ before, ∃ item, readEntry e = .ok item) ∧ readEntry entry = .error p ∧
          remarks = before.filterMap remarkOn? := by
  unfold readContract at h
  split at h
  case h_1 q hname =>
    cases h
    exact Or.inl ⟨hname, rfl⟩
  case h_2 name _ =>
    split at h
    case h_1 => cases h
    case h_2 items q hitems =>
      obtain ⟨before, entry, after, rfl, hread, hentry⟩ := readEntries_eq_some_iff.mp hitems
      cases h
      refine Or.inr ⟨before, entry, after, rfl, fun e he ↦ ?_, hentry, filterMap_remark? hread⟩
      obtain ⟨item, _, hitem⟩ := exists_mem_of_forall₂ hread.flip he
      exact ⟨item, hitem⟩

/-- Every remark of a reading is the remark on one of the entries. -/
theorem exists_of_mem_readContract {r : Remark} (h : r ∈ (readContract abi rawName).1) :
    ∃ e ∈ abi, remarkOn? e = some r := by
  cases hread : readContract abi rawName with
  | mk remarks result =>
      rw [hread] at h
      cases result with
      | ok c =>
          obtain ⟨_, rfl⟩ := readContract_eq_ok hread
          exact List.mem_filterMap.mp h
      | error p =>
          rcases readContract_eq_error hread with ⟨_, rfl⟩ | ⟨before, entry, after, rfl, _, _, rfl⟩
          · exact absurd h List.not_mem_nil
          · obtain ⟨e, he, hremark⟩ := List.mem_filterMap.mp h
            exact ⟨e, List.mem_append_left _ he, hremark⟩

/-- Reading sorts the entries of an ABI without loss, repetition or change of order, and a
collector only ever gains the remarks on the entries that have been read. -/
theorem collectContract_sorts (d : Collector) (file : String) (abi : List Value)
    (rawName : String) :
    (∀ e ∈ abi, ∃! k : EntryClass, k.fits e = true) ∧
      (collectContract d file abi rawName).2 = (readContract abi rawName).2 ∧
      (∀ es : List Value, (es.filterMap remarkOn?).map Remark.code = es.filterMap codeOn?) ∧
      match collectContract d file abi rawName with
      | (d', .ok c) => Sorts abi c ∧ d' = d.note file (abi.filterMap remarkOn?)
      | (d', .error p) =>
          className rawName = .error p ∧ d' = d ∨
            ∃ before entry after, abi = before ++ entry :: after ∧
              (∀ e ∈ before, ∃ item, readEntry e = .ok item) ∧ readEntry entry = .error p ∧
                d' = d.note file (before.filterMap remarkOn?) := by
  refine ⟨fun e _ ↦ existsUnique_fits e, by rw [collectContract_eq], fun es ↦ ?_, ?_⟩
  · rw [List.map_filterMap]
    exact List.filterMap_congr fun e _ ↦ code_remarkOn? e
  · rw [collectContract_eq]
    cases hread : readContract abi rawName with
    | mk remarks result =>
        cases result with
        | ok c =>
            obtain ⟨hsorts, rfl⟩ := readContract_eq_ok hread
            exact ⟨hsorts, rfl⟩
        | error p =>
            rcases readContract_eq_error hread with ⟨hname, rfl⟩ | h
            · exact Or.inl ⟨hname, by simp⟩
            · obtain ⟨before, entry, after, habi, hbefore, hentry, rfl⟩ := h
              exact Or.inr ⟨before, entry, after, habi, hbefore, hentry, rfl⟩

end AbiTypings.Abi
