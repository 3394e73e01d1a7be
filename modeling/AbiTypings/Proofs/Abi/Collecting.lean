import AbiTypings.Proofs.Abi.Entries

/-!
# Reading an ABI with a collector at hand

The reader of an ABI hands its remarks back with the contract. Here the entries are taken one
after the other: each member joins its list in the contract at once, and each remark becomes a
notice of a collector, if there is one. Both ways of reading come to the same. What is collected
follows from the classes of the entries alone.
-/

namespace AbiTypings

/-- The notices collected so far, if anyone collects them. -/
abbrev Collector := Option (List Notice)

/-- Notices on a file join what has been collected. -/
def Collector.note (d : Collector) (file : String) (remarks : List Remark) : Collector :=
  d.map (· ++ remarks.map (⟨·, file⟩))

@[simp] theorem Collector.note_nil (d : Collector) (file : String) : d.note file [] = d := by
  cases d <;> simp [note]

theorem Collector.note_append (d : Collector) (file : String) (a b : List Remark) :
    (d.note file a).note file b = d.note file (a ++ b) := by
  cases d <;> simp [note]

namespace Contract

def empty (name : String) : Contract := ⟨name, [], [], [], []⟩

/-- A contract with one more member at the end of its list. -/
def add (c : Contract) : Abi.Item → Contract
  | .constant k => { c with constants := c.constants ++ [k] }
  | .readOnlyMethod m => { c with readOnlyMethods := c.readOnlyMethods ++ [m] }
  | .method m => { c with methods := c.methods ++ [m] }
  | .event e => { c with events := c.events ++ [e] }
  | .leftOut _ => c

/-- The lists of the second contract behind those of the first. -/
def append (c d : Contract) : Contract where
  name := c.name
  methods := c.methods ++ d.methods
  readOnlyMethods := c.readOnlyMethods ++ d.readOnlyMethods
  constants := c.constants ++ d.constants
  events := c.events ++ d.events

end Contract

namespace Abi

open Json Outcome

/-! ## One entry after the other -/

def collectEntries (file : String) (c : Contract) (d : Collector) :
    List Value → Collector × Except Problem Contract
  | [] => (d, .ok c)
  | entry :: rest =>
    match readEntry entry with
    | .error p => (d, .error p)
    | .ok item => collectEntries file (c.add item) (d.note file item.remark?.toList) rest

def collectContract (d : Collector) (file : String) (abi : List Value) (rawName : String) :
    Collector × Except Problem Contract :=
  match className rawName with
  | .error p => (d, .error p)
  | .ok name => collectEntries file (.empty name) d abi

theorem add_append_contractOf (c : Contract) (item : Item) (name : String) (items : List Item) :
    (c.add item).append (contractOf name items) = c.append (contractOf name (item :: items)) := by
  cases item <;>
    simp [Contract.add, Contract.append, contractOf, List.filterMap_cons, Item.constant?,
      Item.readOnlyMethod?, Item.method?, Item.event?]

theorem collectEntries_eq (file : String) (c : Contract) (d : Collector) (abi : List Value) :
    collectEntries file c d abi =
      (d.note file ((readEntries abi).1.filterMap Item.remark?),
        match (readEntries abi).2 with
        | none => .ok (c.append (contractOf c.name (readEntries abi).1))
        | some p => .error p) := by
  induction abi generalizing c d with
  | nil => simp [collectEntries, readEntries, Contract.append, contractOf]
  | cons entry rest ih =>
      cases hentry : readEntry entry with
      | error p => simp [collectEntries, readEntries, hentry]
      | ok item =>
          have hname : (c.add item).name = c.name := by cases item <;> rfl
          simp only [collectEntries, readEntries, hentry, ih, Collector.note_append, hname,
            add_append_contractOf]
          cases item <;> rfl

/-- Both ways of reading an ABI agree, whatever has been collected before. -/
theorem collectContract_eq (d : Collector) (file : String) (abi : List Value) (rawName : String) :
    collectContract d file abi rawName =
      (d.note file (readContract abi rawName).1, (readContract abi rawName).2) := by
  unfold collectContract readContract
  cases className rawName with
  | error p => simp
  | ok name =>
      simp only [collectEntries_eq]
      cases readEntries abi with
      | mk items problem => cases problem <;> simp [Contract.empty, Contract.append, contractOf]

/-! ## The first entry that cannot be read -/

theorem readEntries_eq_none_iff {abi : List Value} {items : List Item} :
    readEntries abi = (items, none) ↔
      List.Forall₂ (fun e item ↦ readEntry e = .ok item) abi items := by
  induction abi generalizing items with
  | nil => cases items <;> simp [readEntries]
  | cons entry rest ih =>
      cases hentry : readEntry entry with
      | error p => simp [readEntries, hentry, List.forall₂_cons_left_iff]
      | ok item =>
          cases hrest : readEntries rest with
          | mk found problem =>
              simp only [readEntries, hentry, hrest, Prod.mk.injEq, List.forall₂_cons_left_iff,
                ← ih]
              grind

theorem readEntries_eq_some_iff {abi : List Value} {items : List Item} {p : Problem} :
    readEntries abi = (items, some p) ↔
      ∃ before entry after, abi = before ++ entry :: after ∧
        List.Forall₂ (fun e item ↦ readEntry e = .ok item) before items ∧
          readEntry entry = .error p := by
  induction abi generalizing items with
  | nil => simp [readEntries]
  | cons head rest ih =>
      cases hhead : readEntry head with
      | error q =>
          simp only [readEntries, hhead, Prod.mk.injEq, Option.some.injEq]
          constructor
          · rintro ⟨rfl, rfl⟩
            exact ⟨[], head, rest, rfl, .nil, hhead⟩
          · rintro ⟨before, entry, after, habi, hbefore, hentry⟩
            cases hbefore with
            | nil =>
                obtain ⟨rfl, -⟩ := List.cons.inj habi
                exact ⟨rfl, Except.error.inj (hhead.symm.trans hentry)⟩
            | cons hfirst _ =>
                obtain ⟨rfl, -⟩ := List.cons.inj habi
                cases hhead.symm.trans hfirst
      | ok item =>
          cases hrest : readEntries rest with
          | mk found problem =>
              simp only [readEntries, hhead, hrest, Prod.mk.injEq]
              constructor
              · rintro ⟨rfl, rfl⟩
                obtain ⟨before, entry, after, rfl, hbefore, hentry⟩ := ih.mp hrest
                exact ⟨head :: before, entry, after, rfl, .cons hhead hbefore, hentry⟩
              · rintro ⟨before, entry, after, habi, hbefore, hentry⟩
                cases hbefore with
                | nil =>
                    obtain ⟨rfl, -⟩ := List.cons.inj habi
                    cases hhead.symm.trans hentry
                | cons hfirst hbefore =>
                    obtain ⟨rfl, rfl⟩ := List.cons.inj habi
                    have hread := ih.mpr ⟨_, entry, after, rfl, hbefore, hentry⟩
                    cases hrest.symm.trans hread
                    exact ⟨by rw [Except.ok.inj (hhead.symm.trans hfirst)], rfl⟩

end Abi

end AbiTypings
