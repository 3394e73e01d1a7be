import AbiTypings.Proofs.Abi.Partition
import AbiTypings.Proofs.Types.Oversized

/-!
# What can be wrong with an ABI

Whatever keeps an ABI from being read is a problem of the ABI itself, with one exception: a
number over the length limit. That one comes from a type string, of a parameter of some entry
or of a component of it, in which so many digits stand in a row.
-/

namespace AbiTypings

open Outcome

/-- A problem of the ABI itself; or a number over the length limit, where `long` holds. -/
def Problem.ComesFrom (long : Prop) (p : Problem) : Prop :=
  p.isAbiProblem = true ∨ (∃ o, p = .oversizedNumeral o) ∧ long

theorem Problem.ComesFrom.mono {long long' : Prop} {p : Problem} (h : p.ComesFrom long)
    (himp : long → long') : p.ComesFrom long' :=
  h.imp_right fun hnumber ↦ ⟨hnumber.1, himp hnumber.2⟩

theorem Problem.ComesFrom.isContained_eq_false_iff {long : Prop} {p : Problem}
    (h : p.ComesFrom long) : p.isContained = false ↔ ∃ o, p = .oversizedNumeral o := by
  constructor
  · intro hcontained
    rcases h with habi | ⟨hnumber, _⟩
    · rw [isContained_of_isAbiProblem habi] at hcontained
      cases hcontained
    · exact hnumber
  · rintro ⟨o, rfl⟩
    rfl

namespace Abi

open Json TypeString

/-! ## Parameters -/

/-- The type string of a parameter, or of a component at any depth, has a long run of digits. -/
inductive ParameterHasLongRun : Value → Prop where
  | here {v : Value} {source : String} (htype : field? "type" v = some (.text source))
      (hrun : HasLongRun source) : ParameterHasLongRun v
  | component {v item : Value} (hitem : item ∈ componentItems v)
      (hrun : ParameterHasLongRun item) : ParameterHasLongRun v

theorem comesFrom_of_typeOfString {source : String} {components : Option Components}
    {p : Problem} (h : typeOfString source components = .error p) :
    p.ComesFrom (HasLongRun source) := by
  obtain ⟨fault, hread, rfl⟩ := mapError_eq_error_iff.mp h
  cases fault with
  | refused r => exact Or.inl rfl
  | oversized o => exact Or.inr ⟨⟨o, rfl⟩, hasLongRun_of_read hread⟩

theorem comesFrom_of_parameterType {v : Value} {p : Problem} (h : parameterType v = .error p) :
    p.ComesFrom (ParameterHasLongRun v) := by
  induction v using parameterInduction generalizing p with
  | step v ih =>
      rcases parameterType_eq_error h with rfl | hcomponents | ⟨source, cs, hsource, htype⟩
      · exact Or.inl rfl
      · rcases parameterComponents_eq_error hcomponents with ⟨c, rfl⟩ | ⟨item, hitem, htype⟩
        · exact Or.inl rfl
        · exact (ih item hitem htype).mono (.component hitem)
      · exact (comesFrom_of_typeOfString htype).mono (.here hsource)

/-! ## Entries -/

/-- An input or an output of the entry has a long run of digits in a type string. -/
def EntryHasLongRun (e : Value) : Prop :=
  ∃ key ∈ ["inputs", "outputs"], ∃ items, parameterList key e = .ok items ∧
    ∃ v ∈ items, ParameterHasLongRun v

variable {e : Value} {p : Problem}

theorem comesFrom_of_parameterList {long : Prop} {key : String}
    (h : parameterList key e = .error p) : p.ComesFrom long := by
  obtain rfl := parameterObjects_eq_error h
  exact Or.inl rfl

/-- A field of parameters, read with a reader that fails only where the parameter's type does. -/
theorem comesFrom_of_mapM {α : Type} {read : Value → Except Problem α} {key : String}
    {items : List Value} (hread : ∀ v q, read v = .error q → parameterType v = .error q)
    (hkey : key ∈ ["inputs", "outputs"]) (hitems : parameterList key e = .ok items)
    (h : items.mapM read = .error p) : p.ComesFrom (EntryHasLongRun e) := by
  obtain ⟨v, hv, hfails⟩ := exists_mem_of_mapM_eq_error h
  exact (comesFrom_of_parameterType (hread v p hfails)).mono fun hrun ↦
    ⟨key, hkey, items, hitems, v, hv, hrun⟩

theorem parameterType_of_parameter {v : Value} (h : parameter v = .error p) :
    parameterType v = .error p :=
  map_eq_error_iff.mp h

theorem parameterType_of_eventField {v : Value} (h : eventField v = .error p) :
    parameterType v = .error p :=
  map_eq_error_iff.mp h

theorem comesFrom_of_readMethod (h : readMethod e = .error p) :
    p.ComesFrom (EntryHasLongRun e) := by
  rcases bind_eq_error_iff.mp h with hlist | ⟨outputItems, houtputItems, h⟩
  · exact comesFrom_of_parameterList hlist
  rcases bind_eq_error_iff.mp h with houtputs | ⟨outputs, _, h⟩
  · exact comesFrom_of_mapM (fun _ _ ↦ parameterType_of_parameter) (by simp) houtputItems houtputs
  rcases bind_eq_error_iff.mp h with hlist | ⟨inputItems, hinputItems, h⟩
  · exact comesFrom_of_parameterList hlist
  rcases bind_eq_error_iff.mp h with hinputs | ⟨inputs, _, h⟩
  · exact comesFrom_of_mapM (fun _ _ ↦ parameterType_of_parameter) (by simp) hinputItems hinputs
  · cases h

theorem comesFrom_of_readReadOnly (h : readReadOnly e = .error p) :
    p.ComesFrom (EntryHasLongRun e) := by
  rcases bind_eq_error_iff.mp h with hlist | ⟨inputs, _, h⟩
  · exact comesFrom_of_parameterList hlist
  rcases bind_eq_error_iff.mp h with hlist | ⟨outputs, houtputs, h⟩
  · exact comesFrom_of_parameterList hlist
  split at h
  case h_1 output _ _ =>
    rcases bind_eq_error_iff.mp h with htype | ⟨t, _, h⟩
    · exact (comesFrom_of_parameterType htype).mono fun hrun ↦
        ⟨"outputs", by simp, [output], houtputs, output, List.mem_cons_self, hrun⟩
    · cases h
  case h_2 =>
    rcases bind_eq_error_iff.mp h with hmethod | ⟨m, _, h⟩
    · exact comesFrom_of_readMethod hmethod
    · cases h

theorem comesFrom_of_readFunction (h : readFunction e = .error p) :
    p.ComesFrom (EntryHasLongRun e) := by
  unfold readFunction at h
  split_ifs at h
  · exact comesFrom_of_readReadOnly h
  · exact comesFrom_of_readMethod (map_eq_error_iff.mp h)

theorem comesFrom_of_readEvent (h : readEvent e = .error p) :
    p.ComesFrom (EntryHasLongRun e) := by
  unfold readEvent at h
  split_ifs at h
  rcases bind_eq_error_iff.mp h with hlist | ⟨items, hitems, h⟩
  · exact comesFrom_of_parameterList hlist
  rcases bind_eq_error_iff.mp h with hfields | ⟨fields, _, h⟩
  · exact comesFrom_of_mapM (fun _ _ ↦ parameterType_of_eventField) (by simp) hitems hfields
  · cases h

theorem comesFrom_of_readNamed {kind : String} {read : Value → Except Problem Item} {long : Prop}
    (hread : read e = .error p → p.ComesFrom long) (h : readNamed kind read e = .error p) :
    p.ComesFrom long := by
  unfold readNamed at h
  split_ifs at h
  · cases h
    exact Or.inl rfl
  · exact hread h

theorem comesFrom_of_readEntry (h : readEntry e = .error p) :
    p.ComesFrom (EntryHasLongRun e) := by
  unfold readEntry at h
  split_ifs at h
  · cases h
    exact Or.inl rfl
  · split at h
    case h_1 => exact comesFrom_of_readNamed comesFrom_of_readFunction h
    case h_2 => exact comesFrom_of_readNamed comesFrom_of_readEvent h
    case h_3 => split_ifs at h

/-! ## The whole ABI -/

theorem comesFrom_of_className {long : Prop} {rawName : String}
    (h : className rawName = .error p) : p.ComesFrom long := by
  unfold className at h
  split at h
  · cases h
    exact Or.inl rfl
  · cases h

theorem comesFrom_of_readContract {abi : List Value} {rawName : String}
    (h : (readContract abi rawName).2 = .error p) :
    p.ComesFrom (∃ e ∈ abi, EntryHasLongRun e) := by
  rcases readContract_eq_error (Prod.ext rfl h) with ⟨hname, _⟩ | hentry
  · exact comesFrom_of_className hname
  · obtain ⟨before, e, after, rfl, _, hfails, _⟩ := hentry
    exact (comesFrom_of_readEntry hfails).mono fun hrun ↦ ⟨e, by simp, hrun⟩

theorem comesFrom_of_ofText {long : Prop} {contents : String} (h : ofText contents = .error p) :
    p.ComesFrom long := by
  unfold ofText at h
  split at h
  · cases h
    exact Or.inl rfl
  · cases h
  · split at h
    · cases h
    · cases h
      exact Or.inl rfl

end Abi

end AbiTypings
