import AbiTypings.EvmType

/-!
# Subtrees of a type

The nodes that can be reached from a type through array items and tuple components. A type of
values has neither void nor a foreign node among them.
-/

namespace AbiTypings.EvmType

/-! ## Induction -/

/-- Neither an array nor a tuple. -/
def IsLeaf (t : EvmType) : Prop :=
  (∀ item size, t ≠ .array item size) ∧ ∀ components, t ≠ .tuple components

@[simp] theorem not_isLeaf_array (item : EvmType) (size : Option Int) :
    ¬ (array item size).IsLeaf := fun h ↦ h.1 item size rfl

@[simp] theorem not_isLeaf_tuple (components : Components) : ¬ (tuple components).IsLeaf :=
  fun h ↦ h.2 components rfl

/-- What passes from the nodes right below a type to the type holds of all types. -/
@[elab_as_elim] theorem treeInduction {motive : EvmType → Prop}
    (leaf : ∀ t, t.IsLeaf → motive t)
    (array : ∀ item size, motive item → motive (.array item size))
    (tuple : ∀ components : Components, (∀ c ∈ components, motive c.2) →
      motive (.tuple components))
    (t : EvmType) : motive t := by
  have hleaf {t : EvmType} (h : t.IsLeaf := by simp [IsLeaf]) : motive t := leaf t h
  refine @EvmType.rec motive (fun cs ↦ ∀ c ∈ cs, motive c.2) (fun c ↦ motive c.2)
    (fun _ ↦ hleaf) (fun _ ↦ hleaf) hleaf (fun _ ↦ hleaf) hleaf hleaf hleaf hleaf
    (fun item size ih ↦ array item size ih) tuple (fun _ ↦ hleaf) ?_ ?_ (fun _ _ ih ↦ ih) t
  · intro c hc
    cases hc
  · intro head rest hhead hrest c hc
    rcases List.mem_cons.mp hc with rfl | hmem
    · exact hhead
    · exact hrest c hmem

/-! ## Subtrees -/

mutual

/-- The subtrees of a type, the type itself first, those of its parts from left to right. -/
def subtrees : EvmType → List EvmType
  | array item size => .array item size :: item.subtrees
  | tuple components => .tuple components :: componentSubtrees components
  | t => [t]
termination_by structural t => t

def componentSubtrees : Components → List EvmType
  | [] => []
  | (_, t) :: rest => t.subtrees ++ componentSubtrees rest
termination_by structural cs => cs

end

theorem componentSubtrees_eq (components : Components) :
    componentSubtrees components = components.flatMap (·.2.subtrees) := by
  induction components with
  | nil => rfl
  | cons c rest ih => simp [componentSubtrees, ih]

theorem subtrees_of_isLeaf {t : EvmType} (h : t.IsLeaf) : t.subtrees = [t] := by
  cases t <;> simp_all [subtrees]

@[simp] theorem subtrees_array (item : EvmType) (size : Option Int) :
    (array item size).subtrees = array item size :: item.subtrees := rfl

@[simp] theorem subtrees_tuple (components : Components) :
    (tuple components).subtrees = tuple components :: components.flatMap (·.2.subtrees) := by
  rw [subtrees, componentSubtrees_eq]

/-! ## Names of components -/

def nodeNames : EvmType → List Json.Value
  | tuple components => components.map (·.1)
  | _ => []

/-- The names of the components of a type, at any depth. -/
def names (t : EvmType) : List Json.Value := t.subtrees.flatMap nodeNames

@[simp] theorem names_array (item : EvmType) (size : Option Int) :
    (array item size).names = item.names := rfl

@[simp] theorem names_tuple (components : Components) :
    (tuple components).names = components.map (·.1) ++ components.flatMap (·.2.names) := by
  rw [names, subtrees_tuple, List.flatMap_cons, List.flatMap_assoc]
  rfl

theorem forall_names_tuple {P : Json.Value → Prop} {components : Components} :
    (∀ v ∈ (tuple components).names, P v) ↔
      ∀ c ∈ components, P c.1 ∧ ∀ v ∈ c.2.names, P v := by
  simp only [names_tuple, List.mem_append, List.mem_map, List.mem_flatMap]
  constructor
  · intro h c hc
    exact ⟨h c.1 (Or.inl ⟨c, hc, rfl⟩), fun v hv ↦ h v (Or.inr ⟨c, hc, hv⟩)⟩
  · rintro h v (⟨c, hc, rfl⟩ | ⟨c, hc, hv⟩)
    · exact (h c hc).1
    · exact (h c hc).2 v hv

/-! ## Types of values -/

/-- No foreign node can be reached. -/
def IsClosed (t : EvmType) : Prop := ∀ n ∈ t.subtrees, ∀ node, n ≠ .foreign node

/-- A type of values: neither void nor a foreign node can be reached from it. -/
def IsValue (t : EvmType) : Prop :=
  ∀ n ∈ t.subtrees, n ≠ .void ∧ ∀ node, n ≠ .foreign node

theorem isValue_iff {t : EvmType} : t.IsValue ↔ t.IsClosed ∧ .void ∉ t.subtrees := by
  constructor
  · intro h
    exact ⟨fun n hn ↦ (h n hn).2, fun hvoid ↦ (h _ hvoid).1 rfl⟩
  · rintro ⟨hclosed, hvoid⟩ n hn
    exact ⟨fun heq ↦ hvoid (heq ▸ hn), hclosed n hn⟩

theorem isValue_of_isLeaf {t : EvmType} (h : t.IsLeaf) :
    t.IsValue ↔ t ≠ .void ∧ ∀ node, t ≠ .foreign node := by
  simp [IsValue, subtrees_of_isLeaf h]

@[simp] theorem isValue_array {item : EvmType} {size : Option Int} :
    (array item size).IsValue ↔ item.IsValue := by
  simp [IsValue]

@[simp] theorem isValue_tuple {components : Components} :
    (tuple components).IsValue ↔ ∀ c ∈ components, c.2.IsValue := by
  simp only [IsValue, subtrees_tuple, List.mem_cons, List.mem_flatMap]
  constructor
  · intro h c hc n hn
    exact h n (Or.inr ⟨c, hc, hn⟩)
  · rintro h n (rfl | ⟨c, hc, hn⟩)
    · simp
    · exact h c hc n hn

end AbiTypings.EvmType
