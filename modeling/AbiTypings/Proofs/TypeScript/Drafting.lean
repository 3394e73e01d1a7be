import AbiTypings.TypeScript.Draft
import AbiTypings.Proofs.Abi.OneInput
import AbiTypings.Proofs.TypeScript.Writable
import AbiTypings.Proofs.Types.Grammar

/-!
# How much room a draft needs

The calls that a draft needs follow from its names and types: so many for every array and tuple
that a type passes through. With this much room a draft gives what the writer of the same piece
gives. With less it fails for want of room, unless there is no text anyway. A contract that is
read has its document, so its draft is the document or fails for want of room.
-/

namespace AbiTypings.TypeScript

open Outcome

/-! ## Drafts of a piece of writing -/

/-- The draft does what the writer does where the calls fit; where they do not, it fails for want
of room if the writer gives a text. -/
structure IsDraftOf {α : Type} (x : Except Unrecognized α) (need : Nat) (draft : Draft α) :
    Prop where
  fits : ∀ room, need ≤ room → draft room = x.mapError .unrecognized
  overflows : ∀ room, room < need → (∃ a, x = .ok a) → draft room = .error .tooDeep

namespace IsDraftOf

variable {α β : Type} {x : Except Unrecognized α} {need : Nat} {draft : Draft α}

theorem pure (a : α) : IsDraftOf (.ok a) 0 (Pure.pure a) where
  fits _ _ := rfl
  overflows _ hroom := absurd hroom (Nat.not_lt_zero _)

theorem throw (u : Unrecognized) :
    IsDraftOf (.error u : Except Unrecognized α) 0 (MonadExcept.throw (.unrecognized u)) where
  fits _ _ := rfl
  overflows _ hroom := absurd hroom (Nat.not_lt_zero _)

theorem within (h : IsDraftOf x need draft) (calls : Nat) :
    IsDraftOf x (calls + need) (within calls draft) where
  fits room hroom := by
    rw [TypeScript.within, if_pos (by omega)]
    exact h.fits _ (by omega)
  overflows room hroom hx := by
    rw [TypeScript.within]
    split_ifs
    · exact h.overflows _ (by omega) hx
    · rfl

theorem map (h : IsDraftOf x need draft) (f : α → β) :
    IsDraftOf (f <$> x) need (f <$> draft) where
  fits room hroom := by
    have hdraft := h.fits room hroom
    change f <$> draft room = _
    rw [hdraft]
    cases x <;> rfl
  overflows room hroom hx := by
    obtain ⟨_, hx⟩ := hx
    obtain ⟨a, ha, _⟩ := map_eq_ok_iff.mp hx
    change f <$> draft room = _
    rw [h.overflows room hroom ⟨a, ha⟩]
    rfl

theorem bind_pure (h : IsDraftOf x need draft) (f : α → β) :
    IsDraftOf (x >>= fun a ↦ Pure.pure (f a)) need (draft >>= fun a ↦ Pure.pure (f a)) := by
  simpa only [map_eq_pure_bind] using h.map f

theorem bind {f : α → Draft β} {g : α → Except Unrecognized β} {more : Nat}
    (h : IsDraftOf x need draft) (hf : ∀ a, IsDraftOf (g a) more (f a)) :
    IsDraftOf (x >>= g) (max need more) (draft >>= f) where
  fits room hroom := by
    have hdraft := h.fits room (by omega)
    change (draft room >>= fun a ↦ f a room) = _
    rw [hdraft]
    cases x with
    | error u => rfl
    | ok a => exact (hf a).fits room (by omega)
  overflows room hroom hx := by
    obtain ⟨b, hb⟩ := hx
    obtain ⟨a, rfl, hga⟩ := bind_eq_ok_iff.mp hb
    change (draft room >>= fun a ↦ f a room) = _
    by_cases hneed : need ≤ room
    · rw [h.fits room hneed]
      exact (hf a).overflows room (by omega) ⟨b, hga⟩
    · rw [h.overflows room (by omega) ⟨a, rfl⟩]
      rfl

end IsDraftOf

/-- The most that an item of the list needs. -/
def most {α : Type} (need : α → Nat) : List α → Nat
  | [] => 0
  | x :: rest => max (need x) (most need rest)

theorem most_max {α : Type} (f g : α → Nat) (xs : List α) :
    max (most f xs) (most g xs) = most (fun x ↦ max (f x) (g x)) xs := by
  induction xs with
  | nil => rfl
  | cons x rest ih =>
      simp only [most, ← ih]
      omega

theorem isDraftOf_lineEach {α : Type} {f : α → Except Unrecognized String}
    {g : α → Draft String} {need : α → Nat} (h : ∀ x, IsDraftOf (f x) (need x) (g x))
    (xs : List α) : IsDraftOf (lineEach f xs) (most need xs) (xs.mapM g) := by
  induction xs with
  | nil => exact .pure []
  | cons x rest ih =>
      rw [List.mapM_cons]
      exact (h x).bind fun line ↦ ih.bind_pure (line :: ·)

/-! ## Fields -/

section Field

variable {k : String} {y : Except Unrecognized String} {z : Except Unrecognized (List String)}
  {a b c : Nat} {key type : Draft String} {others : Draft (List String)}

theorem IsDraftOf.field (hkey : IsDraftOf (.ok k) a key) (htype : IsDraftOf y b type)
    (hothers : IsDraftOf z c others) :
    IsDraftOf (do let s ← y; let fields ← z; return fieldText k s :: fields)
      (max (max a b) c) (Calls.draftField key type others) := by
  rw [Nat.max_assoc]
  exact hkey.bind (g := fun k ↦ do let s ← y; let fields ← z; return fieldText k s :: fields)
    fun k ↦ htype.bind fun s ↦ hothers.bind_pure (fieldText k s :: ·)

end Field

/-! ## Leaves -/

section Leaf

variable {d : Direction} {t : EvmType}

theorem typeText_eq_elim (h : t.IsLeaf) :
    typeText d t = (leaf? d t).elim (.error t) .ok := by
  cases t with
  | array item size => exact absurd h (EvmType.not_isLeaf_array item size)
  | tuple components => exact absurd h (EvmType.not_isLeaf_tuple components)
  | _ =>
      rw [typeText]
      · cases leaf? d _ <;> rfl
      all_goals simp

theorem draftType_eq_elim (calls : Calls) (h : t.IsLeaf) : calls.draftType d t =
    within calls.node ((leaf? d t).elim (throw (.unrecognized ⟨t, d⟩)) pure) := by
  cases t with
  | array item size => exact absurd h (EvmType.not_isLeaf_array item size)
  | tuple components => exact absurd h (EvmType.not_isLeaf_tuple components)
  | _ =>
      rw [Calls.draftType]
      · cases leaf? d _ <;> rfl
      all_goals simp

end Leaf

namespace Calls

/-! ## What names and types need -/

variable (calls : Calls)

mutual

def forType : EvmType → Nat
  | .array item _ => calls.node + forType item
  | .tuple components => calls.node + calls.tuple + forComponents components
  | _ => calls.node
termination_by structural t => t

def forComponents : Components → Nat
  | [] => 0
  | (name, t) :: rest => max (max (calls.forName name) (forType t)) (forComponents rest)
termination_by structural cs => cs

end

/-- A parameter without a name is called after its position, which needs no calls. -/
def forKey (p : Parameter) : Nat := if p.name.isVacant then 0 else calls.forName p.name

def forField (p : Parameter) : Nat := max (calls.forKey p) (calls.forType p.type)

theorem isDraftOf_draftName (name : Json.Value) :
    IsDraftOf (.ok name.display) (calls.forName name) (calls.draftName name) :=
  (IsDraftOf.pure name.display).within (calls.forName name)

theorem isDraftOf_draftComponents (d : Direction) {components : Components}
    (h : ∀ c ∈ components, IsDraftOf ((typeText d c.2).mapError (⟨·, d⟩)) (calls.forType c.2)
      (calls.draftType d c.2)) :
    IsDraftOf ((componentTexts d components).mapError (⟨·, d⟩)) (calls.forComponents components)
      (calls.draftComponents d components) := by
  induction components with
  | nil => exact .pure []
  | cons c rest ih =>
      obtain ⟨hc, hrest⟩ := List.forall_mem_cons.mp h
      have hfield := (calls.isDraftOf_draftName c.1).field hc (ih hrest)
      simp only [componentTexts, mapError_bind, mapError_pure]
      exact hfield

theorem forType_of_isLeaf {t : EvmType} (h : t.IsLeaf) : calls.forType t = calls.node := by
  cases t with
  | array item size => exact absurd h (EvmType.not_isLeaf_array item size)
  | tuple components => exact absurd h (EvmType.not_isLeaf_tuple components)
  | _ => rfl

theorem isDraftOf_draftType (d : Direction) (t : EvmType) :
    IsDraftOf ((typeText d t).mapError (⟨·, d⟩)) (calls.forType t) (calls.draftType d t) := by
  induction t using EvmType.treeInduction with
  | leaf t hleaf =>
      rw [typeText_eq_elim hleaf, calls.forType_of_isLeaf hleaf, draftType_eq_elim calls hleaf]
      cases leaf? d t with
      | none => exact (IsDraftOf.throw ⟨t, d⟩).within calls.node
      | some s => exact (IsDraftOf.pure s).within calls.node
  | array item size ih =>
      rw [typeText, mapError_map]
      exact (ih.map arrayText).within calls.node
  | tuple components ih =>
      rw [typeText, mapError_map]
      exact ((calls.isDraftOf_draftComponents d ih).map recordText).within _

/-! ## What members need -/

def forInputs (ps : List Parameter) : Nat := calls.inputs + most calls.forField ps

/-- A single output is written without its name. -/
def forOutputs : List Parameter → Nat
  | [p] => calls.outputs + calls.forType p.type
  | ps => calls.outputs + most calls.forField ps

def forMethod (m : Method) : Nat :=
  max (calls.forInputs m.inputs) (max (calls.forOutputs m.outputs)
    (calls.member + calls.forName m.name))

def forConstant (c : Constant) : Nat :=
  max (calls.member + calls.forName c.name) (calls.member + calls.forType c.output)

def forEvent (e : Event) : Nat :=
  max (calls.forOutputs e.parameters) (calls.member + calls.forName e.name)

theorem isDraftOf_draftInputFields (position : Nat) (ps : List Parameter) :
    IsDraftOf (inputFields position ps) (most calls.forField ps)
      (calls.draftInputFields position ps) := by
  induction ps generalizing position with
  | nil => exact .pure []
  | cons p rest ih =>
      have hkey : IsDraftOf (.ok (shownName position p)) (calls.forKey p)
          (calls.draftShownName position p) := by
        rw [shownName, forKey, draftShownName]
        split_ifs
        · exact .pure _
        · exact calls.isDraftOf_draftName p.name
      exact hkey.field (calls.isDraftOf_draftType .input p.type) (ih (position + 1))

theorem isDraftOf_draftNamedFields (ps : List Parameter) :
    IsDraftOf (namedFields ps)
      (most (fun p ↦ if p.name.isVacant then 0 else calls.forField p) ps)
      (calls.draftNamedFields ps) := by
  induction ps with
  | nil => exact .pure []
  | cons p rest ih =>
      rw [namedFields, most, draftNamedFields]
      split_ifs with hvacant
      · rwa [Nat.zero_max]
      · rw [forField, forKey, if_neg hvacant]
        exact (calls.isDraftOf_draftName p.name).field (calls.isDraftOf_draftType .output p.type) ih

theorem isDraftOf_draftPositionFields (position : Nat) (ps : List Parameter) :
    IsDraftOf (positionFields position ps) (most (fun p ↦ calls.forType p.type) ps)
      (calls.draftPositionFields position ps) := by
  induction ps generalizing position with
  | nil => exact .pure []
  | cons p rest ih =>
      have hfield := (IsDraftOf.pure (toString position)).field
        (calls.isDraftOf_draftType .output p.type) (ih (position + 1))
      rwa [Nat.zero_max] at hfield

theorem isDraftOf_draftInputs (ps : List Parameter) :
    IsDraftOf (inputsText ps) (calls.forInputs ps) (calls.draftInputs ps) :=
  ((calls.isDraftOf_draftInputFields 0 ps).map (", ".intercalate ·)).within calls.inputs

theorem isDraftOf_draftOutputs (ps : List Parameter) :
    IsDraftOf (outputsText ps) (calls.forOutputs ps) (calls.draftOutputs ps) := by
  have hmost : max (most (fun p ↦ if p.name.isVacant then 0 else calls.forField p) ps)
      (most (fun p ↦ calls.forType p.type) ps) = most calls.forField ps := by
    rw [most_max]
    congr 1
    funext p
    split_ifs with hvacant
    · rw [forField, forKey, if_pos hvacant]
    · exact Nat.max_eq_left (Nat.le_max_right _ _)
  have hrecord : IsDraftOf (do
        let named ← namedFields ps
        let byPosition ← positionFields 0 ps
        return recordText (named ++ byPosition)) (calls.outputs + most calls.forField ps)
      (within calls.outputs do
        let named ← calls.draftNamedFields ps
        let byPosition ← calls.draftPositionFields 0 ps
        return recordText (named ++ byPosition)) := by
    rw [← hmost]
    exact ((calls.isDraftOf_draftNamedFields ps).bind fun named ↦
      (calls.isDraftOf_draftPositionFields 0 ps).bind_pure fun byPosition ↦
        recordText (named ++ byPosition)).within calls.outputs
  match ps with
  | [] => exact hrecord
  | [p] => exact (calls.isDraftOf_draftType .output p.type).within calls.outputs
  | _ :: _ :: _ => exact hrecord

theorem isDraftOf_draftMemberName (name : Json.Value) :
    IsDraftOf (.ok name.display) (calls.member + calls.forName name)
      (calls.draftMemberName name) :=
  (calls.isDraftOf_draftName name).within calls.member

theorem isDraftOf_draftMethod (m : Method) :
    IsDraftOf (methodLine m) (calls.forMethod m) (calls.draftMethod m) :=
  (calls.isDraftOf_draftInputs m.inputs).bind fun inputs ↦
    (calls.isDraftOf_draftOutputs m.outputs).bind fun outputs ↦
      (calls.isDraftOf_draftMemberName m.name).bind_pure fun name ↦ memberLine name inputs outputs

theorem isDraftOf_draftConstant (c : Constant) :
    IsDraftOf (constantLine c) (calls.forConstant c) (calls.draftConstant c) := by
  rw [constantLine, map_eq_pure_bind]
  exact (calls.isDraftOf_draftMemberName c.name).bind
    (g := fun name ↦ do let output ← outputType c.output; return memberLine name "" output)
    fun name ↦ ((calls.isDraftOf_draftType .output c.output).within calls.member).bind_pure
      (memberLine name "")

theorem isDraftOf_draftEvent (e : Event) :
    IsDraftOf (eventLine e) (calls.forEvent e) (calls.draftEvent e) :=
  (calls.isDraftOf_draftOutputs e.parameters).bind fun payload ↦
    (calls.isDraftOf_draftMemberName e.name).bind_pure fun name ↦
      name ++ ": ContractEvent<" ++ payload ++ ">;"

end Calls

/-! ## Lines at their level -/

section Level

variable (unit : String) (level : Int)

theorem run_indented (line : String) :
    (indented unit line).run level = pure (indentation unit level ++ line, level) := rfl

theorem run_mapM_indented (lines : List String) :
    (lines.mapM (indented unit)).run level = pure (indent unit level lines, level) := by
  induction lines with
  | nil => rfl
  | cons line rest ih =>
      simp only [List.mapM_cons, StateT.run_bind, StateT.run_pure, run_indented, ih, pure_bind]
      rfl

/-- A block ends at the level at which it began. -/
theorem run_layBlock (opening closing : String) (lines : List String) :
    (layBlock unit opening closing lines).run level =
      pure ((indentation unit level ++ opening) ::
        (indent unit (level + 1) lines ++ [indentation unit level ++ closing]), level) := by
  simp only [layBlock, StateT.run_bind, StateT.run_modify, StateT.run_pure, run_indented,
    run_mapM_indented, pure_bind, Int.add_sub_cancel, List.cons_append]

/-- The class stands at level zero, so its blocks stand at level one and the members at two. -/
theorem layDocument_eq (name : String) (methods events : List String) :
    layDocument unit name methods events = documentLines unit name methods events := by
  simp only [layDocument, layClass, StateT.run_bind, StateT.run_modify, StateT.run_pure,
    run_indented, run_layBlock, pure_bind, documentLines]
  simp [indent, pure]

end Level

/-! ## Documents -/

namespace Calls

/-- The calls that the document of a contract needs. -/
def forContract (calls : Calls) (c : Contract) : Nat :=
  max (most calls.forMethod c.readOnlyMethods) (max (most calls.forMethod c.methods)
    (max (most calls.forConstant c.constants) (max (most calls.forEvent c.events) calls.layout)))

theorem isDraftOf_draftDocument (calls : Calls) (unit : String) (c : Contract) :
    IsDraftOf (contractDocument unit c) (calls.forContract c) (calls.draftDocument unit c) := by
  have hdocument : contractDocument unit c = (do
      let readOnly ← lineEach methodLine c.readOnlyMethods
      let others ← lineEach methodLine c.methods
      let constants ← lineEach constantLine c.constants
      let events ← lineEach eventLine c.events
      pure (joinLines (layDocument unit c.name (readOnly ++ others ++ constants) events))) := by
    simp only [contractDocument, contractLines, methodLines, eventLines, map_eq_pure_bind,
      bind_assoc, pure_bind, layDocument_eq]
  rw [hdocument]
  exact (isDraftOf_lineEach calls.isDraftOf_draftMethod c.readOnlyMethods).bind fun readOnly ↦
    (isDraftOf_lineEach calls.isDraftOf_draftMethod c.methods).bind fun others ↦
      (isDraftOf_lineEach calls.isDraftOf_draftConstant c.constants).bind fun constants ↦
        (isDraftOf_lineEach calls.isDraftOf_draftEvent c.events).bind fun events ↦
          (IsDraftOf.pure _).within calls.layout

end Calls

/-- What can be written is drafted wherever its calls fit, and fails in no other way. -/
theorem exists_draftDocument (unit : String) {c : Contract} (h : c.IsWellTyped) :
    ∃ text, contractDocument unit c = .ok text ∧ ∀ (calls : Calls) (room : Nat),
      calls.draftDocument unit c room =
        if calls.forContract c ≤ room then .ok text else .error .tooDeep := by
  obtain ⟨text, htext⟩ := exists_contractDocument unit h
  refine ⟨text, htext, fun calls room ↦ ?_⟩
  have hdraft := calls.isDraftOf_draftDocument unit c
  split_ifs with hroom
  · rw [hdraft.fits room hroom, htext]
    rfl
  · exact hdraft.overflows room (Nat.lt_of_not_le hroom) ⟨text, htext⟩

/-- A contract that is read, with or without a collector, has a document. Drafting it gives this
document wherever the calls that its names and types need fit, and for want of room is the only
way to fail: no foreign node is in its types and void is nowhere but in the place of a method's
only output. -/
theorem draftDocument_of_collectContract {d : Collector} {file rawName : String}
    {abi : List Json.Value} {c : Contract}
    (h : (Abi.collectContract d file abi rawName).2 = .ok c) (unit : String) :
    (∃ text, contractDocument unit c = .ok text ∧ ∀ (calls : Calls) (room : Nat),
      calls.draftDocument unit c room =
        if calls.forContract c ≤ room then .ok text else .error .tooDeep) ∧
      c.IsWellTyped ∧ ∀ t ∈ c.types, ∀ n ∈ t.subtrees, ∀ node, n ≠ .foreign node := by
  have hwell := isWellTyped_of_collectContract h
  exact ⟨exists_draftDocument unit hwell, hwell, fun t ht n hn ↦ hwell.noForeign ht hn⟩

/-- A method that takes an array of tuples and gives nothing back, a constant, and an event. -/
def vaultAbi : List Json.Value :=
  let amount : Json.Value := .object [("name", .text "amount"), ("type", .text "uint256")]
  let route : Json.Value := .object [("type", .text "tuple[2][]"),
    ("components", .list [amount, .object [("type", .text "address")]])]
  [.object [("name", .text "deposit"), ("inputs", .list [route])],
    .object [("name", .text "total"), ("constant", .bool true), ("outputs", .list [amount])],
    .object [("type", .text "event"), ("name", .text "Paid"), ("inputs", .list [route, amount])]]

theorem draftDocument_vault :
    ∃ c, (Abi.collectContract (some []) "vault.json" vaultAbi "vault").2 = .ok c ∧
      (∃ text, contractDocument defaultUnit c = .ok text ∧
        Calls.counted.draftDocument defaultUnit c callLimit = .ok text) ∧ c.IsWellTyped ∧
        ∀ t ∈ c.types, ∀ n ∈ t.subtrees, ∀ node, n ≠ .foreign node := by
  have hfits : ((Abi.collectContract (some []) "vault.json" vaultAbi "vault").2.toOption.any
      fun c ↦ decide (Calls.counted.forContract c ≤ callLimit)) = true := by
    decide +kernel
  cases h : (Abi.collectContract (some []) "vault.json" vaultAbi "vault").2 with
  | error p =>
      rw [h] at hfits
      cases hfits
  | ok c =>
      rw [h] at hfits
      obtain ⟨⟨text, htext, hdraft⟩, hwell, hforeign⟩ :=
        draftDocument_of_collectContract h defaultUnit
      refine ⟨c, rfl, ⟨text, htext, ?_⟩, hwell, hforeign⟩
      rw [hdraft, if_pos (of_decide_eq_true hfits)]

/-! ## A type that does not fit -/

/-- The text of a type of so many arrays, one around the other. -/
def nestedType (n : Nat) : List Char := "bool".toList ++ (List.replicate n ['[', ']']).flatten

theorem mem_nestedType {n : Nat} {c : Char} (h : c ∈ nestedType n) : c ∈ "bool[]".toList := by
  rw [nestedType, List.mem_append, List.mem_flatten] at h
  rcases h with h | ⟨cs, hcs, hc⟩
  · exact List.mem_append_left "[]".toList h
  · rw [List.eq_of_mem_replicate hcs] at hc
    exact List.mem_append_right "bool".toList hc

theorem derives_nestedType (n : Nat) :
    TypeString.Derives none (nestedType n)
      (TypeString.arraysOf .bool (List.replicate n none)) := by
  have hgap : TypeString.IsGap [] := by simp [TypeString.IsGap]
  have hsuffixes : TypeString.WritesSuffixes (List.replicate n none)
      (List.replicate n ['[', ']']).flatten := by
    induction n with
    | zero => exact .nil hgap
    | succ n ih => exact .dynamic hgap hgap ih
  exact ⟨[], "bool".toList, _, .bool, _, rfl, hgap, .bool, hsuffixes, rfl⟩

theorem typeOfString_nestedType (n : Nat) :
    Abi.typeOfString (String.ofList (nestedType n)) none =
      .ok (TypeString.arraysOf .bool (List.replicate n none)) := by
  have hlimit : ¬ TypeString.HasLongRun (String.ofList (nestedType n)) := by
    rintro ⟨run, hrun, hdigits, hlong⟩
    rw [String.toList_ofList] at hrun
    obtain ⟨c, hc⟩ := List.exists_mem_of_length_pos (Nat.zero_lt_of_lt hlong)
    have hnone : "bool[]".toList.all (!Text.isAsciiDigit ·) = true := by decide
    have hother := List.all_eq_true.mp hnone c (mem_nestedType (hrun.subset hc))
    rw [List.all_eq_true.mp hdigits c hc] at hother
    cases hother
  refine ((Abi.typeOfString_eq_ok_iff_derives hlimit none).1 _).mpr ?_
  rw [String.toList_ofList]
  exact derives_nestedType n

theorem Calls.forType_arraysOf (calls : Calls) (t : EvmType) (sizes : List (Option Int)) :
    calls.forType (TypeString.arraysOf t sizes) = calls.node * sizes.length + calls.forType t := by
  induction sizes generalizing t with
  | nil => simp [TypeString.arraysOf]
  | cons size rest ih =>
      have harray : calls.forType (.array t size) = calls.node + calls.forType t := rfl
      rw [TypeString.arraysOf, List.foldl_cons, ← TypeString.arraysOf, ih, harray,
        List.length_cons, Nat.mul_succ]
      omega

/-- A function that takes enough arrays, one around the other, is read but not drafted. -/
theorem exists_contract_of_nestedType {n : Nat} (hn : 496 ≤ n) :
    ∃ abi c, Abi.ofText (String.ofList (Abi.inputText (nestedType n))) = .ok abi ∧
      (Abi.collectContract none "" abi "Deep").2 = .ok c ∧
      Calls.counted.draftDocument defaultUnit c callLimit = .error .tooDeep := by
  have hquotable : (nestedType n).all isQuotable = true := by
    have hall : "bool[]".toList.all isQuotable = true := by decide
    exact List.all_eq_true.mpr fun c hc ↦ List.all_eq_true.mp hall c (mem_nestedType hc)
  have hname : Abi.className "Deep" = .ok "Deep" := by
    have hchars : Abi.classNameChars "Deep".toList = "Deep".toList := by decide
    rw [Abi.className, hchars]
    rfl
  let t := TypeString.arraysOf .bool (List.replicate n none)
  let c : Contract := ⟨"Deep", [Abi.inputMethod t], [], [], []⟩
  have hread : (Abi.collectContract none "" [Abi.inputEntry (nestedType n)] "Deep").2 =
      .ok c := by
    rw [Abi.collectContract_eq, Abi.readContract_inputEntry _ hname, typeOfString_nestedType]
    rfl
  have htype : Calls.counted.forType t = 2 * n + 2 := by
    rw [Calls.forType_arraysOf, List.length_replicate]
    rfl
  have hinputs : Calls.counted.inputs = 7 := rfl
  have hneed : callLimit < Calls.counted.forContract c := by
    simp only [Calls.forContract, c, most, Calls.forMethod, Calls.forInputs, Abi.inputMethod,
      Calls.forField, htype, hinputs, callLimit]
    omega
  have hwell := isWellTyped_of_collectContract hread
  obtain ⟨text, _, hdraft⟩ := exists_draftDocument defaultUnit hwell
  refine ⟨_, c, Abi.ofText_inputText hquotable, hread, ?_⟩
  rw [hdraft, if_neg (Nat.not_le.mpr hneed)]

/-- An ABI of one function that takes 5000 arrays, one around the other, is read as a contract,
but the calls that write its document do not fit. -/
theorem draftDocument_overflows_of_nestedType :
    ∃ abi c, Abi.ofText (String.ofList (Abi.inputText (nestedType 5000))) = .ok abi ∧
      (Abi.collectContract none "" abi "Deep").2 = .ok c ∧
      Calls.counted.draftDocument defaultUnit c callLimit = .error .tooDeep :=
  exists_contract_of_nestedType (by decide)

end AbiTypings.TypeScript
