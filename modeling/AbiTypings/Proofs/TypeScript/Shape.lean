import AbiTypings.Proofs.TypeScript.Writable

/-!
# What the text of a type tells

The text of a type keeps its shape: which leaves are told apart in the direction, how they stand
in arrays and tuples, and the names of the components. Sizes are forgotten. Two types with plain
names have one text in a direction exactly when they have one shape in it.
-/

namespace AbiTypings

open Outcome

/-! ## Shapes -/

namespace EvmType

/-- One leaf for all those that are written alike. -/
def leafShape : Direction → EvmType → EvmType
  | _, int _ => uint 256
  | _, uint _ => uint 256
  | _, address => string
  | .input, fixedBytes _ => bytes
  | .output, fixedBytes _ => string
  | .output, bytes => string
  | _, t => t

mutual

def shape (d : Direction) : EvmType → EvmType
  | array item _ => array (item.shape d) none
  | tuple components => tuple (componentShapes d components)
  | t => t.leafShape d
termination_by structural t => t

def componentShapes (d : Direction) : Components → Components
  | [] => []
  | (name, t) :: rest => (name, t.shape d) :: componentShapes d rest
termination_by structural cs => cs

end

section Shape

variable (d : Direction)

@[simp] theorem shape_array (item : EvmType) (size : Option Int) :
    (array item size).shape d = array (item.shape d) none := rfl

@[simp] theorem shape_tuple (components : Components) :
    (tuple components).shape d = tuple (componentShapes d components) := rfl

theorem componentShapes_output {components : Components}
    (h : ∀ c ∈ components, (c.2.shape .input).shape .output = c.2.shape .output) :
    componentShapes .output (componentShapes .input components) =
      componentShapes .output components := by
  induction components with
  | nil => rfl
  | cons c rest ih =>
      obtain ⟨hc, hrest⟩ := List.forall_mem_cons.mp h
      simp only [componentShapes, hc, ih hrest]

theorem shape_output (t : EvmType) : (t.shape .input).shape .output = t.shape .output := by
  induction t using treeInduction with
  | leaf t hleaf => cases t <;> simp_all [shape, leafShape]
  | array item size ih => simp only [shape_array, ih]
  | tuple components ih => simp only [shape_tuple, componentShapes_output ih]

end Shape

theorem leaf_or_array_or_tuple (t : EvmType) :
    t.IsLeaf ∨ (∃ item size, t = array item size) ∨ ∃ components, t = tuple components := by
  by_cases harray : ∃ item size, t = array item size
  · exact Or.inr (Or.inl harray)
  · by_cases htuple : ∃ components, t = tuple components
    · exact Or.inr (Or.inr htuple)
    · refine Or.inl ⟨fun item size h ↦ harray ⟨item, size, h⟩, fun components h ↦ ?_⟩
      exact htuple ⟨components, h⟩

end EvmType

/-- A name made of letters, digits, low lines and dollar signs. -/
def IsPlainName (v : Json.Value) : Prop :=
  ∃ s : String, v = .text s ∧ s ≠ "" ∧
    ∀ c ∈ s.toList, (c.isAlphanum || c == '_' || c == '$') = true

def EvmType.HasPlainNames (t : EvmType) : Prop := ∀ v ∈ t.names, IsPlainName v

namespace TypeScript

open EvmType

variable {d : Direction} {t u : EvmType} {s s' : String} {r r' : List Char}

/-! ## One shape, one text -/

theorem componentTexts_shapes {components : Components}
    (h : ∀ c ∈ components, typeText d (c.2.shape d) = typeText d c.2) :
    componentTexts d (componentShapes d components) = componentTexts d components := by
  induction components with
  | nil => rfl
  | cons c rest ih =>
      obtain ⟨hc, hrest⟩ := List.forall_mem_cons.mp h
      simp only [componentShapes, componentTexts, hc, ih hrest]

theorem typeText_shape (d : Direction) (t : EvmType) : typeText d (t.shape d) = typeText d t := by
  induction t using treeInduction with
  | leaf t hleaf => cases d <;> cases t <;> first | rfl | simp at hleaf
  | array item size ih => simp only [shape_array, typeText, ih]
  | tuple components ih => simp only [shape_tuple, typeText, componentTexts_shapes ih]

/-! ## The texts of leaves -/

/-- What may follow a type: anything but one more alternative. -/
def EndsType (rest : List Char) : Prop := ∀ others, rest ≠ ' ' :: '|' :: others

theorem endsType_nil : EndsType [] := by simp [EndsType]

theorem endsType_cons {c : Char} (hc : c ≠ ' ') (rest : List Char) : EndsType (c :: rest) := by
  simp [EndsType, hc]

def leafTexts : Direction → List (String × EvmType)
  | .input => [("number | string", .uint 256), ("string", .string), ("string | number[]", .bytes),
      ("boolean", .bool)]
  | .output => [("BN", .uint 256), ("string", .string), ("boolean", .bool), ("void", .void)]

theorem mem_leafTexts (hleaf : t.IsLeaf) (h : typeText d t = .ok s) :
    (s, t.shape d) ∈ leafTexts d := by
  cases d <;> cases t <;>
    simp_all [typeText, leaf?, inputLeaf?, outputLeaf?, shape, leafShape, leafTexts]

/-- A text of a leaf that begins with another goes on with an alternative. -/
theorem leafTexts_append {p q : String × EvmType} {more : List Char} (hp : p ∈ leafTexts d)
    (hq : q ∈ leafTexts d) (h : p.1.toList ++ more = q.1.toList) :
    p = q ∧ more = [] ∨ ∃ others, more = ' ' :: '|' :: others := by
  cases d <;> simp only [leafTexts, List.mem_cons, List.not_mem_nil, or_false] at hp hq <;>
    rcases hp with rfl | rfl | rfl | rfl <;> rcases hq with rfl | rfl | rfl | rfl <;>
    simp_all

theorem leafTexts_injective {p q : String × EvmType} (hp : p ∈ leafTexts d)
    (hq : q ∈ leafTexts d) (hr : EndsType r) (hr' : EndsType r')
    (h : p.1.toList ++ r = q.1.toList ++ r') : p = q ∧ r = r' := by
  rcases List.append_eq_append_iff.mp h with ⟨more, hmore, hrest⟩ | ⟨more, hmore, hrest⟩
  · rcases leafTexts_append hp hq hmore.symm with ⟨rfl, rfl⟩ | ⟨others, rfl⟩
    · exact ⟨rfl, hrest⟩
    · exact absurd hrest (hr _)
  · rcases leafTexts_append hq hp hmore.symm with ⟨rfl, rfl⟩ | ⟨others, rfl⟩
    · exact ⟨rfl, hrest.symm⟩
    · exact absurd hrest (hr' _)

/-! ## Arrays and tuples -/

theorem toList_arrayText (s : String) :
    (arrayText s).toList = '(' :: (s.toList ++ [')', '[', ']']) := by
  simp [arrayText]

/-- What stands behind a field of a record: the fields after it and the closing brace. -/
def behindField : List String → List Char
  | [] => [' ', '\x7d']
  | field :: rest => ',' :: ' ' :: (field.toList ++ behindField rest)

/-- What stands behind a field of a list: the fields after it and what closes the list. -/
def behindFields (fields : List String) (close : List Char) : List Char :=
  fields.foldr (fun field more ↦ ',' :: ' ' :: (field.toList ++ more)) close

theorem behindField_append (fields : List String) (r : List Char) :
    behindField fields ++ r = behindFields fields (' ' :: '\x7d' :: r) := by
  induction fields with
  | nil => rfl
  | cons field rest ih =>
      calc
        behindField (field :: rest) ++ r =
            ',' :: ' ' :: (field.toList ++ (behindField rest ++ r)) := by simp [behindField]
        _ = behindFields (field :: rest) (' ' :: '\x7d' :: r) := by rw [ih]; rfl

theorem toList_intercalate_cons (field : String) (rest : List String) (close : List Char) :
    (", ".intercalate (field :: rest)).toList ++ close =
      field.toList ++ behindFields rest close := by
  induction rest generalizing field with
  | nil => rw [String.intercalate_singleton]; rfl
  | cons next rest ih =>
      rw [String.intercalate_cons_cons, String.toList_append, List.append_assoc, ih next]
      simp [behindFields]

theorem toList_recordText_cons (field : String) (rest : List String) :
    (recordText (field :: rest)).toList =
      '\x7b' :: ' ' :: (field.toList ++ behindField rest) := by
  have hfields := toList_intercalate_cons field rest [' ', '\x7d']
  rw [← behindField_append, List.append_nil] at hfields
  simp only [recordText, String.toList_append, List.append_assoc]
  rw [← hfields]
  simp

theorem behindField_eq_of_recordText {fields fields' : List String}
    (h : (recordText fields).toList ++ r = (recordText fields').toList ++ r') :
    behindField fields ++ r = behindField fields' ++ r' := by
  have hempty : (recordText []).toList = ['\x7b', '\x7d'] := by simp [recordText]
  cases fields with
  | nil =>
      cases fields' with
      | nil => simpa [hempty, behindField] using h
      | cons field rest => simp [hempty, toList_recordText_cons] at h
  | cons field rest =>
      cases fields' with
      | nil => simp [hempty, toList_recordText_cons] at h
      | cons field' rest' =>
          rw [toList_recordText_cons, toList_recordText_cons] at h
          simpa [behindField] using h

theorem append_cons_injective {a b x y : List Char} {c : Char} (ha : c ∉ a) (hb : c ∉ b)
    (h : a ++ c :: x = b ++ c :: y) : a = b ∧ x = y := by
  induction a generalizing b with
  | nil =>
      cases b with
      | nil => exact ⟨rfl, (List.cons.inj h).2⟩
      | cons head b =>
          obtain ⟨rfl, _⟩ := List.cons.inj h
          exact absurd List.mem_cons_self hb
  | cons head a ih =>
      cases b with
      | nil =>
          obtain ⟨rfl, _⟩ := List.cons.inj h
          exact absurd List.mem_cons_self ha
      | cons head' b =>
          obtain ⟨rfl, htail⟩ := List.cons.inj h
          obtain ⟨rfl, rfl⟩ := ih (List.not_mem_of_not_mem_cons ha)
            (List.not_mem_of_not_mem_cons hb) htail
          exact ⟨rfl, rfl⟩

theorem notMem_of_isPlainName {c : Char} (h : IsPlainName (.text s))
    (hc : (c.isAlphanum || c == '_' || c == '$') = false) : c ∉ s.toList := by
  obtain ⟨_, htext, _, hs⟩ := h
  obtain rfl := Json.Value.text.inj htext
  intro hmem
  rw [hs c hmem] at hc
  cases hc

theorem text_display {v : Json.Value} (h : IsPlainName v) : .text v.display = v := by
  obtain ⟨s, rfl, _⟩ := h
  rfl

/-! ## One text, one shape -/

/-- The first character tells arrays from tuples, and both from leaves. -/
theorem exists_head_of_typeText (h : typeText d t = .ok s) :
    ∃ c rest, s.toList = c :: rest ∧ (c = '(' ↔ ∃ item size, t = .array item size) ∧
      (c = '\x7b' ↔ ∃ components, t = .tuple components) := by
  rcases leaf_or_array_or_tuple t with hleaf | ⟨item, size, rfl⟩ | ⟨components, rfl⟩
  · have hmem := mem_leafTexts hleaf h
    have hnot : (¬ ∃ item size, t = .array item size) ∧ ¬ ∃ components, t = .tuple components := by
      constructor
      · rintro ⟨item, size, rfl⟩
        exact not_isLeaf_array item size hleaf
      · rintro ⟨components, rfl⟩
        exact not_isLeaf_tuple components hleaf
    simp only [hnot.1, hnot.2, iff_false]
    cases d <;> simp only [leafTexts, List.mem_cons, Prod.mk.injEq, List.not_mem_nil] at hmem <;>
      rcases hmem with ⟨rfl, _⟩ | ⟨rfl, _⟩ | ⟨rfl, _⟩ | ⟨rfl, _⟩ | hfalse <;> simp_all
  · obtain ⟨inner, _, rfl⟩ := map_eq_ok_iff.mp h
    exact ⟨'(', _, toList_arrayText inner, by simp, by simp⟩
  · obtain ⟨fields, _, rfl⟩ := map_eq_ok_iff.mp h
    cases fields with
    | nil => exact ⟨'\x7b', ['\x7d'], by simp [recordText], by simp, by simp⟩
    | cons field rest => exact ⟨'\x7b', _, toList_recordText_cons field rest, by simp, by simp⟩

theorem same_node (hs : typeText d t = .ok s) (hs' : typeText d u = .ok s')
    (h : s.toList ++ r = s'.toList ++ r') :
    ((∃ item size, t = .array item size) ↔ ∃ item size, u = .array item size) ∧
      ((∃ components, t = .tuple components) ↔ ∃ components, u = .tuple components) := by
  obtain ⟨c, rest, hc, harray, htuple⟩ := exists_head_of_typeText hs
  obtain ⟨c', rest', hc', harray', htuple'⟩ := exists_head_of_typeText hs'
  rw [hc, hc'] at h
  obtain ⟨rfl, _⟩ := List.cons.inj h
  exact ⟨harray.symm.trans harray', htuple.symm.trans htuple'⟩

/-- Text of the type `t` is read off the front of a longer text in one way. -/
def IsDecodable (d : Direction) (t : EvmType) : Prop :=
  ∀ (u : EvmType) (s s' : String) (r r' : List Char), typeText d t = .ok s →
    typeText d u = .ok s' → t.HasPlainNames → u.HasPlainNames → EndsType r → EndsType r' →
      s.toList ++ r = s'.toList ++ r' → t.shape d = u.shape d ∧ r = r'

/-- A plain key over a type with plain names. -/
structure Slot.IsPlain (slot : Slot) : Prop where
  key : IsPlainName (.text slot.key)
  type : slot.type.HasPlainNames

/-- The same key, over types of one shape. -/
structure Slot.IsLike (d : Direction) (slot slot' : Slot) : Prop where
  key : slot.key = slot'.key
  shape : slot.type.shape d = slot'.type.shape d

/-- What may follow a list of fields: neither an alternative of the last type nor a field. -/
structure ClosesFields (close : List Char) : Prop where
  endsType : EndsType close
  noField : ∀ rest, close ≠ ',' :: rest

theorem ClosesFields.endsType_behindFields {close : List Char} (h : ClosesFields close)
    (fields : List String) : EndsType (behindFields fields close) := by
  cases fields with
  | nil => exact h.endsType
  | cons field rest => exact endsType_cons (by decide) _

section Fields

variable {slot slot' : Slot} {field field' : Field} {slots slots' : List Slot}
  {fields fields' : List Field} {close close' : List Char}

theorem like_of_field (hdecodable : IsDecodable d slot.type) (hplain : slot.IsPlain)
    (hplain' : slot'.IsPlain) (hfield : slot.IsWrittenAs d field)
    (hfield' : slot'.IsWrittenAs d field') (hr : EndsType r) (hr' : EndsType r')
    (h : field.text.toList ++ r = field'.text.toList ++ r') : slot.IsLike d slot' ∧ r = r' := by
  have hkeys : slot.key.toList ++ ':' :: ' ' :: (field.type.toList ++ r) =
      slot'.key.toList ++ ':' :: ' ' :: (field'.type.toList ++ r') := by
    simpa [Field.text, fieldText, hfield.key, hfield'.key] using h
  obtain ⟨hkey, htypes⟩ := append_cons_injective (notMem_of_isPlainName hplain.key (by decide))
    (notMem_of_isPlainName hplain'.key (by decide)) hkeys
  obtain ⟨hshape, hrest⟩ := hdecodable _ _ _ _ _ hfield.type hfield'.type hplain.type
    hplain'.type hr hr' (List.cons.inj htypes).2
  exact ⟨⟨String.toList_inj.mp hkey, hshape⟩, hrest⟩

/-- The fields behind one are read off in one way, and so is what closes them. -/
theorem like_of_behindFields (hdecodable : ∀ slot ∈ slots, IsDecodable d slot.type)
    (hplain : ∀ slot ∈ slots, slot.IsPlain) (hplain' : ∀ slot ∈ slots', slot.IsPlain)
    (hfields : List.Forall₂ (Slot.IsWrittenAs d) slots fields)
    (hfields' : List.Forall₂ (Slot.IsWrittenAs d) slots' fields') (hclose : ClosesFields close)
    (hclose' : ClosesFields close')
    (h : behindFields (fields.map Field.text) close =
      behindFields (fields'.map Field.text) close') :
    List.Forall₂ (Slot.IsLike d) slots slots' ∧ close = close' := by
  induction hfields generalizing slots' fields' with
  | nil =>
      cases hfields' with
      | nil => exact ⟨.nil, h⟩
      | cons _ _ => exact absurd h (hclose.noField _)
  | cons hfield _ ih =>
      obtain ⟨hdecodable, hdecodables⟩ := List.forall_mem_cons.mp hdecodable
      obtain ⟨hplain, hplains⟩ := List.forall_mem_cons.mp hplain
      cases hfields' with
      | nil => exact absurd h.symm (hclose'.noField _)
      | cons hfield' hfields' =>
          obtain ⟨hplain', hplains'⟩ := List.forall_mem_cons.mp hplain'
          obtain ⟨hlike, hbehind⟩ := like_of_field hdecodable hplain hplain' hfield hfield'
            (hclose.endsType_behindFields _) (hclose'.endsType_behindFields _)
            (List.cons.inj (List.cons.inj h).2).2
          obtain ⟨hlikes, hrest⟩ := ih hdecodables hplains hplains' hfields' hbehind
          exact ⟨.cons hlike hlikes, hrest⟩

end Fields

theorem isPlain_componentSlots {components : Components}
    (h : (tuple components).HasPlainNames) : ∀ slot ∈ componentSlots components, slot.IsPlain := by
  rw [HasPlainNames, forall_names_tuple] at h
  refine List.forall_mem_map.mpr fun c hc ↦ ⟨?_, (h c hc).2⟩
  rw [text_display (h c hc).1]
  exact (h c hc).1

theorem componentShapes_eq_of_like {cs cs' : Components} (hnames : (tuple cs).HasPlainNames)
    (hnames' : (tuple cs').HasPlainNames)
    (h : List.Forall₂ (Slot.IsLike d) (componentSlots cs) (componentSlots cs')) :
    componentShapes d cs = componentShapes d cs' := by
  rw [HasPlainNames, forall_names_tuple] at hnames hnames'
  rw [componentSlots, componentSlots, List.forall₂_map_left_iff, List.forall₂_map_right_iff] at h
  induction h with
  | nil => rfl
  | @cons c c' _ _ hlike _ ih =>
      obtain ⟨hname, hnames⟩ := List.forall_mem_cons.mp hnames
      obtain ⟨hname', hnames'⟩ := List.forall_mem_cons.mp hnames'
      have hkey : c.1 = c'.1 := by
        rw [← text_display hname.1, ← text_display hname'.1]
        exact congrArg Json.Value.text hlike.key
      simp only [componentShapes, hkey, hlike.shape, ih hnames hnames']

theorem shapes_of_behindField {cs cs' : Components} {fields fields' : List String}
    (hdecodable : ∀ c ∈ cs, IsDecodable d c.2) (hfields : componentTexts d cs = .ok fields)
    (hfields' : componentTexts d cs' = .ok fields') (hnames : (tuple cs).HasPlainNames)
    (hnames' : (tuple cs').HasPlainNames)
    (h : behindField fields ++ r = behindField fields' ++ r') :
    componentShapes d cs = componentShapes d cs' ∧ r = r' := by
  obtain ⟨written, hwritten, rfl⟩ := (writes_componentTexts d cs fields).mp hfields
  obtain ⟨written', hwritten', rfl⟩ := (writes_componentTexts d cs' fields').mp hfields'
  have hclose (r : List Char) : ClosesFields (' ' :: '\x7d' :: r) :=
    ⟨by simp [EndsType], by simp⟩
  rw [behindField_append, behindField_append] at h
  obtain ⟨hlike, hrest⟩ := like_of_behindFields (List.forall_mem_map.mpr hdecodable)
    (isPlain_componentSlots hnames) (isPlain_componentSlots hnames') hwritten hwritten'
    (hclose r) (hclose r') h
  exact ⟨componentShapes_eq_of_like hnames hnames' hlike,
    (List.cons.inj (List.cons.inj hrest).2).2⟩

theorem isDecodable (d : Direction) (t : EvmType) : IsDecodable d t := by
  -- the first characters of the texts say that the second type has the same node on top
  induction t using treeInduction with
  | leaf t hleaf =>
      intro u s s' r r' hs hs' _ _ hr hr' h
      obtain ⟨harray, htuple⟩ := same_node hs hs' h
      have huleaf : u.IsLeaf := by
        rcases leaf_or_array_or_tuple u with hu | hu | hu
        · exact hu
        · obtain ⟨item, size, rfl⟩ := harray.mpr hu
          exact absurd hleaf (not_isLeaf_array item size)
        · obtain ⟨components, rfl⟩ := htuple.mpr hu
          exact absurd hleaf (not_isLeaf_tuple components)
      obtain ⟨hpair, hrest⟩ := leafTexts_injective (mem_leafTexts hleaf hs)
        (mem_leafTexts huleaf hs') hr hr' h
      exact ⟨(Prod.mk.inj hpair).2, hrest⟩
  | array item size ih =>
      intro u s s' r r' hs hs' hnames hnames' hr hr' h
      obtain ⟨item', size', rfl⟩ := (same_node hs hs' h).1.mp ⟨item, size, rfl⟩
      obtain ⟨inner, hinner, rfl⟩ := map_eq_ok_iff.mp hs
      obtain ⟨inner', hinner', rfl⟩ := map_eq_ok_iff.mp hs'
      have hitems : inner.toList ++ ([')', '[', ']'] ++ r) =
          inner'.toList ++ ([')', '[', ']'] ++ r') := by
        simpa [toList_arrayText] using h
      obtain ⟨hshape, hrest⟩ := ih item' inner inner' _ _ hinner hinner' hnames hnames'
        (endsType_cons (by decide) _) (endsType_cons (by decide) _) hitems
      exact ⟨by rw [shape_array, shape_array, hshape], by simpa using hrest⟩
  | tuple components ih =>
      intro u s s' r r' hs hs' hnames hnames' hr hr' h
      obtain ⟨components', rfl⟩ := (same_node hs hs' h).2.mp ⟨components, rfl⟩
      obtain ⟨fields, hfields, rfl⟩ := map_eq_ok_iff.mp hs
      obtain ⟨fields', hfields', rfl⟩ := map_eq_ok_iff.mp hs'
      obtain ⟨hshapes, hrest⟩ := shapes_of_behindField ih hfields hfields' hnames hnames'
        (behindField_eq_of_recordText h)
      exact ⟨by rw [shape_tuple, shape_tuple, hshapes], hrest⟩

theorem typeText_eq_iff_shape (hs : typeText d t = .ok s) (hs' : typeText d u = .ok s')
    (hnames : t.HasPlainNames) (hnames' : u.HasPlainNames) :
    s = s' ↔ t.shape d = u.shape d := by
  constructor
  · rintro rfl
    exact (isDecodable d t u s s [] [] hs hs' hnames hnames' endsType_nil endsType_nil rfl).1
  · intro h
    rw [← typeText_shape, h, typeText_shape, hs'] at hs
    exact (Except.ok.inj hs).symm

/-- Arguments have one text exactly if they have one shape, and so have results; what is written
alike as an argument is written alike as a result. -/
theorem inputType_outputType_eq_iff_shape (ht : t.IsClosed) (hu : u.IsClosed)
    (hnames : t.HasPlainNames) (hnames' : u.HasPlainNames) :
    (.void ∉ t.subtrees → .void ∉ u.subtrees →
      ∃ s s', inputType t = .ok s ∧ inputType u = .ok s' ∧
        (s = s' ↔ t.shape .input = u.shape .input)) ∧
    (∃ s s', outputType t = .ok s ∧ outputType u = .ok s' ∧
      (s = s' ↔ t.shape .output = u.shape .output)) ∧
    (.void ∉ t.subtrees → .void ∉ u.subtrees → inputType t = inputType u →
      outputType t = outputType u) := by
  obtain ⟨s, hs⟩ := exists_outputType_of_isClosed ht
  obtain ⟨s', hs'⟩ := exists_outputType_of_isClosed hu
  have houtput : s = s' ↔ t.shape .output = u.shape .output :=
    typeText_eq_iff_shape (mapError_eq_ok_iff.mp hs) (mapError_eq_ok_iff.mp hs') hnames hnames'
  have hinput (hvoid : .void ∉ t.subtrees) (hvoid' : .void ∉ u.subtrees) :
      ∃ s s', inputType t = .ok s ∧ inputType u = .ok s' ∧
        (s = s' ↔ t.shape .input = u.shape .input) := by
    obtain ⟨s, hs⟩ := exists_inputType (isValue_iff.mpr ⟨ht, hvoid⟩)
    obtain ⟨s', hs'⟩ := exists_inputType (isValue_iff.mpr ⟨hu, hvoid'⟩)
    exact ⟨s, s', hs, hs', typeText_eq_iff_shape (mapError_eq_ok_iff.mp hs)
      (mapError_eq_ok_iff.mp hs') hnames hnames'⟩
  refine ⟨hinput, ⟨s, s', hs, hs', houtput⟩, fun hvoid hvoid' heq ↦ ?_⟩
  obtain ⟨a, a', ha, ha', hiff⟩ := hinput hvoid hvoid'
  rw [ha, ha'] at heq
  have hshape : t.shape .input = u.shape .input := hiff.mp (Except.ok.inj heq)
  have hshapes : t.shape .output = u.shape .output := by
    rw [← shape_output t, hshape, shape_output u]
  rw [hs, hs', houtput.mpr hshapes]

def recordsOf (t : EvmType) (size : Option Int) : EvmType := .array (.tuple [(.text "a_1", t)]) size

theorem recordsOf_closed {n : EvmType} (hleaf : n.IsLeaf)
    (hvalue : n ≠ .void ∧ ∀ node, n ≠ .foreign node) (size : Option Int) :
    (recordsOf n size).IsClosed ∧ .void ∉ (recordsOf n size).subtrees ∧
      (recordsOf n size).HasPlainNames := by
  have hitem : (recordsOf n size).IsValue := by
    simpa [recordsOf] using (isValue_of_isLeaf hleaf).mpr hvalue
  have hnone : n.names = [] := by
    cases n <;> simp_all [names, subtrees_of_isLeaf, nodeNames]
  have hnames : (recordsOf n size).names = [.text "a_1"] := by simp [recordsOf, hnone]
  refine ⟨(isValue_iff.mp hitem).1, (isValue_iff.mp hitem).2, fun v hv ↦ ?_⟩
  rw [hnames, List.mem_singleton] at hv
  exact ⟨"a_1", hv, by decide, List.all_eq_true.mp (by decide)⟩

/-- Hashes are written like bytes in both directions, and like addresses in results alone. -/
theorem inputType_outputType_hashes :
    let hashes := recordsOf (.fixedBytes 32) (some 2)
    (hashes.IsClosed ∧ hashes.HasPlainNames ∧ .void ∉ hashes.subtrees) ∧
      (inputType hashes = inputType (recordsOf .bytes none) ∧
        outputType hashes = outputType (recordsOf .bytes none)) ∧
      inputType hashes ≠ inputType (recordsOf .address none) ∧
        outputType hashes = outputType (recordsOf .address none) := by
  intro hashes
  obtain ⟨hclosed, hvoid, hnames⟩ :=
    recordsOf_closed (n := .fixedBytes 32) (by simp [IsLeaf]) (by simp) (some 2)
  obtain ⟨hclosedBytes, hvoidBytes, hnamesBytes⟩ :=
    recordsOf_closed (n := .bytes) (by simp [IsLeaf]) (by simp) none
  obtain ⟨hclosedAddress, hvoidAddress, hnamesAddress⟩ :=
    recordsOf_closed (n := .address) (by simp [IsLeaf]) (by simp) none
  obtain ⟨hbytes, _, hconsequence⟩ :=
    inputType_outputType_eq_iff_shape hclosed hclosedBytes hnames hnamesBytes
  obtain ⟨haddress, ⟨r, r', hr, hr', houtput⟩, _⟩ :=
    inputType_outputType_eq_iff_shape hclosed hclosedAddress hnames hnamesAddress
  obtain ⟨s, s', hs, hs', hiff⟩ := hbytes hvoid hvoidBytes
  obtain ⟨q, q', hq, hq', hdiffer⟩ := haddress hvoid hvoidAddress
  have hinput : inputType hashes = inputType (recordsOf .bytes none) := by
    rw [hs, hs', hiff.mpr rfl]
  have hother : inputType hashes ≠ inputType (recordsOf .address none) := by
    intro heq
    rw [hq, hq'] at heq
    have hshape := hdiffer.mp (Except.ok.inj heq)
    simp [recordsOf, componentShapes, shape, leafShape] at hshape
  have hresult : outputType hashes = outputType (recordsOf .address none) := by
    rw [hr, hr', houtput.mpr rfl]
  exact ⟨⟨hclosed, hnames, hvoid⟩, ⟨hinput, hconsequence hvoid hvoidBytes hinput⟩, hother, hresult⟩

end TypeScript

end AbiTypings
