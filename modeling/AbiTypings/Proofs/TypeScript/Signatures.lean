import AbiTypings.Proofs.TypeScript.Shape

/-!
# What the line of a method tells

A method's name ends at the first parenthesis of its line, and behind it the inputs are read off
one by one, up to the parenthesis that closes them, though the texts of their types have commas,
colons and parentheses of their own. So two methods with plain names have one line exactly when
they have one name, the same inputs as far as they are shown, and one text for what they return.
-/

namespace AbiTypings

open Outcome

/-- Plain names for the method, its inputs and the components of these; an input may also have
none. -/
structure Method.HasPlainNames (m : Method) : Prop where
  own : IsPlainName m.name
  inputs : ∀ p ∈ m.inputs,
    (p.name.isVacant = true ∨ IsPlainName p.name) ∧ p.type.HasPlainNames

namespace TypeScript

/-! ## Inputs as they are shown -/

/-- Two slots that are shown alike among inputs. -/
structure Slot.IsShownAs (slot slot' : Slot) : Prop where
  key : slot.key = slot'.key
  type : inputType slot.type = inputType slot'.type

section Inputs

variable {ps qs : List Parameter} {slot slot' : Slot} {slots slots' : List Slot} {field : Field}
  {fields fields' : List Field} {r r' : List Char}

theorem Slot.IsLike.isShownAs (h : slot.IsLike .input slot') : slot.IsShownAs slot' where
  key := h.key
  type := by
    rw [inputType, inputType, ← typeText_shape, h.shape, typeText_shape]

theorem inputFields_congr {position : Nat} (h : List.Forall₂ Slot.IsShownAs
    (inputSlots position ps) (inputSlots position qs)) :
    inputFields position ps = inputFields position qs := by
  induction ps generalizing qs position with
  | nil =>
      cases qs with
      | nil => rfl
      | cons q qs => cases h
  | cons p ps ih =>
      cases qs with
      | nil => cases h
      | cons q qs =>
          obtain ⟨hshown, hrest⟩ := List.forall₂_cons.mp h
          have hkey : shownName position p = shownName position q := hshown.key
          have htype : inputType p.type = inputType q.type := hshown.type
          simp only [inputFields, hkey, htype, ih hrest]

theorem forall₂_inputSlots_iff {R : Slot → Slot → Prop} :
    List.Forall₂ R (inputSlots 0 ps) (inputSlots 0 qs) ↔ ps.length = qs.length ∧
      ∀ i p q, ps[i]? = some p → qs[i]? = some q →
        R ⟨shownName i p, p.type⟩ ⟨shownName i q, q.type⟩ := by
  rw [List.forall₂_iff_get]
  simp only [inputSlots, List.length_map, List.length_zipIdx, List.get_eq_getElem,
    List.getElem_map, List.getElem_zipIdx, Nat.zero_add]
  refine and_congr_right fun _ ↦ ⟨fun h i p q hp hq ↦ ?_, fun h i hp hq ↦ ?_⟩
  · obtain ⟨hi, rfl⟩ := List.getElem?_eq_some_iff.mp hp
    obtain ⟨hi', rfl⟩ := List.getElem?_eq_some_iff.mp hq
    exact h i hi hi'
  · exact h i _ _ (List.getElem?_eq_getElem hp) (List.getElem?_eq_getElem hq)

theorem isPlainName_shownName {p : Parameter} (i : Nat)
    (h : p.name.isVacant = true ∨ IsPlainName p.name) : IsPlainName (.text (shownName i p)) := by
  rw [shownName]
  by_cases hvacant : p.name.isVacant = true
  · have hletters : "arg".toList.all (fun c ↦ c.isAlphanum || c == '_' || c == '$') = true := by
      decide
    rw [if_pos hvacant]
    refine ⟨_, rfl, by simp, fun c hc ↦ ?_⟩
    rw [String.toList_append, List.mem_append, Nat.toString_eq_repr, Nat.toList_repr] at hc
    rcases hc with hc | hc
    · exact List.all_eq_true.mp hletters c hc
    · simp [Char.isAlphanum, Nat.isDigit_of_mem_toDigits (by decide) (by decide) hc]
  · rw [if_neg hvacant]
    have hname := h.resolve_left hvacant
    rwa [text_display hname]

theorem isPlain_inputSlots (h : ∀ p ∈ ps,
    (p.name.isVacant = true ∨ IsPlainName p.name) ∧ p.type.HasPlainNames) :
    ∀ slot ∈ inputSlots 0 ps, slot.IsPlain := by
  refine List.forall_mem_map.mpr fun x hx ↦ ?_
  obtain ⟨hname, htype⟩ := h x.1 (List.fst_mem_of_mem_zipIdx hx)
  exact ⟨isPlainName_shownName x.2 hname, htype⟩

/-! ## Reading them back -/

/-- A list that begins with a field is not closed yet. -/
theorem closing_ne_field (hplain : slot.IsPlain) (hfield : slot.IsWrittenAs .input field)
    (more : List Char) : ')' :: r ≠ field.text.toList ++ more := by
  intro h
  have hkey : ')' :: r = slot.key.toList ++ ':' :: ' ' :: (field.type.toList ++ more) := by
    simpa [Field.text, fieldText, hfield.key] using h
  cases hchars : slot.key.toList with
  | nil => simp [hchars] at hkey
  | cons c cs =>
      rw [hchars] at hkey
      have hnot : ')' ∉ slot.key.toList := notMem_of_isPlainName hplain.key (by decide)
      rw [hchars, (List.cons.inj hkey).1] at hnot
      exact hnot List.mem_cons_self

theorem like_of_intercalate (hplain : ∀ slot ∈ slots, slot.IsPlain)
    (hplain' : ∀ slot ∈ slots', slot.IsPlain)
    (hfields : List.Forall₂ (Slot.IsWrittenAs .input) slots fields)
    (hfields' : List.Forall₂ (Slot.IsWrittenAs .input) slots' fields')
    (h : (", ".intercalate (fields.map Field.text)).toList ++ ')' :: r =
      (", ".intercalate (fields'.map Field.text)).toList ++ ')' :: r') :
    List.Forall₂ (Slot.IsLike .input) slots slots' ∧ r = r' := by
  have hclose (r : List Char) : ClosesFields (')' :: r) := ⟨by simp [EndsType], by simp⟩
  -- a list without fields is closed at once, and one with fields is not
  cases hfields with
  | nil =>
      cases hfields' with
      | nil => exact ⟨.nil, by simpa using h⟩
      | cons hfield' _ =>
          rw [List.map_cons, toList_intercalate_cons] at h
          exact absurd h (closing_ne_field (hplain' _ List.mem_cons_self) hfield' _)
  | cons hfield hfields =>
      rw [List.map_cons, toList_intercalate_cons] at h
      cases hfields' with
      | nil => exact absurd h.symm (closing_ne_field (hplain _ List.mem_cons_self) hfield _)
      | cons hfield' hfields' =>
          rw [List.map_cons, toList_intercalate_cons] at h
          obtain ⟨hfirst, hrest⟩ := List.forall_mem_cons.mp hplain
          obtain ⟨hfirst', hrest'⟩ := List.forall_mem_cons.mp hplain'
          obtain ⟨hlike, hbehind⟩ := like_of_field (isDecodable _ _) hfirst hfirst' hfield hfield'
            ((hclose r).endsType_behindFields _) ((hclose r').endsType_behindFields _) h
          obtain ⟨hlikes, hclosed⟩ := like_of_behindFields (fun _ _ ↦ isDecodable _ _) hrest
            hrest' hfields hfields' (hclose r) (hclose r') hbehind
          exact ⟨.cons hlike hlikes, (List.cons.inj hclosed).2⟩

end Inputs

/-! ## Signatures -/

/-- The same name, the same inputs as far as they are shown, and one text for the outputs. -/
structure HaveSameSignature (f g : Method) : Prop where
  name : f.name = g.name
  length : f.inputs.length = g.inputs.length
  inputs : ∀ i p q, f.inputs[i]? = some p → g.inputs[i]? = some q →
    shownName i p = shownName i q ∧ inputType p.type = inputType q.type
  outputs : outputsText f.outputs = outputsText g.outputs

theorem toList_memberLine (name inputs outputs : String) :
    (memberLine name inputs outputs).toList = name.toList ++ '(' :: (inputs.toList ++
      ')' :: (": TransactionObject<".toList ++ outputs.toList ++ ">;".toList)) := by
  simp [memberLine]

theorem methodLine_eq_ok_iff {m : Method} {s : String} :
    methodLine m = .ok s ↔ ∃ inputs outputs, inputsText m.inputs = .ok inputs ∧
      outputsText m.outputs = .ok outputs ∧ memberLine m.name.display inputs outputs = s :=
  both_eq_ok_iff

/-- Two methods have one line exactly when they have one signature. -/
theorem methodLine_eq_iff_signature {f g : Method} {s s' : String} (hs : methodLine f = .ok s)
    (hs' : methodLine g = .ok s') (hplain : f.HasPlainNames) (hplain' : g.HasPlainNames) :
    s = s' ↔ HaveSameSignature f g := by
  obtain ⟨inputs, outputs, hinputs, houtputs, rfl⟩ := methodLine_eq_ok_iff.mp hs
  obtain ⟨inputs', outputs', hinputs', houtputs', rfl⟩ := methodLine_eq_ok_iff.mp hs'
  constructor
  · intro h
    obtain ⟨fields, hfields, rfl⟩ := inputsText_eq_ok_iff.mp hinputs
    obtain ⟨fields', hfields', rfl⟩ := inputsText_eq_ok_iff.mp hinputs'
    have hchars := congrArg String.toList h
    rw [toList_memberLine, toList_memberLine] at hchars
    have hnoParen {m : Method} (hm : m.HasPlainNames) : '(' ∉ m.name.display.toList :=
      notMem_of_isPlainName ((text_display hm.own).symm ▸ hm.own) (by decide)
    obtain ⟨hname, hbehind⟩ :=
      append_cons_injective (hnoParen hplain) (hnoParen hplain') hchars
    obtain ⟨hlike, hreturned⟩ := like_of_intercalate (isPlain_inputSlots hplain.inputs)
      (isPlain_inputSlots hplain'.inputs) hfields hfields' hbehind
    have hshown := forall₂_inputSlots_iff.mp (hlike.imp fun _ _ ↦ Slot.IsLike.isShownAs)
    refine ⟨?_, hshown.1, fun i p q hp hq ↦ ?_, ?_⟩
    · rw [← text_display hplain.own, ← text_display hplain'.own, String.toList_inj.mp hname]
    · obtain ⟨hkey, htype⟩ := hshown.2 i p q hp hq
      exact ⟨hkey, htype⟩
    · rw [houtputs, houtputs']
      exact congrArg Except.ok (String.toList_inj.mp
        (List.append_cancel_left (List.append_cancel_right hreturned)))
  · rintro ⟨hname, hlength, hshown, hreturned⟩
    have hfields : inputFields 0 f.inputs = inputFields 0 g.inputs :=
      inputFields_congr (forall₂_inputSlots_iff.mpr ⟨hlength, fun i p q hp hq ↦
        ⟨(hshown i p q hp hq).1, (hshown i p q hp hq).2⟩⟩)
    have hsame : methodLine f = methodLine g := by
      rw [methodLine, methodLine, inputsText, inputsText, hfields, hreturned, hname]
    exact Except.ok.inj (hs.symm.trans (hsame.trans hs'))

/-- A method that takes an array of records and an address. -/
def storing (recordsName : String) (records : EvmType) (result : String) : Method where
  name := .text "store"
  inputs := [⟨.text recordsName, records⟩, ⟨.text "$owner", .address⟩]
  outputs := [⟨.text result, .uint 8⟩]

theorem storing_hasPlainNames {recordsName : String} {records : EvmType} (result : String)
    (hname : recordsName = "" ∨ IsPlainName (.text recordsName))
    (hrecords : records.HasPlainNames) :
    (storing recordsName records result).HasPlainNames where
  own := ⟨"store", rfl, by decide, List.all_eq_true.mp (by decide)⟩
  inputs := by
    have howner : IsPlainName (.text "$owner") :=
      ⟨_, rfl, by decide, List.all_eq_true.mp (by decide)⟩
    refine List.forall_mem_cons.mpr ⟨⟨?_, hrecords⟩, List.forall_mem_singleton.mpr
      ⟨Or.inr howner, fun v hv ↦ absurd hv List.not_mem_nil⟩⟩
    exact hname.imp_left fun hempty ↦ by rw [hempty]; rfl

/-- An input without a name is shown like one that is called after its position, and records of
hashes are shown like records of bytes; records of addresses are not. -/
theorem methodLine_eq_iff_signature_storing :
    let hashes := storing "" (recordsOf (.fixedBytes 32) (some 2)) ""
    let bytes := storing "arg0" (recordsOf .bytes none) "count"
    let addresses := storing "arg0" (recordsOf .address none) "count"
    (hashes.HasPlainNames ∧ bytes.HasPlainNames ∧ addresses.HasPlainNames) ∧
      (methodLine hashes = .ok ("store(arg0: (\x7b a_1: string | number[] \x7d)[], " ++
        "$owner: string): TransactionObject<BN>;") ∧ methodLine bytes = methodLine hashes ∧
        HaveSameSignature hashes bytes) ∧
      methodLine addresses = .ok ("store(arg0: (\x7b a_1: string \x7d)[], " ++
        "$owner: string): TransactionObject<BN>;") ∧ ¬ HaveSameSignature hashes addresses := by
  intro hashes bytes addresses
  have hname : IsPlainName (.text "arg0") :=
    ⟨_, rfl, by decide, List.all_eq_true.mp (by decide)⟩
  have hhashes : hashes.HasPlainNames := storing_hasPlainNames _ (Or.inl rfl)
    (recordsOf_closed (by simp [EvmType.IsLeaf]) (by simp) _).2.2
  have hbytes : bytes.HasPlainNames := storing_hasPlainNames _ (Or.inr hname)
    (recordsOf_closed (by simp [EvmType.IsLeaf]) (by simp) _).2.2
  have haddresses : addresses.HasPlainNames := storing_hasPlainNames _ (Or.inr hname)
    (recordsOf_closed (by simp [EvmType.IsLeaf]) (by simp) _).2.2
  have hline : methodLine hashes = .ok ("store(arg0: (\x7b a_1: string | number[] \x7d)[], " ++
      "$owner: string): TransactionObject<BN>;") := rfl
  have hsame : methodLine bytes = methodLine hashes := rfl
  have hother : methodLine addresses = .ok ("store(arg0: (\x7b a_1: string \x7d)[], " ++
      "$owner: string): TransactionObject<BN>;") := rfl
  refine ⟨⟨hhashes, hbytes, haddresses⟩, ⟨hline, hsame, ?_⟩, hother, fun h ↦ ?_⟩
  · exact (methodLine_eq_iff_signature hline (hsame.trans hline) hhashes hbytes).mp rfl
  · have htexts := (methodLine_eq_iff_signature hline hother hhashes haddresses).mpr h
    revert htexts
    decide

end TypeScript

end AbiTypings
