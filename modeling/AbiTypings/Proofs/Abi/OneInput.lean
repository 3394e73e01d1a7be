import AbiTypings.Proofs.Abi.Parameters
import AbiTypings.Proofs.Text.Plain
import AbiTypings.Abi.Entry

/-!
# A function of one input

The ABI that declares one function of one input, written down for a given type string: its text is
read as it stands, and its contract has an input of the type that the string names, or is refused
for what is wrong with the string.
-/

namespace AbiTypings.Abi

variable {type : List Char}

def quoted (word rest : List Char) : List Char := '\x22' :: (word ++ '\x22' :: rest)

/-- The text of an ABI with one function, of one input of the given type. -/
def inputText (type : List Char) : List Char :=
  '[' :: '\x7b' :: quoted "name".toList (':' :: quoted "f".toList (',' ::
    quoted "inputs".toList (':' :: '[' :: '\x7b' :: quoted "type".toList (':' ::
      quoted type ['\x7d', ']', '\x7d', ']']))))

def inputEntry (type : List Char) : Json.Value :=
  .object [("name", .text "f"),
    ("inputs", .list [.object [("type", .text (String.ofList type))]])]

/-! ## The text -/

theorem readText_word (word : String)
    (h : word.toList.all isQuotable = true) (rest : List Char) :
    Json.readText (word.toList ++ '\x22' :: rest) = .ok (word, rest) := by
  rw [readText_plain h, String.ofList_toList]

theorem readDocument_inputText (h : type.all isQuotable = true) :
    Json.readDocument (inputText type) = .ok (.list [inputEntry type]) := by
  have hname := readText_word "name" (by decide)
  have hf := readText_word "f" (by decide)
  have hinputs := readText_word "inputs" (by decide)
  have htype := readText_word "type" (by decide)
  have hlong := readText_plain h
  have hlength : 10 ≤ 2 * (inputText type).length + 2 := by
    simp only [inputText, quoted, List.length_cons, List.length_append]
    omega
  obtain ⟨fuel, hfuel⟩ := Nat.exists_eq_add_of_le' hlength
  rw [Json.readDocument, hfuel]
  unfold inputText quoted
  -- What the words are does not matter from here on, only that each is read.
  generalize "name".toList = name, "f".toList = f, "inputs".toList = inputs,
    "type".toList = key at *
  simp [Json.skipBlanks, Json.isJsonBlank, Json.readValue, Json.readItems, Json.readMembers,
    hname, hf, hinputs, htype, hlong, bind, Except.bind, pure, Except.pure, inputEntry,
    Json.Fields.put]

theorem ofText_inputText (h : type.all isQuotable = true) :
    ofText (String.ofList (inputText type)) = .ok [inputEntry type] := by
  rw [ofText, Json.Value.ofText, String.toList_ofList, readDocument_inputText h]
  rfl

theorem isPlain_quoted {word rest : List Char} (hword : word.all isQuotable = true)
    (hrest : rest.all isPlain = true) : (quoted word rest).all isPlain = true := by
  have hplain : word.all isPlain = true :=
    List.all_eq_true.mpr fun c hc ↦ isPlain_of_isQuotable (List.all_eq_true.mp hword c hc)
  have hquote : isPlain '\x22' = true := by decide
  rw [quoted, List.all_cons, List.all_append, List.all_cons, hplain, hrest, hquote]
  rfl

theorem isPlain_inputText (h : type.all isQuotable = true) :
    (inputText type).all isPlain = true := by
  have hcons {c : Char} {rest : List Char} (hc : isPlain c = true)
      (hrest : rest.all isPlain = true) : (c :: rest).all isPlain = true := by
    rw [List.all_cons, hc, hrest]
    rfl
  refine hcons (by decide) (hcons (by decide) (isPlain_quoted (by decide) ?_))
  refine hcons (by decide) (isPlain_quoted (by decide) (hcons (by decide) ?_))
  refine isPlain_quoted (by decide) (hcons (by decide) (hcons (by decide) ?_))
  refine hcons (by decide) (isPlain_quoted (by decide) (hcons (by decide) ?_))
  exact isPlain_quoted h (by decide)

/-! ## The contract -/

def inputMethod (t : EvmType) : Method := ⟨.text "f", [⟨.text "", t⟩], noOutput⟩

theorem readEntry_inputEntry (type : List Char) :
    readEntry (inputEntry type) =
      (.method ∘ inputMethod) <$> typeOfString (String.ofList type) none := by
  have hparameter : parameter (.object [("type", .text (String.ofList type))]) =
      (⟨.text "", ·⟩) <$> typeOfString (String.ofList type) none := by
    simp [parameter, parameterType_eq, field?, fieldsOf, parameterComponents, parameterName,
      fieldD, Json.Value.orElse, Json.Value.isVacant, bind, Except.bind]
  have hinputs : parameterList "inputs" (inputEntry type) =
      .ok [.object [("type", .text (String.ofList type))]] := by
    simp [inputEntry, parameterList, parameterObjects, fieldD, field?, fieldsOf,
      Json.Value.isVacant, Json.Value.isObject]
  have houtputs : parameterList "outputs" (inputEntry type) = .ok [] := rfl
  have hname : fieldD "name" (inputEntry type) = .text "f" := by
    simp [fieldD, field?, fieldsOf, inputEntry]
  have hmethod : readMethod (inputEntry type) =
      inputMethod <$> typeOfString (String.ofList type) none := by
    rw [readMethod, hinputs, houtputs, hname]
    cases h : typeOfString (String.ofList type) none <;>
      simp [hparameter, h, bind, Except.bind, pure, Except.pure, Functor.map, Except.map,
        inputMethod]
  have hkind : entryKind (inputEntry type) = .text "function" := rfl
  have hreadOnly : isReadOnly (inputEntry type) = false := rfl
  have hobject : (inputEntry type).isObject = true := rfl
  simp only [readEntry, hobject, hkind, readNamed, hname, readFunction, hreadOnly, hmethod]
  cases typeOfString (String.ofList type) none <;> rfl

theorem readContract_inputEntry (type : List Char) {rawName name : String}
    (hname : className rawName = .ok name) :
    (readContract [inputEntry type] rawName).2 =
      (fun t ↦ ⟨name, [inputMethod t], [], [], []⟩) <$> typeOfString (String.ofList type) none := by
  cases h : typeOfString (String.ofList type) none <;>
    simp [readContract, hname, readEntries, readEntry_inputEntry, h, contractOf, Item.method?,
      Item.readOnlyMethod?, Item.constant?, Item.event?, Functor.map, Except.map]

end AbiTypings.Abi
