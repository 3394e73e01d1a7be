import AbiTypings.Proofs.Abi.OneInput
import AbiTypings.Proofs.Json.Members
import AbiTypings.Proofs.TypeScript.Mutability
import AbiTypings.Run.Target

/-!
# ABIs inside artifacts

A compiler leaves the ABI of a contract among other things, as the member `abi` of an object. The
object is as good as the ABI alone: the entries are the same, and so is all that is made of them.
What else the object holds does not matter, unless it has a later member with that key.
-/

namespace AbiTypings.Abi

open Json Outcome

/-! ## From the contents of a file -/

def contractOfText (d : Collector) (file contents rawName : String) :
    Collector × Except Problem Contract :=
  match ofText contents with
  | .error p => (d, .error p)
  | .ok abi => collectContract d file abi rawName

def documentOfText (unit contents rawName : String) : Except Problem String := do
  let abi ← ofText contents
  TypeScript.abiDocument unit abi rawName

theorem contractOfText_of_ofText {contents : String} {abi : List Value}
    (h : ofText contents = .ok abi) (d : Collector) (file rawName : String) :
    contractOfText d file contents rawName = collectContract d file abi rawName := by
  rw [contractOfText, h]

theorem documentOfText_of_ofText {contents : String} {abi : List Value}
    (h : ofText contents = .ok abi) (unit rawName : String) :
    documentOfText unit contents rawName = TypeScript.abiDocument unit abi rawName := by
  rw [documentOfText, h]
  rfl

/-- Two texts with the same ABI, of which the same contracts, problems, notices and documents
are made. -/
structure HoldSameAbi (abi : List Value) (text text' : String) : Prop where
  ofText_left : ofText text = .ok abi
  ofText_right : ofText text' = .ok abi
  contractOfText_eq : ∀ d file rawName,
    contractOfText d file text rawName = contractOfText d file text' rawName
  documentOfText_eq : ∀ unit rawName,
    documentOfText unit text rawName = documentOfText unit text' rawName
  yield_eq : ∀ (target : Run.Target) path, target.yield path text = target.yield path text'

theorem holdSameAbi_of_ofText {abi : List Value} {text text' : String}
    (h : ofText text = .ok abi) (h' : ofText text' = .ok abi) : HoldSameAbi abi text text' where
  ofText_left := h
  ofText_right := h'
  contractOfText_eq d file rawName := by
    rw [contractOfText_of_ofText h, contractOfText_of_ofText h']
  documentOfText_eq unit rawName := by
    rw [documentOfText_of_ofText h, documentOfText_of_ofText h']
  yield_eq target path := by
    cases target with
    | unsupported => rfl
    | declarations directory => rw [Run.Target.yield, Run.Target.yield, h, h']

theorem ofText_of_list {contents : String} {abi : List Value}
    (h : Value.ofText contents = .ok (.list abi)) : ofText contents = .ok abi := by
  rw [ofText, h]

theorem ofText_of_object {contents : String} {abi : List Value} {fields : Fields}
    (h : Value.ofText contents = .ok (.object fields))
    (habi : fields.get? "abi" = some (.list abi)) : ofText contents = .ok abi := by
  have hfield : field? "abi" (.object fields) = some (.list abi) := habi
  rw [ofText, h]
  simp only [hfield]

/-! ## The member of the ABI -/

theorem ofText_quoted {word : String} (h : word.toList.all isQuotable = true) :
    Value.ofText ("\x22" ++ word ++ "\x22") = .ok (.text word) := by
  have hchars : ("\x22" ++ word ++ "\x22").toList = '\x22' :: (word.toList ++ '\x22' :: []) := by
    rw [String.toList_append, String.toList_append]
    rfl
  refine mapError_eq_ok_iff.mpr (readDocument_eq_ok_iff.mpr ?_)
  rw [hchars]
  exact ⟨by simp, [], readValue_eq_ok_iff.mpr (.text (readText_word word h [])), rfl⟩

/-- The key `abi` and the text of a list, without blanks. -/
def abiMember {contents : String} {abi : List Value}
    (h : Value.ofText contents = .ok (.list abi)) : Member where
  keyText := "\x22" ++ "abi" ++ "\x22"
  key := "abi"
  valueText := contents
  value := .list abi
  ofText_keyText := ofText_quoted (by decide)
  ofText_valueText := h

/-- An artifact holds the ABI that is the value of its last member with the key `abi`, with blanks
around any of its parts. -/
theorem holdSameAbi_artifact {contents : String} {abi : List Value}
    (h : Value.ofText contents = .ok (.list abi)) (front : List Member) {back : List Member}
    (hback : ∀ m ∈ back, m.key ≠ "abi")
    (before after beforeKey afterKey beforeValue afterValue : Gap) :
    HoldSameAbi abi
      (before.around after (objectText
        (front ++ (abiMember h).spaced beforeKey afterKey beforeValue afterValue :: back)))
      contents := by
  have hsome : front ++ (abiMember h).spaced beforeKey afterKey beforeValue afterValue :: back ≠
      [] := List.append_ne_nil_of_right_ne_nil front (List.cons_ne_nil _ back)
  have hobject := before.ofText_around after (ofText_objectText hsome)
  have hvalue := get?_fieldsOfMembers front
    ((abiMember h).spaced beforeKey afterKey beforeValue afterValue) hback
  exact holdSameAbi_of_ofText (ofText_of_object hobject hvalue) (ofText_of_list h)

def wordMember (key word : String) (hkey : key.toList.all isQuotable = true)
    (hword : word.toList.all isQuotable = true) : Member where
  keyText := "\x22" ++ key ++ "\x22"
  key := key
  valueText := "\x22" ++ word ++ "\x22"
  value := .text word
  ofText_keyText := ofText_quoted hkey
  ofText_valueText := ofText_quoted hword

def noGap : Gap := ⟨[], fun _ h ↦ absurd h List.not_mem_nil⟩

def lineGap : Gap := ⟨['\n'], by simp [AreBlank, isJsonBlank]⟩

/-- An ABI with one function, that takes a truth value. -/
def gateText : String := String.ofList (inputText "bool".toList)

theorem ofText_gateText : Value.ofText gateText = .ok (.list [inputEntry "bool".toList]) := by
  rw [gateText, Value.ofText, String.toList_ofList, readDocument_inputText (by decide)]
  rfl

def gateFront : List Member :=
  [wordMember "abi" "none" (by decide) (by decide),
    wordMember "contractName" "Gate" (by decide) (by decide)]

def gateBack : List Member := [wordMember "bytecode" "0x" (by decide) (by decide)]

/-- The ABI is the second member with its key, and a member follows it. -/
def gateArtifact : String :=
  noGap.around lineGap (objectText
    (gateFront ++ (abiMember ofText_gateText).spaced lineGap noGap lineGap lineGap :: gateBack))

example : gateArtifact =
    "\x7b\x22abi\x22:\x22none\x22,\x22contractName\x22:\x22Gate\x22,\n\x22abi\x22:\n" ++ gateText ++
      "\n,\x22bytecode\x22:\x220x\x22\x7d\n" := by
  decide +kernel

theorem holdSameAbi_gateArtifact :
    (∀ m ∈ gateBack, m.key ≠ "abi") ∧
    HoldSameAbi [inputEntry "bool".toList] gateArtifact gateText := by
  have hback : ∀ m ∈ gateBack, m.key ≠ "abi" := by
    intro m hm
    obtain rfl := List.mem_singleton.mp hm
    exact (by decide : "bytecode" ≠ "abi")
  exact ⟨hback, holdSameAbi_artifact ofText_gateText gateFront hback noGap lineGap
    lineGap noGap lineGap lineGap⟩

end AbiTypings.Abi
