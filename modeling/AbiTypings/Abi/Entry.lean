import AbiTypings.Abi.ClassName
import AbiTypings.Abi.Parameter
import AbiTypings.Report.Notice

/-!
# Entries of an ABI

Each entry of an ABI gives one item: a member of the contract, or a remark that it was left out.
Reading stops at the first entry that cannot be read; the items before it are kept, since their
remarks have been made.
-/

namespace AbiTypings.Abi

open Json

inductive Item where
  | constant (c : Constant)
  | readOnlyMethod (m : Method)
  | method (m : Method)
  | event (e : Event)
  | leftOut (r : Remark)

namespace Item

def constant? : Item → Option Constant
  | constant c => some c
  | _ => none

def readOnlyMethod? : Item → Option Method
  | readOnlyMethod m => some m
  | _ => none

def method? : Item → Option Method
  | method m => some m
  | _ => none

def event? : Item → Option Event
  | event e => some e
  | _ => none

def remark? : Item → Option Remark
  | leftOut r => some r
  | _ => none

end Item

/-- Without a kind an entry is a function. -/
def entryKind (entry : Value) : Value := (field? "type" entry).getD (.text "function")

def ignoredKinds : List String := ["constructor", "fallback", "receive", "error"]

def readOnlyMutabilities : List String := ["view", "pure"]

def isOneOf (names : List String) : Value → Bool
  | .text s => names.contains s
  | _ => false

/-- Either mark will do, the older flag or the mutability. -/
def isReadOnly (entry : Value) : Bool :=
  !(fieldD "constant" entry).isVacant ||
    isOneOf readOnlyMutabilities (fieldD "stateMutability" entry)

def noOutput : List Parameter := [⟨.text "", .void⟩]

/-- A function without outputs gets one that is void. Outputs are read before inputs. -/
def readMethod (entry : Value) : Except Problem Method := do
  let outputs ← (← parameterList "outputs" entry).mapM parameter
  let inputs ← (← parameterList "inputs" entry).mapM parameter
  return ⟨fieldD "name" entry, inputs, if outputs.isEmpty then noOutput else outputs⟩

def readReadOnly (entry : Value) : Except Problem Item := do
  let inputs ← parameterList "inputs" entry
  let outputs ← parameterList "outputs" entry
  match inputs, outputs with
  | [], [output] => return .constant ⟨fieldD "name" entry, ← parameterType output⟩
  | _, _ => return .readOnlyMethod (← readMethod entry)

def readFunction (entry : Value) : Except Problem Item :=
  if isReadOnly entry then readReadOnly entry else .method <$> readMethod entry

def readEvent (entry : Value) : Except Problem Item :=
  if !(fieldD "anonymous" entry).isVacant then
    .ok (.leftOut (.anonymousEvent (fieldD "name" entry)))
  else do
    let fields ← (← parameterList "inputs" entry).mapM eventField
    return .event ⟨fieldD "name" entry, fields⟩

def readNamed (kind : String) (read : Value → Except Problem Item) (entry : Value) :
    Except Problem Item :=
  if (fieldD "name" entry).isVacant then
    .error (.malformedAbi (.entryWithoutName kind entry))
  else read entry

def readEntry (entry : Value) : Except Problem Item :=
  if !entry.isObject then .error (.malformedAbi (.entryNotObject entry))
  else match entryKind entry with
    | .text "function" => readNamed "function" readFunction entry
    | .text "event" => readNamed "event" readEvent entry
    | kind =>
      if isOneOf ignoredKinds kind then .ok (.leftOut (.skippedEntry kind))
      else .ok (.leftOut (.unsupportedEntry kind))

/-- The items up to the first entry that cannot be read, and the problem with it. -/
def readEntries : List Value → List Item × Option Problem
  | [] => ([], none)
  | entry :: rest =>
    match readEntry entry with
    | .error p => ([], some p)
    | .ok item =>
      let (items, problem) := readEntries rest
      (item :: items, problem)

def contractOf (name : String) (items : List Item) : Contract where
  name := name
  methods := items.filterMap Item.method?
  readOnlyMethods := items.filterMap Item.readOnlyMethod?
  constants := items.filterMap Item.constant?
  events := items.filterMap Item.event?

/-- The contract that an ABI declares, and the remarks made on the way. The name is looked at
before the entries. -/
def readContract (abi : List Value) (rawName : String) : List Remark × Except Problem Contract :=
  match className rawName with
  | .error p => ([], .error p)
  | .ok name =>
    match readEntries abi with
    | (items, none) => (items.filterMap Item.remark?, .ok (contractOf name items))
    | (items, some p) => (items.filterMap Item.remark?, .error p)

/-- The ABI in the contents of a file: a list, or the list under the key `abi` of an object. -/
def ofText (contents : String) : Except Problem (List Value) :=
  match Value.ofText contents with
  | .error fault => .error (.malformedAbi (.notJson fault))
  | .ok (.list entries) => .ok entries
  | .ok v =>
    match field? "abi" v with
    | some (.list entries) => .ok entries
    | _ => .error (.malformedAbi .noAbi)

end AbiTypings.Abi
