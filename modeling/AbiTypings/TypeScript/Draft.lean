import AbiTypings.TypeScript.Document

/-!
# Drafts

A document is written by calls within calls, and there is room for so many open calls only. A
draft is a piece of writing that is given this room: it fails where its calls do not fit, also
where the text exists. Each draft here follows the writer of the same piece, and goes on counting
how many calls it needs. The lines are laid out with a level of indentation that goes up where a
block opens and down where it closes.
-/

namespace AbiTypings.TypeScript

/-! ## Room for calls -/

/-- The calls that may be open at one time. -/
def callLimit : Nat := 1000

/-- How many calls are open between two points of the writing. -/
structure Calls where
  /-- From a type to its text as a leaf, or to the item of an array. -/
  node : Nat
  /-- From there to the components of a tuple. -/
  tuple : Nat
  /-- From a name that is no text to what is written for it. -/
  value : Nat
  /-- From a list or an object in such a name to what is within. -/
  level : Nat
  /-- From the document to the names and types of inputs. -/
  inputs : Nat
  /-- From the document to the names and types of outputs and event fields. -/
  outputs : Nat
  /-- From the document to the names of members and the types of constants. -/
  member : Nat
  /-- From the document to the indentation of a line. -/
  layout : Nat

def Calls.counted : Calls where
  node := 2
  tuple := 2
  value := 2
  level := 1
  inputs := 7
  outputs := 5
  member := 4
  layout := 8

inductive DraftFault where
  | unrecognized (u : Unrecognized)
  | tooDeep

/-- A piece of writing within the room that it is given. -/
abbrev Draft (α : Type) := ReaderT Nat (Except DraftFault) α

/-- What is written within so many more calls. -/
def within {α : Type} (calls : Nat) (draft : Draft α) : Draft α := fun room ↦
  if calls ≤ room then draft (room - calls) else .error .tooDeep

namespace Calls

/-! ## Names and types -/

def forName (calls : Calls) : Json.Value → Nat
  | .text _ => 0
  | v => calls.value + calls.level * v.levels

def draftName (calls : Calls) (name : Json.Value) : Draft String :=
  within (calls.forName name) (pure name.display)

/-- The key of a field and then the type under it. -/
def draftField (key type : Draft String) (others : Draft (List String)) : Draft (List String) := do
  let key ← key
  let s ← type
  let fields ← others
  return fieldText key s :: fields

mutual

def draftType (calls : Calls) (d : Direction) : EvmType → Draft String
  | .array item _ => within calls.node (arrayText <$> calls.draftType d item)
  | .tuple components =>
    within (calls.node + calls.tuple) (recordText <$> calls.draftComponents d components)
  | t =>
    within calls.node <|
      match leaf? d t with
      | some s => pure s
      | none => throw (.unrecognized ⟨t, d⟩)
termination_by structural t => t

def draftComponents (calls : Calls) (d : Direction) : Components → Draft (List String)
  | [] => pure []
  | (name, t) :: rest =>
    draftField (calls.draftName name) (calls.draftType d t) (calls.draftComponents d rest)
termination_by structural cs => cs

end

/-! ## Members -/

def draftShownName (calls : Calls) (position : Nat) (p : Parameter) : Draft String :=
  if p.name.isVacant then pure ("arg" ++ toString position) else calls.draftName p.name

def draftInputFields (calls : Calls) (position : Nat) : List Parameter → Draft (List String)
  | [] => pure []
  | p :: rest =>
    draftField (calls.draftShownName position p) (calls.draftType .input p.type)
      (calls.draftInputFields (position + 1) rest)

def draftInputs (calls : Calls) (inputs : List Parameter) : Draft String :=
  within calls.inputs ((", ".intercalate ·) <$> calls.draftInputFields 0 inputs)

def draftNamedFields (calls : Calls) : List Parameter → Draft (List String)
  | [] => pure []
  | p :: rest =>
    if p.name.isVacant then calls.draftNamedFields rest
    else
      draftField (calls.draftName p.name) (calls.draftType .output p.type)
        (calls.draftNamedFields rest)

def draftPositionFields (calls : Calls) (position : Nat) :
    List Parameter → Draft (List String)
  | [] => pure []
  | p :: rest =>
    draftField (pure (toString position)) (calls.draftType .output p.type)
      (calls.draftPositionFields (position + 1) rest)

def draftOutputs (calls : Calls) : List Parameter → Draft String
  | [p] => within calls.outputs (calls.draftType .output p.type)
  | outputs => within calls.outputs do
    let named ← calls.draftNamedFields outputs
    let byPosition ← calls.draftPositionFields 0 outputs
    return recordText (named ++ byPosition)

def draftMemberName (calls : Calls) (name : Json.Value) : Draft String :=
  within calls.member (calls.draftName name)

def draftMethod (calls : Calls) (m : Method) : Draft String := do
  let inputs ← calls.draftInputs m.inputs
  let outputs ← calls.draftOutputs m.outputs
  let name ← calls.draftMemberName m.name
  return memberLine name inputs outputs

def draftConstant (calls : Calls) (c : Constant) : Draft String := do
  let name ← calls.draftMemberName c.name
  let output ← within calls.member (calls.draftType .output c.output)
  return memberLine name "" output

def draftEvent (calls : Calls) (e : Event) : Draft String := do
  let payload ← calls.draftOutputs e.parameters
  let name ← calls.draftMemberName e.name
  return name ++ ": ContractEvent<" ++ payload ++ ">;"

end Calls

/-! ## Lines at the level where they stand -/

def indented (unit line : String) : StateM Int String := do
  return indentation unit (← get) ++ line

/-- The lines between the two that open and close the block stand one level further in. -/
def layBlock (unit opening closing : String) (lines : List String) : StateM Int (List String) := do
  let first ← indented unit opening
  modify (· + 1)
  let inner ← lines.mapM (indented unit)
  modify (· - 1)
  let last ← indented unit closing
  return first :: inner ++ [last]

def layClass (unit name : String) (methods events : List String) : StateM Int (List String) := do
  modify (· + 1)
  let first ← indented unit constructorLine
  let methodBlock ← layBlock unit "methods: \x7b" "\x7d;" methods
  let eventBlock ← layBlock unit "events: \x7b" "\x7d;" (events ++ allEventsLines)
  modify (· - 1)
  return ["export class " ++ name ++ " extends Contract \x7b", first] ++ methodBlock ++
    eventBlock ++ ["\x7d", ""]

/-- Every document starts at level zero. -/
def layDocument (unit name : String) (methods events : List String) : List String :=
  headerLine :: contractImports ++ "" :: ((layClass unit name methods events).run 0).1

/-! ## Documents -/

def Calls.draftDocument (calls : Calls) (unit : String) (c : Contract) : Draft String := do
  let readOnly ← c.readOnlyMethods.mapM calls.draftMethod
  let others ← c.methods.mapM calls.draftMethod
  let constants ← c.constants.mapM calls.draftConstant
  let events ← c.events.mapM calls.draftEvent
  within calls.layout <|
    pure (joinLines (layDocument unit c.name (readOnly ++ others ++ constants) events))

end AbiTypings.TypeScript
