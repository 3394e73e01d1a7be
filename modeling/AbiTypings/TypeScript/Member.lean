import AbiTypings.Contract
import AbiTypings.TypeScript.TypeText

/-!
# Members of a contract class

One line of TypeScript for each method, constant and event. An input without a name is called
after its position. Several outputs, or none, make a record that has every named output under
its name and every output under its position.
-/

namespace AbiTypings.TypeScript

structure Unrecognized where
  type : EvmType
  direction : Direction

def inputType (t : EvmType) : Except Unrecognized String :=
  (typeText .input t).mapError (⟨·, .input⟩)

def outputType (t : EvmType) : Except Unrecognized String :=
  (typeText .output t).mapError (⟨·, .output⟩)

def shownName (position : Nat) (p : Parameter) : String :=
  if p.name.isVacant then "arg" ++ toString position else p.name.display

def inputFields (position : Nat) : List Parameter → Except Unrecognized (List String)
  | [] => .ok []
  | p :: rest => do
    let s ← inputType p.type
    let fields ← inputFields (position + 1) rest
    return fieldText (shownName position p) s :: fields

def inputsText (inputs : List Parameter) : Except Unrecognized String :=
  (", ".intercalate ·) <$> inputFields 0 inputs

def namedFields : List Parameter → Except Unrecognized (List String)
  | [] => .ok []
  | p :: rest =>
    if p.name.isVacant then namedFields rest
    else do
      let s ← outputType p.type
      let fields ← namedFields rest
      return fieldText p.name.display s :: fields

/-- The fields by position, from the given one on. -/
def positionFields (position : Nat) : List Parameter → Except Unrecognized (List String)
  | [] => .ok []
  | p :: rest => do
    let s ← outputType p.type
    let fields ← positionFields (position + 1) rest
    return fieldText (toString position) s :: fields

def outputsText : List Parameter → Except Unrecognized String
  | [p] => outputType p.type
  | outputs => do
    let named ← namedFields outputs
    let byPosition ← positionFields 0 outputs
    return recordText (named ++ byPosition)

def memberLine (name inputs outputs : String) : String :=
  name ++ "(" ++ inputs ++ "): TransactionObject<" ++ outputs ++ ">;"

def methodLine (m : Method) : Except Unrecognized String := do
  let inputs ← inputsText m.inputs
  let outputs ← outputsText m.outputs
  return memberLine m.name.display inputs outputs

def constantLine (c : Constant) : Except Unrecognized String :=
  memberLine c.name.display "" <$> outputType c.output

def eventLine (e : Event) : Except Unrecognized String := do
  let payload ← outputsText e.parameters
  return e.name.display ++ ": ContractEvent<" ++ payload ++ ">;"

/-- The member that every contract has, whatever its events. -/
def allEventsLines : List String :=
  ["allEvents: (",
   "  options?: EventOptions,",
   "  cb?: Callback<EventLog>",
   ") => EventEmitter;"]

end AbiTypings.TypeScript
