import AbiTypings.Contract
import AbiTypings.Problem

/-!
# Parameters of an ABI entry

A parameter is an object with a type string and, for tuples, a list of components that are
parameters again. A component without a name is named by its position.
-/

namespace AbiTypings.Abi

open Json

/-- The fields of an object, none of any other value. -/
def fieldsOf : Value → Fields
  | .object fields => fields
  | _ => []

def field? (key : String) (v : Value) : Option Value := (fieldsOf v).get? key

/-- The field's value, null if there is none. -/
def fieldD (key : String) (v : Value) : Value := (field? key v).getD .null

def parameterName (v : Value) : Value := (fieldD "name" v).orElse (.text "")

/-- The objects in a list of parameters. A vacant value counts as an empty list. -/
def parameterObjects (key : String) (v : Value) : Except Problem (List Value) :=
  if v.isVacant then .ok []
  else match v with
    | .list items =>
      if items.all Value.isObject then .ok items
      else .error (.malformedAbi (.notParameterList key v))
    | _ => .error (.malformedAbi (.notParameterList key v))

def parameterList (key : String) (entry : Value) : Except Problem (List Value) :=
  parameterObjects key (fieldD key entry)

def componentName (position : Nat) (v : Value) : Value :=
  (fieldD "name" v).orElse (.text (toString position))

def typeOfString (source : String) (components : Option Components) : Except Problem EvmType :=
  (TypeString.read source components).mapError (.ofTypeString source)

mutual

/-- The type of a parameter. Its components are read before its type string. -/
def parameterType : Value → Except Problem EvmType
  | .object fields =>
    match Fields.get? "type" fields with
    | some (.text source) => do
      let components ← componentsIn fields
      typeOfString source components
    | _ => .error (.malformedAbi (.parameterWithoutType (.object fields)))
  | v => .error (.malformedAbi (.parameterWithoutType v))
termination_by structural v => v

/-- The components among the fields of a parameter, if it has that field. -/
def componentsIn : List (String × Value) → Except Problem (Option Components)
  | [] => .ok none
  | (key, v) :: rest =>
    if key = "components" then some <$> componentList v else componentsIn rest
termination_by structural fields => fields

def componentList : Value → Except Problem Components
  | .list items =>
    if items.all Value.isObject then componentsFrom 0 items
    else .error (.malformedAbi (.notParameterList "components" (.list items)))
  | v =>
    if v.isVacant then .ok []
    else .error (.malformedAbi (.notParameterList "components" v))
termination_by structural v => v

def componentsFrom (position : Nat) : List Value → Except Problem Components
  | [] => .ok []
  | v :: rest => do
    let t ← parameterType v
    let others ← componentsFrom (position + 1) rest
    return (componentName position v, t) :: others
termination_by structural items => items

end

def parameter (v : Value) : Except Problem Parameter :=
  (⟨parameterName v, ·⟩) <$> parameterType v

def eventField (v : Value) : Except Problem EventField :=
  (fun t ↦ ⟨⟨parameterName v, t⟩, !(fieldD "indexed" v).isVacant⟩) <$> parameterType v

end AbiTypings.Abi
