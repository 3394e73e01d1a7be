import AbiTypings.EvmType

/-!
# Contracts

What a contract declares: methods that change its state, methods that only read it, constants
and events. Names are kept as the ABI gives them, which is nearly always as texts; a vacant name
marks a parameter known by its position alone.
-/

namespace AbiTypings

structure Parameter where
  name : Json.Value
  type : EvmType
  deriving Inhabited

structure EventField extends Parameter where
  indexed : Bool
  deriving Inhabited

structure Method where
  name : Json.Value
  inputs : List Parameter
  outputs : List Parameter
  deriving Inhabited

/-- A method that reads one value and takes no inputs. -/
structure Constant where
  name : Json.Value
  output : EvmType
  deriving Inhabited

structure Event where
  name : Json.Value
  fields : List EventField
  deriving Inhabited

structure Contract where
  name : String
  methods : List Method
  readOnlyMethods : List Method
  constants : List Constant
  events : List Event
  deriving Inhabited

/-- The parameters of an event, without their marks. -/
def Event.parameters (e : Event) : List Parameter := e.fields.map EventField.toParameter

end AbiTypings
