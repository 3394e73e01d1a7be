import AbiTypings.Json.Display

/-!
# Types of contract values

The type trees of a contract's inputs, outputs and event fields. A tree may also hold a foreign
node, one that no declaration can be written for; reading an ABI never makes one.
-/

namespace AbiTypings

/-- Nodes outside the types of contract values. -/
inductive ForeignNode where
  | fixedPoint (bits : Int)
  | untyped
  | missing
  | text (s : String)
  deriving DecidableEq, Repr

/-- `void` stands for the result of a function that returns nothing. An array without a size is
dynamic. A component's name is nearly always a text. -/
inductive EvmType where
  | int (bits : Int)
  | uint (bits : Int)
  | address
  | fixedBytes (size : Int)
  | bytes
  | bool
  | string
  | void
  | array (item : EvmType) (size : Option Int)
  | tuple (components : List (Json.Value × EvmType))
  | foreign (node : ForeignNode)
  deriving Inhabited

abbrev Components := List (Json.Value × EvmType)

def ForeignNode.literal : ForeignNode → String
  | fixedPoint bits => "FixedPointType(bits=" ++ toString bits ++ ")"
  | untyped => "EvmType()"
  | missing => "None"
  | text s => Text.quoted s

namespace EvmType

def sizeText : Option Int → String
  | none => "None"
  | some n => toString n

/-- A list of one is written with a comma behind it. -/
def tupleText : List String → String
  | [one] => "(" ++ one ++ ",)"
  | many => "(" ++ ", ".intercalate many ++ ")"

mutual

def literal : EvmType → String
  | int bits => "IntegerType(bits=" ++ toString bits ++ ")"
  | uint bits => "UnsignedIntegerType(bits=" ++ toString bits ++ ")"
  | address => "AddressType()"
  | fixedBytes size => "BytesType(size=" ++ toString size ++ ")"
  | bytes => "DynamicBytesType()"
  | bool => "BooleanType()"
  | string => "StringType()"
  | void => "VoidType()"
  | array item size =>
    "ArrayType(item_type=" ++ item.literal ++ ", size=" ++ sizeText size ++ ")"
  | tuple components => "TupleType(components=" ++ tupleText (literals components) ++ ")"
  | foreign node => node.literal
termination_by structural t => t

def literals : Components → List String
  | [] => []
  | (name, t) :: rest =>
    ("EvmSymbol(name=" ++ name.literal ++ ", type=" ++ t.literal ++ ")") :: literals rest
termination_by structural cs => cs

end

end EvmType

end AbiTypings
