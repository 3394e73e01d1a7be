import AbiTypings.EvmType

/-!
# TypeScript types

A value that goes into a call may be given in several forms, while one that comes out of a call
has a single form; so each direction has its own names for the leaves. Arrays and tuples are
written the same way in both. A node without a name in its direction is handed back.
-/

namespace AbiTypings

inductive Direction where
  | input
  | output
  deriving DecidableEq, Repr

def Direction.label : Direction → String
  | input => "input"
  | output => "output"

namespace TypeScript

def inputLeaf? : EvmType → Option String
  | .int _ => some "number | string"
  | .uint _ => some "number | string"
  | .address => some "string"
  | .fixedBytes _ => some "string | number[]"
  | .bytes => some "string | number[]"
  | .bool => some "boolean"
  | .string => some "string"
  | _ => none

def outputLeaf? : EvmType → Option String
  | .int _ => some "BN"
  | .uint _ => some "BN"
  | .address => some "string"
  | .fixedBytes _ => some "string"
  | .bytes => some "string"
  | .bool => some "boolean"
  | .string => some "string"
  | .void => some "void"
  | _ => none

def leaf? : Direction → EvmType → Option String
  | .input => inputLeaf?
  | .output => outputLeaf?

/-- A field of a record type. -/
def fieldText (key type : String) : String := key ++ ": " ++ type

def recordText : List String → String
  | [] => "\x7b\x7d"
  | fields => "\x7b " ++ ", ".intercalate fields ++ " \x7d"

def arrayText (item : String) : String := "(" ++ item ++ ")[]"

mutual

def typeText (d : Direction) : EvmType → Except EvmType String
  | .array item _ => arrayText <$> typeText d item
  | .tuple components => recordText <$> componentTexts d components
  | t =>
    match leaf? d t with
    | some s => .ok s
    | none => .error t
termination_by structural t => t

def componentTexts (d : Direction) : Components → Except EvmType (List String)
  | [] => .ok []
  | (name, t) :: rest => do
    let s ← typeText d t
    let fields ← componentTexts d rest
    return fieldText name.display s :: fields
termination_by structural cs => cs

end

end TypeScript

end AbiTypings
