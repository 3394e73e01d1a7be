import AbiTypings.Decimal.Numeral
import AbiTypings.EvmType
import AbiTypings.TypeString.Token

/-!
# Reading type strings

A type string is a base name and any number of array suffixes, the last one outermost. The base
`tuple` takes its components from outside the string.
-/

namespace AbiTypings.TypeString

open Decimal Text

/-- Why a type string was refused. -/
inductive Refusal where
  | unexpected (u : Unexpected)
  | expected (wanted got : TokenKind) (column : Nat)
  | tupleWithoutComponents
  | unknownName
  deriving DecidableEq, Repr

def Refusal.reason : Refusal → String
  | unexpected u =>
    "unexpected " ++ quoted (String.singleton u.char) ++ " at column " ++ toString u.column
  | expected wanted got column =>
    "expected " ++ wanted.label ++ " but got " ++ got.label ++ " at column " ++ toString column
  | tupleWithoutComponents => "tuple without components"
  | unknownName => ""

/-- What ends the reading of a type string: a refusal, or a number over the length limit. -/
inductive Fault where
  | refused (r : Refusal)
  | oversized (o : Oversized)
  deriving DecidableEq, Repr

def readNumber (digits : List Char) : Except Fault Int :=
  match readNumeral digits with
  | .ok n => .ok n
  | .error o => .error (.oversized o)

/-- The digits behind `head`, when the name is `head` followed by digits only. -/
def digitsAfter? (head name : List Char) : Option (List Char) :=
  if head.isPrefixOf name && (name.drop head.length).all isAsciiDigit then
    some (name.drop head.length)
  else none

def defaultBits : Int := 256

def readBits (digits : List Char) : Except Fault Int :=
  if digits.isEmpty then .ok defaultBits else readNumber digits

def plainType? (name : List Char) : Option EvmType :=
  if name = "address".toList then some .address
  else if name = "bool".toList then some .bool
  else if name = "string".toList then some .string
  else if name = "bytes".toList then some .bytes
  else if name = "byte".toList then some (.fixedBytes 1)
  else none

def baseType (components : Option Components) (name : List Char) : Except Fault EvmType :=
  match plainType? name with
  | some t => .ok t
  | none =>
    if name = "tuple".toList then
      match components with
      | some cs => .ok (.tuple cs)
      | none => .error (.refused .tupleWithoutComponents)
    else match digitsAfter? "uint".toList name with
      | some digits => .uint <$> readBits digits
      | none =>
        match digitsAfter? "int".toList name with
        | some digits => .int <$> readBits digits
        | none =>
          match digitsAfter? "bytes".toList name with
          | some digits => .fixedBytes <$> readNumber digits
          | none => .error (.refused .unknownName)

def expected {α : Type} (wanted : TokenKind) : List Token → Except Fault α
  | [] => .error (.refused (.expected wanted .endOfText 0))
  | t :: _ => .error (.refused (.expected wanted t.kind t.column))

/-- Reads array suffixes onto the type, up to the end of the text. -/
def readSuffixes (t : EvmType) : List Token → Except Fault EvmType
  | ⟨.leftBracket, _, _⟩ :: ⟨.rightBracket, _, _⟩ :: rest => readSuffixes (.array t none) rest
  | ⟨.leftBracket, _, _⟩ :: ⟨.number, digits, _⟩ :: rest => do
    let size ← readNumber digits
    match rest with
    | ⟨.rightBracket, _, _⟩ :: rest => readSuffixes (.array t (some size)) rest
    | rest => expected .rightBracket rest
  | ⟨.leftBracket, _, _⟩ :: rest => expected .rightBracket rest
  | ⟨.endOfText, _, _⟩ :: _ => .ok t
  | rest => expected .endOfText rest

def ofTokens (components : Option Components) : List Token → Except Fault EvmType
  | ⟨.name, name, _⟩ :: rest => do
    let t ← baseType components name
    readSuffixes t rest
  | rest => expected .name rest

/-- The type that `source` names. -/
def read (source : String) (components : Option Components) : Except Fault EvmType :=
  match tokens source with
  | .ok ts => ofTokens components ts
  | .error u => .error (.refused (.unexpected u))

end AbiTypings.TypeString
