import AbiTypings.Files.Search
import AbiTypings.Json.Reader
import AbiTypings.Text.Utf8
import AbiTypings.TypeScript.Member
import AbiTypings.TypeString.Reader

/-!
# Problems

Everything that can go wrong with an ABI or with a run over many of them. A problem with the
contents of one file, or with reading it, is contained: the run records it and goes on. The
other problems end the run.
-/

namespace AbiTypings

/-- What keeps the contents of a file from being an ABI. -/
inductive Malformation where
  | notJson (fault : Json.Fault)
  | noAbi
  | entryNotObject (entry : Json.Value)
  | entryWithoutName (kind : String) (entry : Json.Value)
  | notParameterList (key : String) (value : Json.Value)
  | parameterWithoutType (parameter : Json.Value)

namespace Malformation

def message : Malformation → String
  | notJson fault => "Not a json: " ++ fault.message
  | noAbi => "Not a valid ABI"
  | entryNotObject entry => "ABI entry is not an object: " ++ entry.literal
  | entryWithoutName kind entry => kind ++ " entry without a name: " ++ entry.literal
  | notParameterList key value =>
    key ++ " is not a list of parameter objects: " ++ value.literal
  | parameterWithoutType parameter => "Parameter without a type: " ++ parameter.literal

end Malformation

inductive Problem where
  | malformedAbi (m : Malformation)
  | unknownType (source : String) (refusal : TypeString.Refusal)
  | unrecognizedType (type : EvmType) (position : String)
  | invalidName (raw : String)
  | unreadable (fault : FileFault) (path : String)
  | undecodable (fault : Text.Utf8.Fault)
  | oversizedNumeral (o : Decimal.Oversized)
  | embeddedNul
  | badPattern (fault : PatternFault)
  | unsupportedTarget
  | incomparableKinds
  | optionWithoutValue

namespace Problem

/-- Whether the problem lies in the ABI itself. -/
def isAbiProblem : Problem → Bool
  | malformedAbi _ => true
  | unknownType _ _ => true
  | unrecognizedType _ _ => true
  | invalidName _ => true
  | _ => false

/-- Whether a run goes on after the problem. -/
def isContained : Problem → Bool
  | unreadable _ _ => true
  | undecodable _ => true
  | p => p.isAbiProblem

theorem isContained_of_isAbiProblem {p : Problem} (h : p.isAbiProblem = true) :
    p.isContained = true := by
  cases p <;> simp_all [isContained, isAbiProblem]

def fileLabel : FileFault → String
  | .missing => "FileNotFoundError"
  | .notDirectory => "NotADirectoryError"
  | .isDirectory => "IsADirectoryError"
  | .present => "FileExistsError"
  | .nameTooLong => "OSError"
  | .tooManyLinks => "OSError"

/-- The word that reports put in front of the message. A problem that ends a run is in no report
and has none. -/
def label : Problem → String
  | malformedAbi _ => "MalformedAbiError"
  | unknownType _ _ => "UnknownAbiTypeError"
  | unrecognizedType _ _ => "UnrecognizedTypeError"
  | invalidName _ => "InvalidContractNameError"
  | unreadable fault _ => fileLabel fault
  | undecodable _ => "UnicodeDecodeError"
  | _ => ""

def inPosition (position : String) : String :=
  if position.isEmpty then "" else " in " ++ position ++ " position"

def withReason (reason : String) : String :=
  if reason.isEmpty then "" else " (" ++ reason ++ ")"

def message : Problem → String
  | malformedAbi m => m.message
  | unknownType source refusal =>
    "Unknown type: " ++ Text.quoted source ++ withReason refusal.reason
  | unrecognizedType type position =>
    "Unrecognized type " ++ type.literal ++ inPosition position
  | invalidName raw => "Can't guess class name, please rename file: " ++ raw
  | unreadable fault path => fault.message path
  | undecodable fault => fault.message
  | oversizedNumeral o => o.message
  | embeddedNul => "embedded null byte"
  | badPattern _ => "unacceptable pattern"
  | unsupportedTarget => "no target for this file"
  | incomparableKinds => "kinds that cannot be compared"
  | optionWithoutValue => "an option is without a value"

def ofTypeString (source : String) : TypeString.Fault → Problem
  | .refused r => unknownType source r
  | .oversized o => oversizedNumeral o

def ofUnrecognized (u : TypeScript.Unrecognized) : Problem :=
  unrecognizedType u.type u.direction.label

def ofPathFault (path : String) : PathFault → Problem
  | .embeddedNul => embeddedNul
  | .file fault => unreadable fault path

def ofSearchFault (path : String) : SearchFault → Problem
  | .pattern fault => badPattern fault
  | .file fault => unreadable fault path
  | .embeddedNul => embeddedNul

end Problem

end AbiTypings
