import AbiTypings.Json.Display

/-!
# Notices

A notice is one thing to report about a file: an entry that was left out, an ABI with nothing in
it, or a failure. Its severity, code and words follow from what it says.
-/

namespace AbiTypings

inductive Severity where
  | error
  | warning
  | info
  deriving DecidableEq, Repr

def Severity.label : Severity → String
  | error => "error"
  | warning => "warning"
  | info => "info"

/-- A failure is kept as the label and the message of the problem behind it. -/
inductive Remark where
  | anonymousEvent (name : Json.Value)
  | unsupportedEntry (kind : Json.Value)
  | skippedEntry (kind : Json.Value)
  | emptyAbi
  | failure (label message : String)

/-- A remark on a file; the file is the empty text if none is known. -/
structure Notice where
  remark : Remark
  file : String

namespace Remark

def severity : Remark → Severity
  | anonymousEvent _ => .warning
  | unsupportedEntry _ => .warning
  | skippedEntry _ => .info
  | emptyAbi => .info
  | failure _ _ => .error

def code : Remark → String
  | anonymousEvent _ => "W001"
  | unsupportedEntry _ => "W002"
  | skippedEntry _ => "I001"
  | emptyAbi => "I002"
  | failure _ _ => "E001"

def message : Remark → String
  | anonymousEvent name => "Anonymous event \"" ++ name.display ++ "\" was skipped."
  | unsupportedEntry kind => "Unsupported ABI entry type \"" ++ kind.display ++ "\" was skipped."
  | skippedEntry kind => kind.display ++ " entry has no generated declaration."
  | emptyAbi => "Empty ABI, no declaration generated."
  | failure label message => label ++ ": " ++ message

def otherConstruct : Json.Value := .text "other"

/-- What the remark is about; reports group warnings by it. -/
def construct : Remark → Json.Value
  | anonymousEvent _ => .text "event"
  | unsupportedEntry kind => kind.orElse otherConstruct
  | skippedEntry kind => kind
  | emptyAbi => .text "file"
  | failure _ _ => .text "file"

end Remark

namespace Notice

def severity (n : Notice) : Severity := n.remark.severity

def construct (n : Notice) : Json.Value := n.remark.construct

/-- The group that the notice is counted in. -/
def group (n : Notice) : Json.Value := n.construct.orElse Remark.otherConstruct

def place (n : Notice) : String := if n.file.isEmpty then "" else n.file ++ ": "

def text (n : Notice) : String :=
  "[" ++ n.severity.label ++ "] " ++ n.place ++ n.remark.message ++
    " (" ++ n.remark.code ++ ")"

end Notice

end AbiTypings
