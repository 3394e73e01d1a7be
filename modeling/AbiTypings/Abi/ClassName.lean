import AbiTypings.Problem
import AbiTypings.Text.Blank
import AbiTypings.Text.Capital

/-!
# Class names

The class of a contract is named after its file. Runs of blanks and points become hyphens, a
small letter behind a hyphen becomes a capital, the hyphens go, then the digits in front, and
what is left starts with a capital.
-/

namespace AbiTypings.Abi

open Text

/-- One hyphen for each run of blanks; `inRun` says that one has just been written. -/
def hyphenateBlanks (inRun : Bool) : List Char → List Char
  | [] => []
  | c :: cs =>
    if isBlank c then
      if inRun then hyphenateBlanks true cs else '-' :: hyphenateBlanks true cs
    else c :: hyphenateBlanks false cs

def hyphenatePoints (cs : List Char) : List Char := cs.map fun c ↦ if c = '.' then '-' else c

/-- A pair of a hyphen and a small letter gives the capital; other hyphens stay. -/
def raiseAfterHyphens : List Char → List Char
  | '-' :: c :: cs =>
    if 'a' ≤ c ∧ c ≤ 'z' then asciiCapital c :: raiseAfterHyphens cs
    else '-' :: raiseAfterHyphens (c :: cs)
  | c :: cs => c :: raiseAfterHyphens cs
  | [] => []

def dropHyphens (cs : List Char) : List Char := cs.filter (· != '-')

def capitalizeFirst : List Char → List Char
  | [] => []
  | c :: cs => capital c ++ cs

def classNameChars (raw : List Char) : List Char :=
  capitalizeFirst ((dropHyphens (raiseAfterHyphens
    (hyphenatePoints (hyphenateBlanks false raw)))).dropWhile isDigit)

def className (raw : String) : Except Problem String :=
  match classNameChars raw.toList with
  | [] => .error (.invalidName raw)
  | cs => .ok (String.ofList cs)

end AbiTypings.Abi
