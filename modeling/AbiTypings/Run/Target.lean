import AbiTypings.Abi.Entry
import AbiTypings.TypeScript.Document

/-!
# Targets

A target turns one file into one document and adds the documents that belong to the run as a
whole. The declarations go to one directory: a document per contract, named after its file, and
the shared one.
-/

namespace AbiTypings.Run

open TypeScript

/-- A file to be written. -/
structure Output where
  path : String
  contents : String
  deriving DecidableEq, Repr

/-- What came of one file: remarks on it, and its output, nothing, or a problem. -/
structure Yield where
  remarks : List Remark
  result : Except Problem (Option Output)

def defaultDirectory : String := "./types/web3-contracts/"

def sharedName : String := "types.d.ts"

def documentName (stem : String) : String := stem ++ ".d.ts"

/-- The directory under `base` that the documents go to; the default one if none is named. -/
def outputDirectory (base : Path) (directory : Option String) : Path :=
  let named := match directory with
    | some d => if d.isEmpty then defaultDirectory else d
    | none => defaultDirectory
  base.join (.ofText named)

/-- The name that the file of a contract gives it. -/
def contractName (path : String) : String := (Path.ofText path).stem

inductive Target where
  | declarations (directory : Path)
  | unsupported

namespace Target

def yieldContract (directory : Path) (path : String) (abi : List Json.Value) : Yield :=
  let name := contractName path
  match Abi.readContract abi name with
  | (remarks, .error p) => ⟨remarks, .error p⟩
  | (remarks, .ok contract) =>
    match contractDocument defaultUnit contract with
    | .ok text => ⟨remarks, .ok (some ⟨(directory.child (documentName name)).text, text⟩)⟩
    | .error u => ⟨remarks, .error (.ofUnrecognized u)⟩

/-- An ABI without entries gives no document. -/
def yield (target : Target) (path contents : String) : Yield :=
  match target with
  | unsupported => ⟨[], .error .unsupportedTarget⟩
  | declarations directory =>
    match Abi.ofText contents with
    | .error p => ⟨[], .error p⟩
    | .ok [] => ⟨[.emptyAbi], .ok none⟩
    | .ok abi => yieldContract directory path abi

/-- The outputs of the run as a whole. -/
def closing : Target → List Output
  | declarations directory => [⟨(directory.child sharedName).text, sharedDocument⟩]
  | unsupported => []

end Target

end AbiTypings.Run
