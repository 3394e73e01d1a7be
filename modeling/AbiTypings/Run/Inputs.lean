import AbiTypings.Problem
import AbiTypings.Run.Generate

/-!
# Inputs of a run

An input is a file, a directory or a pattern. Together they name a set of files, which is taken
in the order of code points.
-/

namespace AbiTypings.Run

def defaultPattern : String := "**/*.json"

/-- Keeps the list strictly increasing. -/
def insertPath (path : String) : List String → List String
  | [] => [path]
  | p :: rest =>
    if path = p then p :: rest
    else if path < p then path :: p :: rest
    else p :: insertPath path rest

/-- The paths in increasing order, each once. -/
def sortPaths (paths : List String) : List String :=
  paths.foldl (fun sorted path ↦ insertPath path sorted) []

/-- The paths in increasing order, with all their repetitions. -/
def orderPaths (paths : List String) : List String := paths.mergeSort fun a b ↦ decide (a ≤ b)

/-- The files that one input names. -/
def filesOf (t : FileTree) (pattern input : String) : Except Problem (List String) := do
  let p := Path.ofText input
  if ← (t.isDirectory p.text).mapError (.unreadable · p.text) then
    (t.filesUnder p pattern).mapError (.ofSearchFault p.text)
  else if ← (t.isFile p.text).mapError (.unreadable · p.text) then
    return [p.text]
  else
    (t.filesNamed input).mapError (.ofSearchFault input)

def resolveInputs (t : FileTree) (pattern : String) (inputs : List String) :
    Except Problem (List String) := do
  let found ← inputs.mapM (filesOf t pattern)
  return sortPaths found.flatten

/-- Takes the files below a directory that a pattern matches. -/
def Session.generateDirectory (s : Session) (t : FileTree) (directory pattern : String) :
    Session × Except Problem (List Output) :=
  let p := Path.ofText directory
  match t.filesUnder p pattern with
  | .error fault => (s, .error (.ofSearchFault p.text fault))
  | .ok paths => s.generate t (orderPaths paths)

end AbiTypings.Run
