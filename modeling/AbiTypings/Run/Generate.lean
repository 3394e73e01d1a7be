import AbiTypings.Run.Target
import AbiTypings.Text.Newline

/-!
# Runs over many files

A run takes files one after the other. A contained problem with one of them is reported and the
run goes on; the closing outputs of the target come last. What has been reported stays in the
session, also when a run ends early.
-/

namespace AbiTypings.Run

inductive LogLevel where
  | debug
  | info
  | error
  deriving DecidableEq, Repr

def LogLevel.label : LogLevel → String
  | debug => "DEBUG"
  | info => "INFO"
  | error => "ERROR"

structure LogLine where
  level : LogLevel
  text : String
  deriving DecidableEq, Repr

/-- A target, and everything reported since the session began. -/
structure Session where
  target : Target
  notices : List Notice
  failed : List String
  log : List LogLine

def Session.start (target : Target) : Session := ⟨target, [], [], []⟩

variable {σ : Type} [Storage σ]

/-- The text of a file. Its lines may end in any of the usual ways. -/
def readText (t : σ) (path : String) : Except Problem String := do
  let bytes ← (Storage.readFile t path).mapError (.ofPathFault path)
  let cs ← (Text.Utf8.decode bytes.toList).mapError .undecodable
  return String.ofList (Text.unifyNewlines cs)

def yieldFile (target : Target) (t : σ) (path : String) : Yield :=
  match readText t path with
  | .error p => ⟨[], .error p⟩
  | .ok contents => target.yield path contents

def remarkLog (path : String) : Remark → Option LogLine
  | .emptyAbi => some ⟨.debug, "Empty ABI in " ++ path ++ ", skipping"⟩
  | _ => none

namespace Session

def note (s : Session) (path : String) (remarks : List Remark) : Session :=
  { s with
    notices := s.notices ++ remarks.map (⟨·, path⟩)
    log := s.log ++ remarks.filterMap (remarkLog path) }

def fail (s : Session) (path : String) (p : Problem) : Session :=
  { s with
    notices := s.notices ++ [⟨.failure p.label p.message, path⟩]
    failed := s.failed ++ [path]
    log := s.log ++ [⟨.error, "Error generating " ++ path ++ ": " ++ p.message⟩] }

/-- Takes one file; its problem, of whatever kind, is handed back. -/
def generateFile (s : Session) (t : σ) (path : String) :
    Session × Except Problem (Option Output) :=
  let y := yieldFile s.target t path
  (s.note path y.remarks, y.result)

end Session

/-- An output with the path of an earlier one takes its place. -/
def putOutput (o : Output) : List Output → List Output
  | [] => [o]
  | p :: rest => if p.path = o.path then o :: rest else p :: putOutput o rest

namespace Session

def generateOnto (s : Session) (t : σ) (outputs : List Output) :
    List String → Session × Except Problem (List Output)
  | [] => (s, .ok (s.target.closing.foldl (fun outs o ↦ putOutput o outs) outputs))
  | path :: rest =>
    match s.generateFile t path with
    | (s, .ok none) => s.generateOnto t outputs rest
    | (s, .ok (some o)) => s.generateOnto t (putOutput o outputs) rest
    | (s, .error p) =>
      if p.isContained then (s.fail path p).generateOnto t outputs rest else (s, .error p)

def generate (s : Session) (t : σ) (paths : List String) :
    Session × Except Problem (List Output) :=
  s.generateOnto t [] paths

end Session

/-! ## Writing -/

/-- The parts of the parent directory, last one first. -/
def writeOutput (t : σ) (o : Output) : σ × Except Problem Unit :=
  let p := Path.ofText o.path
  match Storage.makeDirectories t p.anchor p.parent.parts.reverse with
  | (t, .error fault) => (t, .error (.ofPathFault p.parent.text fault))
  | (t, .ok ()) =>
    match Storage.writeFile t p o.contents.toUTF8 with
    | .ok t => (t, .ok ())
    | .error fault => (t, .error (.ofPathFault p.text fault))

/-- What writing left behind: the files, the paths written, and the problem that ended it early. -/
structure Written (σ : Type) where
  storage : σ
  paths : List String
  problem : Option Problem

def writeOutputs (t : σ) : List Output → Written σ
  | [] => ⟨t, [], none⟩
  | o :: rest =>
    match writeOutput t o with
    | (t, .error p) => ⟨t, [], some p⟩
    | (t, .ok ()) =>
      let w := writeOutputs t rest
      ⟨w.storage, o.path :: w.paths, w.problem⟩

def writtenLog (path : String) : LogLine := ⟨.info, "Written: " ++ path⟩

end AbiTypings.Run
