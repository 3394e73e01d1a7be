import AbiTypings.CommandLine.Usage
import AbiTypings.Report.Summary

/-!
# Running the command

The command resolves its inputs, generates the outputs, prints or writes them, and ends with the
long summary. Its answer is a value: both output streams, the file tree afterwards, and the exit
status or the problem that ended it.
-/

namespace AbiTypings.CommandLine

open Run Report

structure Answer where
  status : Except Problem Nat
  stdout : String
  stderr : String
  outputs : List Output
  tree : FileTree

def loggerName : String := "abi2dts.abi2dts"

def logText (line : LogLine) : String :=
  line.level.label ++ " " ++ loggerName ++ ": " ++ line.text ++ "\n"

/-- Debug lines are shown only when the command is verbose. -/
def isShown (verbose : Bool) (line : LogLine) : Bool := verbose || line.level != .debug

def logTexts (verbose : Bool) (lines : List LogLine) : String :=
  String.join ((lines.filter (isShown verbose)).map logText)

def printedText (o : Output) : String := "// " ++ o.path ++ "\n" ++ o.contents ++ "\n"

/-- The status of a run that came to its end. -/
def exitStatus (s : Session) : Nat := if s.failed.isEmpty then 0 else 1

/-- Ends a run whose outputs are out. -/
def finish (a : Arguments) (s : Session) (stdout stderr : String) (outputs : List Output)
    (t : FileTree) : Answer :=
  let l := listing a.verbose s.notices
  let status := if l.complete then .ok (exitStatus s) else .error .incomparableKinds
  ⟨status, stdout, stderr ++ l.text, outputs, t⟩

def printOutputs (a : Arguments) (s : Session) (t : FileTree) (outputs : List Output) : Answer :=
  finish a s (String.join (outputs.map printedText)) (logTexts a.verbose s.log) [] t

def storeOutputs (a : Arguments) (s : Session) (t : FileTree) (outputs : List Output) : Answer :=
  let w := writeOutputs t outputs
  let stderr := logTexts a.verbose (s.log ++ w.paths.map writtenLog)
  let done := outputs.take w.paths.length
  match w.problem with
  | some p => ⟨.error p, "", stderr, done, w.storage⟩
  | none => finish a s "" stderr done w.storage

def noMatch (a : Arguments) : LogLine :=
  ⟨.error, "No ABI files matched: " ++ " ".intercalate a.inputs⟩

/-- The working directory has to be named for the outputs to have a place. -/
def sessionFor (a : Arguments) : Except Problem Session :=
  match a.cwd with
  | some cwd => .ok (.start (.declarations (outputDirectory (.ofText cwd) a.outDir)))
  | none => .error .optionWithoutValue

def runOn (a : Arguments) (t : FileTree) (paths : List String) : Answer :=
  match sessionFor a with
  | .error p => ⟨.error p, "", "", [], t⟩
  | .ok s =>
    match s.generate t paths with
    | (s, .error p) => ⟨.error p, "", logTexts a.verbose s.log, [], t⟩
    | (s, .ok outputs) =>
      if a.stdout then printOutputs a s t outputs else storeOutputs a s t outputs

def runWith (a : Arguments) (t : FileTree) : Answer :=
  match resolveInputs t a.pattern a.inputs with
  | .error p => ⟨.error p, "", "", [], t⟩
  | .ok [] => ⟨.ok 1, "", logTexts a.verbose [noMatch a], [], t⟩
  | .ok paths => runOn a t paths

def run (arguments : List String) (t : FileTree) : Answer :=
  match Arguments.read arguments with
  | .error .help => ⟨.ok 0, helpText, "", [], t⟩
  | .error (.refused r) => ⟨.ok 2, "", refusalText r, [], t⟩
  | .ok a => runWith a t

end AbiTypings.CommandLine
