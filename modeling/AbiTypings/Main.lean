import AbiTypings.CommandLine.Run

/-!
# The command

The only module that touches the system. It takes a picture of the places that the arguments
reach, runs the command on the picture, and writes and prints what comes out. Links are not
followed, and a place that cannot be looked at is missing from the picture.
-/

namespace AbiTypings.CommandLine

/-! ## Places to look at -/

/-- The places that the parts of a path pass through, from `loc` on. -/
def passed (loc : Location) : List String → List Location
  | [] => [loc]
  | part :: rest =>
    loc :: passed (if part = ".." then loc.dropLast else loc ++ [part]) rest

def passedBy (start : Location) (p : Path) : List Location :=
  passed [] (if p.anchor = .relative then start ++ p.parts else p.parts)

/-- What stands before the wildcards of an input. -/
def frontOf (input : String) : Path :=
  .ofText (if Wildcard.isMagic input then String.ofList (FileTree.literalFront input.toList)
    else input)

def countUps (text : String) : Nat := (Path.ofText text).parts.count ".."

/-- The place below which an input and the pattern find their files. -/
def rootOf (start : Location) (pattern input : String) : Location :=
  let place := (passedBy start (frontOf input)).getLastD []
  place.take (place.length - (countUps input + countUps pattern))

/-- Roots that are not below another one. -/
def widest (roots : List Location) : List Location :=
  roots.eraseDups.filter fun loc ↦ roots.all fun other ↦ (FileTree.below? other loc).isNone

/-- Places passed on the way, as far as no root covers them. -/
def outside (roots places : List Location) : List Location :=
  places.eraseDups.filter fun loc ↦
    roots.all fun root ↦ root != loc && (FileTree.below? root loc).isNone

def outputPath (a : Arguments) : Path :=
  Run.outputDirectory (.ofText (a.cwd.getD ".")) a.outDir

/-! ## The picture -/

def entryOf (loc : Location) : IO.FS.DirEntry := ⟨"/", "/".intercalate loc⟩

/-- What stands at a place; files are left empty. -/
def glance (loc : Location) : IO (List (Location × FileEntry)) :=
  try
    match (← (entryOf loc).path.metadata).type with
    | .dir => return [(loc, .directory)]
    | .file => return [(loc, .file .empty)]
    | _ => return []
  catch _ => return []

def namesAt (loc : Location) : IO (List String) :=
  try
    match (← (entryOf loc).path.symlinkMetadata).type with
    | .dir => return (← (entryOf loc).path.readDir).toList.map (·.fileName)
    | _ => return []
  catch _ => return []

partial def outline (loc : Location) : IO (List (Location × FileEntry)) := do
  let here ← glance loc
  let below ← (← namesAt loc).mapM fun name ↦ outline (loc ++ [name])
  return here ++ below.flatten

/-- The outline of all that the arguments reach. -/
def outlineFor (start : Location) (a : Arguments) : IO FileTree := do
  let roots := widest (a.inputs.map (rootOf start a.pattern))
  let target := passedBy start (outputPath a)
  let outputs := (← namesAt (target.getLastD [])).map (target.getLastD [] ++ [·])
  let places := a.inputs.flatMap (passedBy start <| frontOf ·) ++ target ++ outputs
  let inside ← roots.mapM outline
  let around ← (outside roots places).mapM glance
  return ⟨(around ++ inside).flatten, start⟩

def fill (t : FileTree) (path : String) : IO FileTree :=
  match t.locate path with
  | .ok loc => return t.put loc (.file (← IO.FS.readBinFile path))
  | .error _ => return t

/-- The picture holds the contents of the files that the command will read. -/
def picture (start : Location) (a : Arguments) : IO FileTree := do
  let t ← outlineFor start a
  match Run.resolveInputs t a.pattern a.inputs with
  | .ok paths => paths.foldlM fill t
  | .error _ => return t

/-! ## Carrying out the answer -/

def store (o : Run.Output) : IO Unit := do
  IO.FS.createDirAll (Path.ofText o.path).parent.text
  IO.FS.writeBinFile o.path o.contents.toUTF8

def conclude (a : Answer) : IO UInt32 := do
  a.outputs.forM store
  IO.print a.stdout
  IO.eprint a.stderr
  match a.status with
  | .ok n => return n.toUInt32
  | .error p =>
    IO.eprintln p.message
    return 1

end AbiTypings.CommandLine

def main (arguments : List String) : IO UInt32 := do
  let start := (AbiTypings.Path.ofText (← IO.currentDir).toString).parts
  let t ← match AbiTypings.CommandLine.Arguments.read arguments with
    | .ok a => AbiTypings.CommandLine.picture start a
    | .error _ => pure ⟨[], start⟩
  AbiTypings.CommandLine.conclude (AbiTypings.CommandLine.run arguments t)
