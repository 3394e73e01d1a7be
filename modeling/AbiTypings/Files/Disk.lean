import AbiTypings.Files.Tree

/-!
# Disks

On a disk names and files are two things. A place holds a directory, a link, or the number of a
file, and contents belong to a number, so one file may have several names. Links are followed
wherever they stand in a path. The last name of a path is followed too when a file is opened: what
is written to a path goes to the file that it leads to, wherever that is.
-/

namespace AbiTypings

inductive Node where
  | file (number : Nat)
  | directory
  | link (target : String)
  deriving DecidableEq, Repr

structure Disk where
  nodes : List (Location × Node)
  contents : Nat → ByteArray
  workDir : Location

namespace Disk

/-- No more links than these are followed for one path. -/
def maxLinks : Nat := 40

/-- The root is a directory on every disk. -/
def nodeAt (d : Disk) (loc : Location) : Option Node :=
  if loc = [] then some .directory else FileTree.lookup loc d.nodes

def put (d : Disk) (loc : Location) (node : Node) : Disk :=
  { d with nodes := FileTree.replace loc node d.nodes }

def setContents (d : Disk) (number : Nat) (bytes : ByteArray) : Disk :=
  { d with contents := fun n ↦ if n = number then bytes else d.contents n }

/-- A number above those of all files. -/
def nextNumber : List (Location × Node) → Nat
  | [] => 0
  | (_, .file number) :: rest => max (number + 1) (nextNumber rest)
  | _ :: rest => nextNumber rest

/-! ## Following a path -/

/-- Where a path starts that is read at a place. -/
def startAt (loc : Location) (path : String) : Location :=
  if path.toList.head? = some '/' then [] else loc

/-- Follows the pieces of a path from a place on, as far as there is no link. A link is handed
over with what is left behind it. The last name need not be there. -/
def walk (d : Disk) (onLink : Location → List String → Except FileFault Location)
    (loc : Location) : List String → Except FileFault Location
  | [] => .ok loc
  | piece :: rest =>
    if d.nodeAt loc ≠ some .directory then .error .notDirectory
    else if !Path.isPart piece then d.walk onLink loc rest
    else if piece = ".." then d.walk onLink loc.dropLast rest
    else if FileTree.maxNameBytes < piece.utf8ByteSize then .error .nameTooLong
    else
      match d.nodeAt (loc ++ [piece]), rest with
      | some (.link target), _ => onLink (startAt loc target) (Path.pieces target ++ rest)
      | some _, _ => d.walk onLink (loc ++ [piece]) rest
      | none, [] => .ok (loc ++ [piece])
      | none, _ => .error .missing

/-- Follows the pieces of a path and up to so many links. -/
def resolve (d : Disk) : Nat → Location → List String → Except FileFault Location
  | 0 => d.walk fun _ _ ↦ .error .tooManyLinks
  | links + 1 => d.walk (d.resolve links)

/-- The place that a path leads to. There may be nothing yet. -/
def locate (d : Disk) (path : String) : Except PathFault Location := do
  FileTree.checkPath path
  (d.resolve maxLinks (startAt d.workDir path) (Path.pieces path)).mapError .file

/-! ## Reading and writing -/

def readFile (d : Disk) (path : String) : Except PathFault ByteArray := do
  let loc ← d.locate path
  match d.nodeAt loc with
  | some (.file number) => return d.contents number
  | some .directory => .error (.file .isDirectory)
  | some (.link _) => .error (.file .tooManyLinks)
  | none => .error (.file .missing)

/-- A name that is too long is a fault here. -/
def isDirectory (d : Disk) (path : String) : Except FileFault Bool :=
  match d.locate path with
  | .ok loc => .ok (d.nodeAt loc == some .directory)
  | .error (.file .nameTooLong) => .error .nameTooLong
  | .error _ => .ok false

/-- The directory in which the last part of a path stands. -/
def locateParent (d : Disk) (p : Path) : Except PathFault Location := do
  FileTree.checkPath p.text
  let loc ← (d.resolve maxLinks (startAt d.workDir p.text) p.parts.dropLast).mapError .file
  match d.nodeAt loc with
  | some .directory => return loc
  | some _ => .error (.file .notDirectory)
  | none => .error (.file .missing)

/-- A link that stands under the new name is not followed. -/
def makeDirectory (d : Disk) (p : Path) : Except PathFault Disk := do
  let loc ← d.locateParent p
  let place := loc ++ [p.name]
  if p.parts = [] ∨ p.name = ".." then .error (.file .present)
  else if FileTree.maxNameBytes < p.name.utf8ByteSize then .error (.file .nameTooLong)
  else if (d.nodeAt place).isSome then .error (.file .present)
  else return d.put place .directory

/-- Writes the file that the path leads to, a new one if there is none. -/
def writeFile (d : Disk) (p : Path) (bytes : ByteArray) : Except PathFault Disk := do
  let loc ← d.locate p.text
  match d.nodeAt loc with
  | some (.file number) => return d.setContents number bytes
  | some .directory => .error (.file .isDirectory)
  | some (.link _) => .error (.file .tooManyLinks)
  | none =>
    let number := nextNumber d.nodes
    return (d.put loc (.file number)).setContents number bytes

instance : Storage Disk where
  readFile := readFile
  isDirectory := isDirectory
  makeDirectory := makeDirectory
  writeFile := writeFile

end Disk

end AbiTypings
