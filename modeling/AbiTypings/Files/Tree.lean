import AbiTypings.Files.Path
import AbiTypings.Files.Storage

/-!
# File trees

A file tree is a list of places, each holding a file or a directory, and a working directory
where relative paths start. A path is followed part by part as the operating system follows it:
double dots go to the directory above and only directories can be passed through. A tree has no
links, so every path leads to one place; disks have them.
-/

namespace AbiTypings

/-- The names that lead to a place from the root. -/
abbrev Location := List String

inductive FileEntry where
  | file (bytes : ByteArray)
  | directory

structure FileTree where
  entries : List (Location × FileEntry)
  workDir : Location

namespace FileTree

def maxNameBytes : Nat := 255

def maxPathBytes : Nat := 4095

def lookup {α : Type} (loc : Location) : List (Location × α) → Option α
  | [] => none
  | (l, e) :: rest => if l = loc then some e else lookup loc rest

/-- The root is a directory in every tree. -/
def entryAt (t : FileTree) (loc : Location) : Option FileEntry :=
  if loc = [] then some .directory else lookup loc t.entries

def isDirectoryAt (t : FileTree) (loc : Location) : Bool :=
  match t.entryAt loc with
  | some .directory => true
  | _ => false

def isFileAt (t : FileTree) (loc : Location) : Bool :=
  match t.entryAt loc with
  | some (.file _) => true
  | _ => false

def replace {α : Type} (loc : Location) (e : α) : List (Location × α) → List (Location × α)
  | [] => [(loc, e)]
  | (l, old) :: rest => if l = loc then (l, e) :: rest else (l, old) :: replace loc e rest

/-- What was at the place before is gone. -/
def put (t : FileTree) (loc : Location) (e : FileEntry) : FileTree :=
  ⟨replace loc e t.entries, t.workDir⟩

theorem lookup_replace_self {α : Type} (loc : Location) (e : α) (es : List (Location × α)) :
    lookup loc (replace loc e es) = some e := by
  induction es with
  | nil => simp [replace, lookup]
  | cons x rest ih =>
    obtain ⟨l, old⟩ := x
    by_cases h : l = loc <;> simp [replace, lookup, h, ih]

theorem lookup_replace_ne {α : Type} {loc other : Location} (h : other ≠ loc) (e : α)
    (es : List (Location × α)) :
    lookup other (replace loc e es) = lookup other es := by
  induction es with
  | nil => simp [replace, lookup, Ne.symm h]
  | cons x rest ih =>
    obtain ⟨l, old⟩ := x
    by_cases hl : l = loc
    · subst hl
      simp [replace, lookup, Ne.symm h]
    · by_cases ho : l = other
      · subst ho
        simp [replace, lookup, hl]
      · simp [replace, lookup, hl, ho, ih]

theorem entryAt_put_ne (t : FileTree) {loc other : Location} (h : other ≠ loc) (e : FileEntry) :
    (t.put loc e).entryAt other = t.entryAt other := by
  simp [entryAt, put, lookup_replace_ne h]

/-! ## Following a path -/

/-- Follows the pieces of a path, empty ones and dots included, from a place on. -/
def walk (t : FileTree) (loc : Location) : List String → Except FileFault Location
  | [] => .ok loc
  | piece :: rest =>
    if !t.isDirectoryAt loc then .error .notDirectory
    else if !Path.isPart piece then t.walk loc rest
    else if piece = ".." then t.walk loc.dropLast rest
    else if maxNameBytes < piece.utf8ByteSize then .error .nameTooLong
    else if (t.entryAt (loc ++ [piece])).isSome then t.walk (loc ++ [piece]) rest
    else .error .missing

def startOf (t : FileTree) (path : String) : Location :=
  if path.toList.head? = some '/' then [] else t.workDir

def checkPath (path : String) : Except PathFault Unit :=
  if path.toList.contains '\x00' then .error .embeddedNul
  else if path.isEmpty then .error (.file .missing)
  else if maxPathBytes < path.utf8ByteSize then .error (.file .nameTooLong)
  else .ok ()

def locate (t : FileTree) (path : String) : Except PathFault Location := do
  checkPath path
  (t.walk (t.startOf path) (Path.pieces path)).mapError .file

/-- What a path leads to, if anything. A name that is too long is a fault here. -/
def status (t : FileTree) (path : String) : Except FileFault (Option FileEntry) :=
  match t.locate path with
  | .ok loc => .ok (t.entryAt loc)
  | .error (.file .nameTooLong) => .error .nameTooLong
  | .error _ => .ok none

def isDirectory (t : FileTree) (path : String) : Except FileFault Bool :=
  (fun e ↦ match e with | some .directory => true | _ => false) <$> t.status path

def isFile (t : FileTree) (path : String) : Except FileFault Bool :=
  (fun e ↦ match e with | some (.file _) => true | _ => false) <$> t.status path

def isPresent (t : FileTree) (path : String) : Except FileFault Bool :=
  Option.isSome <$> t.status path

/-! ## Listing -/

def childName? (loc other : Location) : Option String :=
  if other ≠ [] ∧ other.dropLast = loc then other.getLast? else none

def namesIn (t : FileTree) (loc : Location) : List String :=
  t.entries.filterMap fun (l, _) ↦ childName? loc l

/-- The names that lead from `loc` to a place below it. -/
def below? (loc other : Location) : Option (List String) :=
  if loc.length < other.length ∧ other.take loc.length = loc then some (other.drop loc.length)
  else none

/-- The ways from a place to everything below it, with what is found there. -/
def below (t : FileTree) (loc : Location) : List (List String × FileEntry) :=
  t.entries.filterMap fun (l, e) ↦ (below? loc l).map fun names ↦ (names, e)

/-! ## Reading and writing -/

def readFile (t : FileTree) (path : String) : Except PathFault ByteArray := do
  let loc ← t.locate path
  match t.entryAt loc with
  | some (.file bytes) => return bytes
  | some .directory => .error (.file .isDirectory)
  | none => .error (.file .missing)

/-- The directory in which the last part of a path stands. -/
def locateParent (t : FileTree) (p : Path) : Except PathFault Location := do
  checkPath p.text
  let loc ← (t.walk (t.startOf p.text) p.parts.dropLast).mapError .file
  if t.isDirectoryAt loc then return loc else .error (.file .notDirectory)

def writeFile (t : FileTree) (p : Path) (bytes : ByteArray) : Except PathFault FileTree := do
  let loc ← t.locateParent p
  let place := loc ++ [p.name]
  if maxNameBytes < p.name.utf8ByteSize then .error (.file .nameTooLong)
  else if t.isDirectoryAt place then .error (.file .isDirectory)
  else return t.put place (.file bytes)

def makeDirectory (t : FileTree) (p : Path) : Except PathFault FileTree := do
  let loc ← t.locateParent p
  let place := loc ++ [p.name]
  if p.parts = [] ∨ p.name = ".." then .error (.file .present)
  else if maxNameBytes < p.name.utf8ByteSize then .error (.file .nameTooLong)
  else if (t.entryAt place).isSome then .error (.file .present)
  else return t.put place .directory

instance : Storage FileTree where
  readFile := readFile
  isDirectory := isDirectory
  makeDirectory := makeDirectory
  writeFile := writeFile

section Storage

variable (t : FileTree) (path : String) (p : Path)

@[simp] theorem storage_readFile : Storage.readFile t path = t.readFile path := rfl

@[simp] theorem storage_isDirectory : Storage.isDirectory t path = t.isDirectory path := rfl

@[simp] theorem storage_makeDirectory : Storage.makeDirectory t p = t.makeDirectory p := rfl

@[simp] theorem storage_writeFile (bytes : ByteArray) :
    Storage.writeFile t p bytes = t.writeFile p bytes := rfl

end Storage

end FileTree

end AbiTypings
