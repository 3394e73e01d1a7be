import AbiTypings.Files.Tree
import AbiTypings.Files.Wildcard

/-!
# Searching a file tree

Two kinds of search. `FileTree.filesUnder` looks below a directory for what a relative pattern
matches, names with a point in front included. `FileTree.filesNamed` takes a whole text as a
pattern, keeps its spelling in the answers and lets wildcards skip names with a point in front.
In both, a part that is two stars stands for any chain of directories.
-/

namespace AbiTypings

inductive PatternFault where
  | empty
  | anchored
  | starsInside
  | noParts
  | onlySlash
  deriving DecidableEq, Repr

inductive SearchFault where
  | pattern (fault : PatternFault)
  | file (fault : FileFault)
  | embeddedNul
  deriving DecidableEq, Repr

/-- One part of a relative pattern. The last part may be a mark that asks for a directory. -/
inductive PatternPart where
  | name (s : String)
  | wildcard (s : String)
  | chain
  | directoryMark
  deriving DecidableEq, Repr

namespace PatternPart

def hasTwoStars : List Char → Bool
  | '*' :: '*' :: _ => true
  | _ :: cs => hasTwoStars cs
  | [] => false

def ofText (s : String) : Except PatternFault PatternPart :=
  if s = "**" then .ok .chain
  else if hasTwoStars s.toList then .error .starsInside
  else if Wildcard.isMagic s then .ok (.wildcard s)
  else .ok (.name s)

end PatternPart

def patternParts (pattern : String) : Except PatternFault (List PatternPart) :=
  if pattern.isEmpty then .error .empty
  else
    let p := Path.ofText pattern
    let slash := pattern.toList.getLast? == some '/'
    if p.anchor ≠ .relative then .error .anchored
    else if p.parts = [] then .error (if slash then .onlySlash else .noParts)
    else do
      let parts ← p.parts.mapM PatternPart.ofText
      return if slash then parts ++ [.directoryMark] else parts

namespace FileTree

def place? (t : FileTree) (path : String) : Option Location :=
  match t.locate path with
  | .ok loc => some loc
  | .error _ => none

/-- The names in the directory that a path leads to, none if it leads to no directory. With
`directories` only the names of directories. -/
def list (t : FileTree) (path : String) (directories : Bool) : List String :=
  match t.place? path with
  | none => []
  | some loc =>
    if t.isDirectoryAt loc then
      (t.namesIn loc).filter fun name ↦ !directories || t.isDirectoryAt (loc ++ [name])
    else []

/-- The ways down from the directory that a path leads to. With `directories` only those that
end in a directory. -/
def descend (t : FileTree) (path : String) (directories : Bool) : List (List String) :=
  match t.place? path with
  | none => []
  | some loc =>
    if t.isDirectoryAt loc then
      (t.below loc).filterMap fun (names, e) ↦
        match e with
        | .directory => some names
        | .file _ => if directories then none else some names
    else []

/-! ## Below a directory -/

/-- A directory that is looked into. A path that is too long to be used stops the search. -/
def opened (t : FileTree) (p : Path) : Except FileFault Path := (fun _ ↦ p) <$> t.status p.text

/-- The directories that a chain leads to from the directory `p`, that one first. -/
def chainFrom (t : FileTree) (p : Path) : List Path :=
  ([] :: t.descend p.text true).map fun names ↦ ⟨p.anchor, p.parts ++ names⟩

/-- The paths that one part leads to from the directory `p`. With `last` nothing stands behind
the part; otherwise it has to lead to directories. -/
def selectPart (t : FileTree) (p : Path) (part : PatternPart) (last : Bool) :
    Except FileFault (List Path) :=
  match part with
  | .directoryMark => .ok [p]
  | .name s => do
    let path := (p.child s).text
    let found ← if last then t.isPresent path else t.isDirectory path
    return if found then [p.child s] else []
  | .wildcard s => do
    let p ← t.opened p
    return ((t.list p.text !last).filter (wildcardMatches s)).map p.child
  | .chain => (t.chainFrom p).mapM t.opened

/-- The paths that the parts lead to from some directories, each once. -/
def select (t : FileTree) (paths : List Path) : List PatternPart → Except FileFault (List Path)
  | [] => .ok paths
  | part :: rest => do
    let found ← paths.mapM fun p ↦ t.selectPart p part rest.isEmpty
    t.select found.flatten.eraseDups rest

def filesUnder (t : FileTree) (directory : Path) (pattern : String) :
    Except SearchFault (List String) := do
  let parts ← (patternParts pattern).mapError .pattern
  let isDirectory ← (t.isDirectory directory.text).mapError .file
  if isDirectory then
    let found ← (t.select [directory] parts).mapError .file
    (found.map Path.text).filterM fun path ↦ (t.isFile path).mapError .file
  else return []

/-! ## By a pattern text -/

/-- A text cut behind its last slash; slashes at the end of the first half are dropped unless
there is nothing else in it. -/
def splitLast (cs : List Char) : List Char × List Char :=
  let last := (cs.reverse.takeWhile (· != '/')).reverse
  let front := cs.reverse.dropWhile (· != '/')
  let trimmed := front.dropWhile (· == '/')
  (if trimmed.isEmpty then front.reverse else trimmed.reverse, last)

/-- A name behind a directory text; a slash is put between them where one is needed. -/
def attach (directory name : String) : String :=
  if directory.isEmpty || directory.toList.getLast? == some '/' then directory ++ name
  else directory ++ "/" ++ name

def isHidden (name : String) : Bool := name.toList.head? == some '.'

/-- The empty text stands for the working directory. -/
def orHere (directory : String) : String := if directory.isEmpty then "." else directory

/-- The names in a directory that one part of a pattern matches. A double star matches the empty
name first, without a look at the directory, so a file with a slash behind it can be an answer. -/
def matchLast (t : FileTree) (directory last : String) (directories : Bool) : List String :=
  let here := orHere directory
  if last = "**" then
    "" :: ((t.descend here directories).filter (!·.any isHidden)).map ("/".intercalate ·)
  else if Wildcard.isMagic last then
    (t.list here directories).filter fun name ↦
      (isHidden last || !isHidden name) && wildcardMatches last name
  else if last.isEmpty then
    match t.place? here with
    | some loc => if t.isDirectoryAt loc then [""] else []
    | none => []
  else if (t.place? (attach directory last)).isSome then [last]
  else []

/-- The texts that a pattern text stands for, each once. It has at most `fuel` parts. -/
def expand (t : FileTree) (fuel : Nat) (pattern : String) (directories : Bool) : List String :=
  let (front, last) := splitLast pattern.toList
  let front := String.ofList front
  let last := String.ofList last
  if !Wildcard.isMagic pattern then
    if last.isEmpty then
      match t.place? front with
      | some loc => if t.isDirectoryAt loc then [pattern] else []
      | none => []
    else if (t.place? pattern).isSome then [pattern]
    else []
  else
    let fronts :=
      match fuel with
      | 0 => [front]
      | fuel + 1 =>
        if Wildcard.isMagic front && front != pattern then t.expand fuel front true else [front]
    (fronts.flatMap fun directory ↦
      (t.matchLast directory last directories).map (attach directory)).eraseDups

/-- What stands before the first part with a wildcard. That directory is always listed. -/
def literalFront (cs : List Char) : List Char :=
  ((cs.takeWhile (!Wildcard.isMagicChar ·)).reverse.dropWhile (· != '/')).reverse

/-- A NUL in a directory that has to be listed stops the search. -/
def listsWithNul (pattern : String) : Bool :=
  Wildcard.isMagic pattern && (literalFront pattern.toList).contains '\x00'

def filesNamed (t : FileTree) (pattern : String) : Except SearchFault (List String) :=
  if listsWithNul pattern then .error .embeddedNul
  else
    (t.expand pattern.length pattern false).filterM fun path ↦
      (t.isFile (Path.ofText path).text).mapError .file

end FileTree

end AbiTypings
