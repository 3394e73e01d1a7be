/-!
# Paths

A path is an anchor and a list of parts. Reading one from text drops empty parts and single
dots but keeps double dots, and exactly two slashes in front are told apart from one.
-/

namespace AbiTypings

inductive Anchor where
  | relative
  | root
  | doubleRoot
  deriving DecidableEq, Repr

def Anchor.text : Anchor → String
  | relative => ""
  | root => "/"
  | doubleRoot => "//"

structure Path where
  anchor : Anchor
  parts : List String
  deriving DecidableEq, Repr

namespace Path

/-- The pieces between the slashes of a text; there is always one more than there are slashes. -/
def splitSlashes : List Char → List (List Char)
  | [] => [[]]
  | c :: cs =>
    if c = '/' then [] :: splitSlashes cs
    else match splitSlashes cs with
      | [] => [[c]]
      | piece :: rest => (c :: piece) :: rest

theorem splitSlashes_ne_nil (cs : List Char) : splitSlashes cs ≠ [] := by
  cases cs with
  | nil => simp [splitSlashes]
  | cons c cs =>
    by_cases h : c = '/'
    · simp [splitSlashes, h]
    · simp only [splitSlashes, h, if_false]
      split <;> simp

/-- All pieces of a text, empty ones and dots included. -/
def pieces (s : String) : List String := (splitSlashes s.toList).map String.ofList

def isPart (piece : String) : Bool := piece != "" && piece != "."

def anchorOf : List Char → Anchor
  | '/' :: '/' :: '/' :: _ => .root
  | '/' :: '/' :: _ => .doubleRoot
  | '/' :: _ => .root
  | _ => .relative

def ofText (s : String) : Path := ⟨anchorOf s.toList, (pieces s).filter isPart⟩

/-- The path with nothing in it is written as a dot. -/
def text (p : Path) : String :=
  if p.anchor = .relative ∧ p.parts = [] then "." else p.anchor.text ++ "/".intercalate p.parts

/-- An anchored right-hand side replaces the left one. -/
def join (p q : Path) : Path :=
  if q.anchor = .relative then ⟨p.anchor, p.parts ++ q.parts⟩ else q

def child (p : Path) (name : String) : Path := ⟨p.anchor, p.parts ++ [name]⟩

def parent (p : Path) : Path := ⟨p.anchor, p.parts.dropLast⟩

/-- The last part, empty if there is none. -/
def name (p : Path) : String := p.parts.getLastD ""

@[simp] theorem parent_child (p : Path) (name : String) : (p.child name).parent = p := by
  simp [parent, child]

@[simp] theorem name_child (p : Path) (s : String) : (p.child s).name = s := by
  simp [name, child]

/-- A name without its last extension. A point at the start or at the end begins none. -/
def dropExtension (name : List Char) : List Char :=
  let extension := name.reverse.takeWhile (· != '.')
  let stem := (name.reverse.dropWhile (· != '.')).drop 1
  if extension.isEmpty || stem.isEmpty then name else stem.reverse

def stem (p : Path) : String := String.ofList (dropExtension p.name.toList)

end Path

end AbiTypings
