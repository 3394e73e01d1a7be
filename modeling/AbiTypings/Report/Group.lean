import AbiTypings.Json.Value
import AbiTypings.Report.Notice
import AbiTypings.Sorting.RunSort

/-!
# Groups of warnings

Warnings are grouped by what they are about. Texts are compared as texts and numbers by their
value, true counting as one; a list or an object can name no group, and texts and numbers cannot
be put in one order. An undefined number has no place of its own in the order.
-/

namespace AbiTypings.Report

inductive Quantity where
  | undefined
  | infinite (negative : Bool)
  | ratio (num : Int) (den : Nat)
  deriving DecidableEq, Repr

namespace Quantity

def ofInt (n : Int) : Quantity := .ratio n 1

def ofFloat (x : Decimal.Binary64) : Quantity :=
  match x with
  | .nan => .undefined
  | .infinite negative => .infinite negative
  | x =>
    match x.ratio? with
    | some (num, den) => .ratio num den
    | none => .undefined

/-- An undefined number is the same as itself and comes neither before nor after any other. -/
def same : Quantity → Quantity → Bool
  | ratio a b, ratio c d => a * d == c * b
  | p, q => p == q

def before : Quantity → Quantity → Bool
  | ratio a b, ratio c d => decide (a * d < c * b)
  | infinite true, ratio _ _ => true
  | infinite true, infinite false => true
  | ratio _ _, infinite false => true
  | _, _ => false

end Quantity

inductive GroupKey where
  | text (s : String)
  | number (q : Quantity)
  deriving DecidableEq, Repr

namespace GroupKey

def of? : Json.Value → Option GroupKey
  | .text s => some (.text s)
  | .bool b => some (.number (.ofInt (if b then 1 else 0)))
  | .int n => some (.number (.ofInt n))
  | .float x => some (.number (.ofFloat x))
  | _ => none

/-- Whether the key has a place among the keys of its kind. -/
def hasPlace : GroupKey → Bool
  | number .undefined => false
  | _ => true

def isText : GroupKey → Bool
  | text _ => true
  | number _ => false

def same : GroupKey → GroupKey → Bool
  | text s, text t => s == t
  | number p, number q => p.same q
  | _, _ => false

/-- Texts come in the order of their characters' code points. -/
def before : GroupKey → GroupKey → Bool
  | text s, text t => decide (s < t)
  | number p, number q => p.before q
  | _, _ => false

end GroupKey

/-- Warnings about the same thing, shown under the first value that named it. -/
structure Group where
  key : GroupKey
  shown : Json.Value
  members : List Notice

namespace Group

def add (key : GroupKey) (shown : Json.Value) (n : Notice) : List Group → List Group
  | [] => [⟨key, shown, [n]⟩]
  | g :: rest =>
    if g.key.same key then ⟨g.key, g.shown, g.members ++ [n]⟩ :: rest
    else g :: add key shown n rest

def collectOnto (groups : List Group) : List Notice → Option (List Group)
  | [] => some groups
  | n :: rest =>
    match GroupKey.of? n.group with
    | some key => collectOnto (add key n.group n groups) rest
    | none => none

/-- The groups in the order of their first members; none if a warning can be in no group. -/
def collect (notices : List Notice) : Option (List Group) := collectOnto [] notices

/-- Puts a group behind the last one that it does not come before. -/
def insertReversed (g : Group) : List Group → List Group
  | [] => [g]
  | h :: rest => if g.key.before h.key then h :: insertReversed g rest else g :: h :: rest

def sort (groups : List Group) : List Group :=
  if groups.all (·.key.hasPlace) then
    (groups.foldl (fun sorted g ↦ insertReversed g sorted) []).reverse
  else Sorting.runSort (fun g h ↦ g.key.before h.key) groups

def areComparable (groups : List Group) : Bool :=
  groups.all (·.key.isText) || groups.all (!·.key.isText)

/-- The groups of the warnings in order, if they have one. -/
def ordered? (notices : List Notice) : Option (List Group) :=
  match collect notices with
  | some groups => if areComparable groups then some (sort groups) else none
  | none => none

end Group

end AbiTypings.Report
