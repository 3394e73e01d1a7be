import AbiTypings.Sorting.Place

/-!
# Merging two runs

Two neighbouring runs are merged from the front or from the back, from the side of the shorter
one. Elements are taken one by one until one run has won often enough; then whole stretches are
taken, as long as they stay long.
-/

namespace AbiTypings.Sorting

/-- How to merge, with the runs in the order in which their elements are taken. The first run
wins when `wins` holds of the two heads. `stretchOne` and `stretchTwo` say how many elements of a
run go before the head of the other one. -/
structure Mode (α : Type) where
  wins : α → α → Bool
  stretchOne : α → List α → Nat
  stretchTwo : α → List α → Nat
  oneFirst : Bool

def frontMode {α : Type} (before : α → α → Bool) : Mode α where
  wins x y := before x y
  stretchOne y xs := countFront (fun x ↦ before x y) xs
  stretchTwo x ys := countFront (fun y ↦ !before x y) ys
  oneFirst := false

def backMode {α : Type} (before : α → α → Bool) : Mode α where
  wins x y := before y x
  stretchOne y xs := countBack (fun x ↦ !before y x) xs
  stretchTwo x ys := countBack (fun y ↦ before y x) ys
  oneFirst := true

/-- What is left of the two runs, and the elements taken, last one first. -/
structure Merging (α : Type) where
  one : List α
  two : List α
  taken : List α

namespace Merging

variable {α : Type}

/-- One run used up, or one element left in the other: the rest is in order. -/
def isDone (m : Merging α) : Bool := m.one.isEmpty || decide (m.two.length ≤ 1)

def takeOne (m : Merging α) (n : Nat) : Merging α :=
  ⟨m.one.drop n, m.two, (m.one.take n).reverse ++ m.taken⟩

def takeTwo (m : Merging α) (n : Nat) : Merging α :=
  ⟨m.one, m.two.drop n, (m.two.take n).reverse ++ m.taken⟩

def finish (m : Merging α) : List α := m.taken.reverse ++ m.one ++ m.two

def nextIfOpen (m : Merging α) (f : Merging α → Merging α) : Merging α :=
  if m.isDone then m else f m

/-- A stretch of the first run, with its length, and one element of the second. -/
def stretchOne (mode : Mode α) (m : Merging α) : Merging α × Nat :=
  match m.two with
  | [] => (m, 0)
  | y :: _ =>
    let n := mode.stretchOne y m.one
    ((m.takeOne n).nextIfOpen (·.takeTwo 1), n)

def stretchTwo (mode : Mode α) (m : Merging α) : Merging α × Nat :=
  match m.one with
  | [] => (m, 0)
  | x :: _ =>
    let n := mode.stretchTwo x m.two
    ((m.takeTwo n).nextIfOpen (·.takeOne 1), n)

/-- A stretch of each run, with the length of the longer one. -/
def stretchBoth (mode : Mode α) (m : Merging α) : Merging α × Nat :=
  let (first, second) :=
    if mode.oneFirst then (stretchOne mode, stretchTwo mode)
    else (stretchTwo mode, stretchOne mode)
  let (m, n) := first m
  if m.isDone then (m, n)
  else
    let (m, k) := second m
    (m, max n k)

end Merging

/-- Stretches shorter than this are not worth looking for. -/
def leastStretch : Nat := 7

mutual

/-- Takes elements one by one. A run that has won `patience` times in a row is taken in
stretches; `won` and `lost` count the last wins of the first and of the second run. -/
def mergeSingly {α : Type} (mode : Mode α) :
    Nat → (patience won lost : Nat) → Merging α → List α × Nat
  | 0, patience, _, _, m => (m.finish, patience)
  | fuel + 1, patience, won, lost, m =>
    match m.one, m.two with
    | x :: _, y :: _ =>
      if mode.wins x y then
        let m := m.takeOne 1
        if m.isDone then (m.finish, patience)
        else if patience ≤ won + 1 then mergeStretches mode fuel (patience + 1) m
        else mergeSingly mode fuel patience (won + 1) 0 m
      else
        let m := m.takeTwo 1
        if m.isDone then (m.finish, patience)
        else if patience ≤ lost + 1 then mergeStretches mode fuel (patience + 1) m
        else mergeSingly mode fuel patience 0 (lost + 1) m
    | _, _ => (m.finish, patience)

/-- Takes stretches. Every round makes the merge less patient, and leaving off more so. -/
def mergeStretches {α : Type} (mode : Mode α) :
    Nat → (patience : Nat) → Merging α → List α × Nat
  | 0, patience, m => (m.finish, patience)
  | fuel + 1, patience, m =>
    let patience := if 1 < patience then patience - 1 else patience
    let (m, longest) := m.stretchBoth mode
    if m.isDone then (m.finish, patience)
    else if leastStretch ≤ longest then mergeStretches mode fuel patience m
    else mergeSingly mode fuel (patience + 1) 0 0 m

end

/-- Merges what is left of two runs once the elements in place at both ends are set aside. The
first element taken is known. -/
def mergeFrom {α : Type} (mode : Mode α) (patience : Nat) (m : Merging α) : List α × Nat :=
  let m := m.takeOne 1
  if m.isDone then (m.finish, patience)
  else mergeSingly mode (2 * (m.one.length + m.two.length) + 2) patience 0 0 m

/-- Merges two neighbouring runs; the patience is handed on from merge to merge. -/
def mergeRuns {α : Type} (before : α → α → Bool) (patience : Nat) (a b : List α) :
    List α × Nat :=
  match b with
  | [] => (a, patience)
  | y :: _ =>
    let k := countFront (fun x ↦ !before y x) a
    let inPlace := a.take k
    let a := a.drop k
    match a.reverse with
    | [] => (inPlace ++ b, patience)
    | x :: _ =>
      let n := b.length - countBack (fun y ↦ before y x) b.reverse
      let rest := b.drop n
      let b := b.take n
      if n = 0 then (inPlace ++ a ++ rest, patience)
      else if a.length ≤ b.length then
        let (merged, patience) := mergeFrom (frontMode before) patience ⟨b, a, []⟩
        (inPlace ++ merged ++ rest, patience)
      else
        let (merged, patience) := mergeFrom (backMode before) patience ⟨a.reverse, b.reverse, []⟩
        (inPlace ++ merged.reverse ++ rest, patience)

end AbiTypings.Sorting
