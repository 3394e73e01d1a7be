import AbiTypings.Sorting.Merge

/-!
# Sorting by merging runs

A list is cut into runs that are in order already, short ones being filled up by insertion, and
the runs are merged. For a total order the answer is that of any stable sort. Where some elements
cannot be compared it depends on the pairs that are, and these are fixed here.
-/

namespace AbiTypings.Sorting

variable {α : Type}

/-! ## Runs -/

/-- Continues a run in front of `previous`'s successors while each step goes `down` as asked. The
run is collected last element first. -/
def runOnto (before : α → α → Bool) (down : Bool) (run : List α) (previous : α) :
    List α → List α × List α
  | [] => (run, [])
  | x :: rest =>
    if before x previous = down then runOnto before down (x :: run) x rest
    else (run, x :: rest)

/-- The run at the front of a list, turned round if it goes down, and what follows it. -/
def takeRun (before : α → α → Bool) : List α → List α × List α
  | x :: y :: rest =>
    let down := before y x
    let (run, rest) := runOnto before down [y, x] y rest
    (if down then run else run.reverse, rest)
  | short => (short, [])

def insertInRun (before : α → α → Bool) (run : List α) (x : α) : List α :=
  let n := run.length
  let k := halve (isLeftAt (fun y ↦ !before x y) run.toArray) (n + 1) 0 n
  run.take k ++ x :: run.drop k

/-- The least length of a run in a list of `n` elements: the leading bits of `n`, rounded up. -/
def leastRun (fuel n : Nat) (odd : Nat) : Nat :=
  match fuel with
  | 0 => n + odd
  | fuel + 1 => if n < 64 then n + odd else leastRun fuel (n / 2) (max odd (n % 2))

/-- Cuts a list into runs, all but the last of the least length or longer. -/
def cutRuns (before : α → α → Bool) (least : Nat) : Nat → List α → List (List α)
  | 0, _ => []
  | _, [] => []
  | fuel + 1, xs =>
    let (run, rest) := takeRun before xs
    let missing := least - run.length
    let run := (rest.take missing).foldl (insertInRun before) run
    run :: cutRuns before least fuel (rest.drop missing)

/-! ## The order of the merges -/

/-- The first binary digit in which the midpoints of two neighbouring runs differ, both taken as
fractions of the whole list; `a` and `b` are twice the midpoints. -/
def powerOf (n : Nat) : Nat → (a b power : Nat) → Nat
  | 0, _, _, power => power
  | fuel + 1, a, b, power =>
    if n ≤ a then powerOf n fuel (2 * (a - n)) (2 * (b - n)) (power + 1)
    else if n ≤ b then power + 1
    else powerOf n fuel (2 * a) (2 * b) (power + 1)

/-- A run waiting to be merged: where it starts, its elements, and the power between it and the
run behind it. -/
structure Waiting (α : Type) where
  start : Nat
  run : List α
  power : Nat

/-- Waiting runs, the last one first, and the patience of the next merge. -/
structure Stack (α : Type) where
  waiting : List (Waiting α)
  patience : Nat

def mergeTwo (before : α → α → Bool) (patience : Nat) (a b : Waiting α) : Waiting α × Nat :=
  let (run, patience) := mergeRuns before patience a.run b.run
  (⟨a.start, run, a.power⟩, patience)

namespace Stack

/-- Merges the last two runs as long as the power before them is greater. -/
def mergeAbove (before : α → α → Bool) (power : Nat) : Nat → Stack α → Stack α
  | 0, s => s
  | fuel + 1, s =>
    match s.waiting with
    | b :: a :: rest =>
      if power < a.power then
        let (merged, patience) := mergeTwo before s.patience a b
        mergeAbove before power fuel ⟨merged :: rest, patience⟩
      else s
    | _ => s

def push (before : α → α → Bool) (n : Nat) (s : Stack α) (run : List α) : Stack α :=
  match s.waiting with
  | [] => ⟨[⟨0, run, 0⟩], s.patience⟩
  | top :: _ =>
    let a := 2 * top.start + top.run.length
    let power := powerOf n (2 * n) a (a + top.run.length + run.length) 0
    let start := top.start + top.run.length
    let s := s.mergeAbove before power n
    match s.waiting with
    | [] => ⟨[⟨start, run, 0⟩], s.patience⟩
    | top :: rest => ⟨⟨start, run, 0⟩ :: ⟨top.start, top.run, power⟩ :: rest, s.patience⟩

/-- Merges all runs. The two before the last come first when that evens out the lengths. -/
def collapse (before : α → α → Bool) : Nat → Stack α → List α
  | 0, s => s.waiting.reverse.flatMap Waiting.run
  | fuel + 1, s =>
    match s.waiting with
    | [] => []
    | [w] => w.run
    | c :: b :: a :: rest =>
      if a.run.length < c.run.length then
        let (merged, patience) := mergeTwo before s.patience a b
        collapse before fuel ⟨c :: merged :: rest, patience⟩
      else
        let (merged, patience) := mergeTwo before s.patience b c
        collapse before fuel ⟨merged :: a :: rest, patience⟩
    | [b, a] =>
      let (merged, patience) := mergeTwo before s.patience a b
      collapse before fuel ⟨[merged], patience⟩

end Stack

def runSort (before : α → α → Bool) (xs : List α) : List α :=
  let n := xs.length
  let runs := cutRuns before (leastRun n n 0) n xs
  let stack := runs.foldl (Stack.push before n) ⟨[], leastStretch⟩
  stack.collapse before n

end AbiTypings.Sorting
