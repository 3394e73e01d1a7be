/-!
# Finding a place in a run

A run is searched for the place where elements stop being on the left of something. The search
leaps away from a hint by 1, 3, 7, … and then halves what is between the last two leaps. Which
elements it asks about matters when the elements are not in order.
-/

namespace AbiTypings.Sorting

/-- Leaps until `stop` holds or `limit` is reached: the last offset before, and the one after. -/
def leap (stop : Nat → Bool) (limit : Nat) : Nat → Nat → Nat → Nat × Nat
  | 0, before, offset => (before, min offset limit)
  | fuel + 1, before, offset =>
    if offset < limit then
      if stop offset then (before, offset) else leap stop limit fuel offset (2 * offset + 1)
    else (before, limit)

/-- Halves the places from `low` to `high`. -/
def halve (left : Nat → Bool) : Nat → Nat → Nat → Nat
  | 0, _, high => high
  | fuel + 1, low, high =>
    if low < high then
      let middle := low + (high - low) / 2
      if left middle then halve left fuel (middle + 1) high else halve left fuel low middle
    else high

/-- The number of elements on the left, in a run of `n` of which one at `hint` is asked first. -/
def placeFrom (left : Nat → Bool) (n hint : Nat) : Nat :=
  if left hint then
    let (before, offset) := leap (fun k ↦ !left (hint + k)) (n - hint) n 0 1
    halve left n (hint + before + 1) (hint + offset)
  else
    let (before, offset) := leap (fun k ↦ left (hint - k)) (hint + 1) n 0 1
    halve left n (hint + 1 - offset) (hint - before)

/-- Whether an element of a run is on the left; places outside the run never are. -/
def isLeftAt {α : Type} (left : α → Bool) (run : Array α) (k : Nat) : Bool :=
  match run[k]? with
  | some x => left x
  | none => false

/-- How many elements at the front of the run are on the left. -/
def countFront {α : Type} (left : α → Bool) (run : List α) : Nat :=
  placeFrom (isLeftAt left run.toArray) run.length 0

/-- How many elements at the back of the run are not on the left. The run is given backwards. -/
def countBack {α : Type} (left : α → Bool) (backwards : List α) : Nat :=
  let run := backwards.reverse
  run.length - placeFrom (isLeftAt left run.toArray) run.length (run.length - 1)

end AbiTypings.Sorting
