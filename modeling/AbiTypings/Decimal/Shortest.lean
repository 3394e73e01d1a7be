import AbiTypings.Decimal.Binary64

/-!
# Shortest decimal text

A number is written with the fewest digits that read back as the same number, and of those with
the nearest. For each count of digits only the two neighbours of the value on that decimal grid
need to be tried.
-/

namespace AbiTypings.Decimal

/-- The reals that round to `mantissa · 2 ^ exponent`, as bounds over a common denominator. The
bounds themselves belong to it iff the mantissa is even. Below a power of two the spacing halves,
except at the least exponent. -/
structure Rounding where
  low : Nat
  value : Nat
  high : Nat
  den : Nat
  closed : Bool

def Rounding.ofBinary (m : Nat) (e : Int) : Rounding :=
  let narrow := m = twoTo (Binary64.precision - 1) ∧ Binary64.minExponent < e
  let (n, d) := scaleDown m 1 (-e)
  let unit := n / m
  ⟨4 * n - (if narrow then unit else 2 * unit), 4 * n, 4 * n + 2 * unit, 4 * d, m % 2 = 0⟩

/-- Whether `d · 10 ^ p` rounds to the value. -/
def Rounding.has (r : Rounding) (d : Nat) (p : Int) : Bool :=
  let (n, den) := if 0 ≤ p then (d * tenTo p.toNat, 1) else (d, tenTo (-p).toNat)
  let x := n * r.den
  if r.closed then decide (r.low * den ≤ x) && decide (x ≤ r.high * den)
  else decide (r.low * den < x) && decide (x < r.high * den)

def digitCount (n : Nat) : Nat := (Nat.toDigits 10 n).length

/-- The greatest `k` with `10 ^ k ≤ num / den`. -/
def floorLog10 (num den : Nat) : Int :=
  let k : Int := (digitCount num : Int) - digitCount den
  let reached :=
    if 0 ≤ k then decide (den * tenTo k.toNat ≤ num) else decide (den ≤ num * tenTo (-k).toNat)
  if reached then k else k - 1

/-- The neighbour of the value on the grid of the multiples of `10 ^ p` that rounds to the value
and lies nearest to it; of two at the same distance, the even one. -/
def Rounding.onGrid? (r : Rounding) (p : Int) : Option Nat :=
  let (num, den) :=
    if 0 ≤ p then (r.value, r.den * tenTo p.toNat) else (r.value * tenTo (-p).toNat, r.den)
  let below := num / den
  let rest := num % den
  match r.has below p, r.has (below + 1) p with
  | true, true =>
    if 2 * rest < den then some below
    else if den < 2 * rest then some (below + 1)
    else some (below + below % 2)
  | true, false => some below
  | false, true => some (below + 1)
  | false, false => none

/-- Tries `count`, `count + 1`, … digits. The answer is `d · 10 ^ p`. -/
def Rounding.search (r : Rounding) (top : Int) : Nat → Nat → Nat × Int
  | 0, count => (r.value / r.den, top - count)
  | fuel + 1, count =>
    let p := top + 1 - count
    match r.onGrid? p with
    | some d => (d, p)
    | none => r.search top fuel (count + 1)

/-- Seventeen digits always suffice. -/
def maxDigits : Nat := 17

def shortest (m : Nat) (e : Int) : Nat × Int :=
  let r := Rounding.ofBinary m e
  r.search (floorLog10 r.value r.den) maxDigits 1

/-- Digits with no zero at their end, and the power of ten of the first of them. -/
def scientific (d : Nat) (p : Int) : List Char × Int :=
  let digits := Nat.toDigits 10 d
  let kept := (digits.reverse.dropWhile (· == '0')).reverse
  (if kept.isEmpty then ['0'] else kept, p + digits.length - 1)

/-- Powers of ten below this one and above `leastPositional` are written without an exponent. -/
def positionalLimit : Int := 16

def leastPositional : Int := -4

/-- Exponents have a sign and at least two digits. -/
def exponentText (e : Int) : List Char :=
  let digits := Nat.toDigits 10 e.natAbs
  let padded := if digits.length < 2 then '0' :: digits else digits
  'e' :: (if e < 0 then '-' else '+') :: padded

def pointed (digits : List Char) (e : Int) : List Char :=
  if leastPositional ≤ e ∧ e < positionalLimit then
    if e < 0 then '0' :: '.' :: List.replicate (-e - 1).toNat '0' ++ digits
    else
      let whole := e.toNat + 1
      let padded := digits ++ List.replicate (whole - digits.length) '0'
      let tail := padded.drop whole
      padded.take whole ++ '.' :: (if tail.isEmpty then ['0'] else tail)
  else
    let tail := digits.drop 1
    digits.take 1 ++ (if tail.isEmpty then [] else '.' :: tail) ++ exponentText e

def Binary64.text : Binary64 → String
  | .nan => "nan"
  | .infinite negative => if negative then "-inf" else "inf"
  | .finite negative m e =>
    let body :=
      if m = 0 then ['0', '.', '0']
      else
        let (d, p) := shortest m e
        let (digits, power) := scientific d p
        pointed digits power
    String.ofList (if negative then '-' :: body else body)

end AbiTypings.Decimal
