import AbiTypings.Decimal.Numeral

/-!
# Binary floating-point numbers

The numbers of the 64-bit binary format, held exactly: a finite one is `± mantissa · 2 ^ exponent`
with at most 53 bits in the mantissa. `ofDecimal` rounds a decimal fraction to the nearest of
them, a tie going to the even mantissa.
-/

namespace AbiTypings.Decimal

inductive Binary64 where
  | finite (negative : Bool) (mantissa : Nat) (exponent : Int)
  | infinite (negative : Bool)
  | nan
  deriving DecidableEq, Repr, Inhabited

def twoTo (k : Nat) : Nat := Nat.pow 2 k

/-- A quotient rounded to the nearest whole number, a tie going to the even one. -/
def roundDiv (num den : Nat) : Nat :=
  let q := num / den
  let r := num % den
  if 2 * r < den then q
  else if den < 2 * r then q + 1
  else q + q % 2

/-- `num / den` divided by `2 ^ e`, as a numerator and a denominator. -/
def scaleDown (num den : Nat) (e : Int) : Nat × Nat :=
  if 0 ≤ e then (num, den * twoTo e.toNat) else (num * twoTo (-e).toNat, den)

namespace Binary64

def precision : Nat := 53

def minExponent : Int := -1074

/-- Above this exponent a mantissa of full length overflows. -/
def maxExponent : Int := 971

def zero (negative : Bool) : Binary64 := finite negative 0 minExponent

def ofRounded (negative : Bool) (m : Nat) (e : Int) : Binary64 :=
  let (m, e) := if m = twoTo precision then (twoTo (precision - 1), e + 1) else (m, e)
  if maxExponent < e then infinite negative else finite negative m e

/-- The nearest number to `± num / den`. The logarithms fix the exponent up to one; the smaller
choice is right when the quotient then has at most 53 bits. -/
def ofRatio (negative : Bool) (num den : Nat) : Binary64 :=
  if num = 0 then zero negative
  else
    let guess : Int := (num.log2 : Int) - den.log2 - precision
    let low := max minExponent guess
    let (n, d) := scaleDown num den low
    if n / d < twoTo precision then ofRounded negative (roundDiv n d) low
    else
      let (n, d) := scaleDown num den (low + 1)
      ofRounded negative (roundDiv n d) (low + 1)

/-- A first digit this many places from the point puts a number out of reach, either way. -/
def decimalReach : Int := 400

/-- The nearest number to `± digits · 10 ^ e`. Zeros in front of the digits do not count towards
their reach. -/
def ofDecimal (negative : Bool) (digits : List Char) (e : Int) : Binary64 :=
  let digits := digits.dropWhile (· == '0')
  let top := digits.length + e
  if digits.isEmpty then zero negative
  else if decimalReach < top then infinite negative
  else if top < -decimalReach then zero negative
  else if 0 ≤ e then ofRatio negative (numeralValue digits * tenTo e.toNat) 1
  else ofRatio negative (numeralValue digits) (tenTo (-e).toNat)

/-- The value of a finite number, as a numerator and a denominator. -/
def ratio? : Binary64 → Option (Int × Nat)
  | finite negative m e =>
    let (n, d) := scaleDown m 1 (-e)
    some (if negative then -(n : Int) else n, d)
  | _ => none

end Binary64

end AbiTypings.Decimal
