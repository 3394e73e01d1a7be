import AbiTypings.Text.Digit

/-!
# Numerals

A numeral is a run of ASCII digits. It is read as a whole number unless it is longer than the
limit set on numerals; zeros in front count towards its length.
-/

namespace AbiTypings.Decimal

def maxNumeralLength : Nat := 4300

def tenTo (k : Nat) : Nat := Nat.pow 10 k

def digitValue (c : Char) : Nat := c.toNat - 48

/-- The number that the digits write, in base ten. -/
def numeralValue (digits : List Char) : Nat :=
  digits.foldl (fun n c ↦ n * 10 + digitValue c) 0

@[simp] theorem numeralValue_nil : numeralValue [] = 0 := rfl

theorem numeralValue_append (a b : List Char) :
    numeralValue (a ++ b) = b.foldl (fun n c ↦ n * 10 + digitValue c) (numeralValue a) := by
  simp [numeralValue, List.foldl_append]

/-- A numeral with more digits than the limit allows; `digits` is their number. -/
structure Oversized where
  digits : Nat
  deriving DecidableEq, Repr

def Oversized.message (o : Oversized) : String :=
  "Exceeds the limit (" ++ toString maxNumeralLength ++
    " digits) for integer string conversion: value has " ++ toString o.digits ++
    " digits; use sys.set_int_max_str_digits() to increase the limit"

def readNumeral (digits : List Char) : Except Oversized Nat :=
  if maxNumeralLength < digits.length then .error ⟨digits.length⟩ else .ok (numeralValue digits)

theorem readNumeral_of_length_le {digits : List Char} (h : digits.length ≤ maxNumeralLength) :
    readNumeral digits = .ok (numeralValue digits) := by
  simp [readNumeral, Nat.not_lt.mpr h]

end AbiTypings.Decimal
