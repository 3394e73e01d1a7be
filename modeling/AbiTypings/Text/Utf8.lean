import AbiTypings.Text.Quoted

/-!
# Reading UTF-8

Bytes are read one at a time. The first byte of a character says how many bytes follow and
where the second may lie; every later one lies between `0x80` and `0xbf`. A fault names the
bytes that were accepted as the start of a character, or the one byte that can start none.
-/

namespace AbiTypings.Text.Utf8

inductive Fault where
  | invalidStart (byte : UInt8) (position : Nat)
  | invalidContinuation (first : UInt8) (position length : Nat)
  | unexpectedEnd (first : UInt8) (position length : Nat)
  deriving DecidableEq, Repr

namespace Fault

/-- The first byte, its position and the number of bytes that the fault covers. -/
def extent : Fault → UInt8 × Nat × Nat
  | invalidStart b position => (b, position, 1)
  | invalidContinuation b position length => (b, position, length)
  | unexpectedEnd b position length => (b, position, length)

def reason : Fault → String
  | invalidStart .. => "invalid start byte"
  | invalidContinuation .. => "invalid continuation byte"
  | unexpectedEnd .. => "unexpected end of data"

def message (f : Fault) : String :=
  let (first, position, length) := f.extent
  let place :=
    if length = 1 then
      "byte 0x" ++ String.ofList (hexDigits 2 first.toNat) ++ " in position " ++ toString position
    else
      "bytes in position " ++ toString position ++ "-" ++ toString (position + length - 1)
  "'utf-8' codec can't decode " ++ place ++ ": " ++ f.reason

end Fault

/-- A character of which `accepted` bytes, from `position` on, have been read and `owed` are to
come; the next must lie between `low` and `high`. -/
structure Pending where
  first : UInt8
  position : Nat
  accepted : Nat
  owed : Nat
  low : Nat
  high : Nat
  value : Nat

def startOf (position : Nat) (b : UInt8) : Option Pending :=
  let n := b.toNat
  if 0xc2 ≤ n ∧ n ≤ 0xdf then some ⟨b, position, 1, 1, 0x80, 0xbf, n - 0xc0⟩
  else if n = 0xe0 then some ⟨b, position, 1, 2, 0xa0, 0xbf, 0⟩
  else if n = 0xed then some ⟨b, position, 1, 2, 0x80, 0x9f, 0xd⟩
  else if 0xe1 ≤ n ∧ n ≤ 0xef then some ⟨b, position, 1, 2, 0x80, 0xbf, n - 0xe0⟩
  else if n = 0xf0 then some ⟨b, position, 1, 3, 0x90, 0xbf, 0⟩
  else if n = 0xf4 then some ⟨b, position, 1, 3, 0x80, 0x8f, 4⟩
  else if 0xf1 ≤ n ∧ n ≤ 0xf3 then some ⟨b, position, 1, 3, 0x80, 0xbf, n - 0xf0⟩
  else none

/-- `done` holds the characters read so far, last one first. -/
def decodeOnto (done : List Char) (position : Nat) :
    Option Pending → List UInt8 → Except Fault (List Char)
  | none, [] => .ok done.reverse
  | some p, [] => .error (.unexpectedEnd p.first p.position p.accepted)
  | none, b :: bs =>
    if b.toNat < 0x80 then decodeOnto (Char.ofNat b.toNat :: done) (position + 1) none bs
    else match startOf position b with
      | some p => decodeOnto done (position + 1) (some p) bs
      | none => .error (.invalidStart b position)
  | some p, b :: bs =>
    if p.low ≤ b.toNat ∧ b.toNat ≤ p.high then
      let value := p.value * 64 + (b.toNat - 0x80)
      if p.owed = 1 then decodeOnto (Char.ofNat value :: done) (position + 1) none bs
      else decodeOnto done (position + 1)
        (some ⟨p.first, p.position, p.accepted + 1, p.owed - 1, 0x80, 0xbf, value⟩) bs
    else .error (.invalidContinuation p.first p.position p.accepted)

def decode (bytes : List UInt8) : Except Fault (List Char) := decodeOnto [] 0 none bytes

end AbiTypings.Text.Utf8
