import AbiTypings.Decimal.Numeral
import AbiTypings.Json.Value

/-!
# Reading JSON text

The reader takes the grammar of JSON with three words more, `NaN`, `Infinity` and `-Infinity`,
and refuses numerals over the length limit. Every step takes characters off the front of the
text; a fault remembers how many were left, which gives its place.
-/

namespace AbiTypings.Json

open Decimal Text

inductive Cause where
  | byteOrderMark
  | expectedValue
  | expectedKey
  | expectedColon
  | expectedComma
  | extraData
  | unterminatedText
  | controlCharacter
  | badEscape
  | badUnicodeEscape
  deriving DecidableEq, Repr

def Cause.message : Cause → String
  | byteOrderMark => "Unexpected UTF-8 BOM (decode using utf-8-sig)"
  | expectedValue => "Expecting value"
  | expectedKey => "Expecting property name enclosed in double quotes"
  | expectedColon => "Expecting ':' delimiter"
  | expectedComma => "Expecting ',' delimiter"
  | extraData => "Extra data"
  | unterminatedText => "Unterminated string starting at"
  | controlCharacter => "Invalid control character at"
  | badEscape => "Invalid \\escape"
  | badUnicodeEscape => "Invalid \\uXXXX escape"

/-- A position in a text: characters before it, and its line and column counted from one. -/
structure Place where
  offset : Nat
  line : Nat
  column : Nat
  deriving DecidableEq, Repr

namespace Place

def start : Place := ⟨0, 1, 1⟩

def after (p : Place) (c : Char) : Place :=
  if c = '\n' then ⟨p.offset + 1, p.line + 1, 1⟩ else ⟨p.offset + 1, p.line, p.column + 1⟩

def ofOffset (text : List Char) (n : Nat) : Place := (text.take n).foldl after start

def text (p : Place) : String :=
  "line " ++ toString p.line ++ " column " ++ toString p.column ++
    " (char " ++ toString p.offset ++ ")"

end Place

inductive Fault where
  | misplaced (cause : Cause) (place : Place)
  | oversized (o : Oversized)
  deriving DecidableEq, Repr

def Fault.message : Fault → String
  | misplaced cause place => cause.message ++ ": " ++ place.text
  | oversized o => o.message

/-- A fault inside the text, with the number of characters left where it was found. -/
inductive Stop where
  | misplaced (cause : Cause) (left : Nat)
  | oversized (o : Oversized)
  deriving DecidableEq, Repr

def stopAt {α : Type} (cause : Cause) (cs : List Char) : Except Stop α :=
  .error (.misplaced cause cs.length)

/-! ## Blanks -/

def isJsonBlank (c : Char) : Bool := c == ' ' || c == '\t' || c == '\n' || c == '\r'

def skipBlanks (cs : List Char) : List Char := cs.dropWhile isJsonBlank

/-! ## Quoted text -/

/-- A piece of quoted text: a character, or a unit of UTF-16 given by its number. -/
inductive Piece where
  | char (c : Char)
  | unit (n : Nat)

def hexValue? (c : Char) : Option Nat :=
  if isAsciiDigit c then some (c.toNat - 48)
  else if 'a' ≤ c ∧ c ≤ 'f' then some (c.toNat - 87)
  else if 'A' ≤ c ∧ c ≤ 'F' then some (c.toNat - 55)
  else none

/-- The number in the four hexadecimal digits in front, if something follows them. -/
def fourHex? : List Char → Option Nat
  | a :: b :: c :: d :: _ :: _ => do
    let a ← hexValue? a
    let b ← hexValue? b
    let c ← hexValue? c
    let d ← hexValue? d
    some (((a * 16 + b) * 16 + c) * 16 + d)
  | _ => none

def shortEscape? : Char → Option Char
  | '\x22' => some '\x22'
  | '\\' => some '\\'
  | '/' => some '/'
  | 'b' => some '\x08'
  | 'f' => some '\x0c'
  | 'n' => some '\n'
  | 'r' => some '\r'
  | 't' => some '\t'
  | _ => none

/-- Reads up to the closing quote. `opening` is the text from the opening quote on, `done` the
pieces read so far, last one first. -/
def readPieces (opening : List Char) (done : List Piece) (cs : List Char) :
    Except Stop (List Piece × List Char) :=
  match cs with
  | [] => stopAt .unterminatedText opening
  | '\x22' :: rest => .ok (done.reverse, rest)
  | '\\' :: 'u' :: rest =>
    match fourHex? rest with
    | some n => readPieces opening (.unit n :: done) (rest.drop 4)
    | none => stopAt .badUnicodeEscape ('u' :: rest)
  | '\\' :: c :: rest =>
    match shortEscape? c with
    | some d => readPieces opening (.char d :: done) rest
    | none => stopAt .badEscape ('\\' :: c :: rest)
  | ['\\'] => stopAt .unterminatedText opening
  | c :: rest =>
    if c.toNat < 0x20 then stopAt .controlCharacter (c :: rest)
    else readPieces opening (.char c :: done) rest
termination_by cs.length
decreasing_by all_goals simp [List.length_drop] <;> omega

def isHighHalf (n : Nat) : Bool := decide (0xd800 ≤ n) && decide (n < 0xdc00)

def isLowHalf (n : Nat) : Bool := decide (0xdc00 ≤ n) && decide (n < 0xe000)

/-- No text holds a half without its partner: the replacement character stands for it. -/
def unitChar (n : Nat) : Char := if isHighHalf n || isLowHalf n then '\ufffd' else Char.ofNat n

/-- Joins each high half with the low half behind it. -/
def joinHalves : List Piece → List Char
  | [] => []
  | .unit a :: .unit b :: rest =>
    if isHighHalf a && isLowHalf b then
      Char.ofNat (0x10000 + (a - 0xd800) * 0x400 + (b - 0xdc00)) :: joinHalves rest
    else unitChar a :: joinHalves (.unit b :: rest)
  | .unit a :: rest => unitChar a :: joinHalves rest
  | .char c :: rest => c :: joinHalves rest

/-- `cs` is the text behind the opening quote. -/
def readText (cs : List Char) : Except Stop (String × List Char) := do
  let (pieces, rest) ← readPieces ('\x22' :: cs) [] cs
  return (String.ofList (joinHalves pieces), rest)

/-! ## Numbers and words -/

def takeDigits (cs : List Char) : List Char × List Char :=
  (cs.takeWhile isAsciiDigit, cs.dropWhile isAsciiDigit)

/-- The whole part of a number: a single zero, or digits that start with another one. -/
def takeWhole : List Char → Option (List Char × List Char)
  | '0' :: rest => some (['0'], rest)
  | c :: rest => if isAsciiDigit c then some (takeDigits (c :: rest)) else none
  | [] => none

def takeFraction : List Char → List Char × List Char
  | '.' :: c :: rest =>
    if isAsciiDigit c then takeDigits (c :: rest) else ([], '.' :: c :: rest)
  | cs => ([], cs)

def takeSign : List Char → Bool × List Char
  | '-' :: rest => (true, rest)
  | '+' :: rest => (false, rest)
  | cs => (false, cs)

/-- An exponent without digits is not taken. -/
def takeExponent (cs : List Char) : Option Int × List Char :=
  match cs with
  | c :: rest =>
    if c = 'e' ∨ c = 'E' then
      let (negative, rest) := takeSign rest
      let (digits, rest) := takeDigits rest
      if digits.isEmpty then (none, cs)
      else
        let n : Int := numeralValue digits
        (some (if negative then -n else n), rest)
    else (none, cs)
  | [] => (none, [])

def readNumber (cs : List Char) : Except Stop (Value × List Char) :=
  let negative := cs.head? == some '-'
  match takeWhole (if negative then cs.drop 1 else cs) with
  | none => stopAt .expectedValue cs
  | some (whole, rest) =>
    let (fraction, rest) := takeFraction rest
    let (exponent, rest) := takeExponent rest
    if fraction.isEmpty && exponent.isNone then
      match readNumeral whole with
      | .ok n => .ok (.int (if negative then -(n : Int) else n), rest)
      | .error o => .error (.oversized o)
    else
      let shift := exponent.getD 0 - fraction.length
      .ok (.float (.ofDecimal negative (whole ++ fraction) shift), rest)

def words : List (List Char × Value) :=
  [("null".toList, .null), ("true".toList, .bool true), ("false".toList, .bool false),
   ("NaN".toList, .float .nan), ("Infinity".toList, .float (.infinite false)),
   ("-Infinity".toList, .float (.infinite true))]

def takeWord (cs : List Char) : Option (Value × List Char) :=
  words.findSome? fun (word, v) ↦
    if word.isPrefixOf cs then some (v, cs.drop word.length) else none

/-! ## Values -/

mutual

/-- `fuel` bounds the calls that follow; each character of the text needs at most two. -/
def readValue (fuel : Nat) (cs : List Char) : Except Stop (Value × List Char) :=
  match fuel with
  | 0 => stopAt .expectedValue cs
  | fuel + 1 =>
    match cs with
    | '\x22' :: rest => do
      let (s, rest) ← readText rest
      return (.text s, rest)
    | '\x7b' :: rest =>
      match skipBlanks rest with
      | '\x7d' :: rest => .ok (.object [], rest)
      | rest => readMembers fuel [] rest
    | '[' :: rest =>
      match skipBlanks rest with
      | ']' :: rest => .ok (.list [], rest)
      | rest => readItems fuel [] rest
    | cs =>
      match takeWord cs with
      | some found => .ok found
      | none => readNumber cs

/-- Reads the items of a list from one of them on, up to the closing bracket. -/
def readItems (fuel : Nat) (done : List Value) (cs : List Char) : Except Stop (Value × List Char) :=
  match fuel with
  | 0 => stopAt .expectedValue cs
  | fuel + 1 => do
    let (v, rest) ← readValue fuel cs
    match skipBlanks rest with
    | ']' :: rest => .ok (.list (v :: done).reverse, rest)
    | ',' :: rest => readItems fuel (v :: done) (skipBlanks rest)
    | rest => stopAt .expectedComma rest

/-- Reads the members of an object from a key on, up to the closing brace. -/
def readMembers (fuel : Nat) (done : Fields) (cs : List Char) : Except Stop (Value × List Char) :=
  match fuel with
  | 0 => stopAt .expectedValue cs
  | fuel + 1 =>
    match cs with
    | '\x22' :: rest => do
      let (key, rest) ← readText rest
      match skipBlanks rest with
      | ':' :: rest =>
        let (v, rest) ← readValue fuel (skipBlanks rest)
        match skipBlanks rest with
        | '\x7d' :: rest => .ok (.object (done.put key v), rest)
        | ',' :: rest => readMembers fuel (done.put key v) (skipBlanks rest)
        | rest => stopAt .expectedComma rest
      | rest => stopAt .expectedColon rest
    | cs => stopAt .expectedKey cs

end

theorem readValue_zero (cs : List Char) : readValue 0 cs = stopAt .expectedValue cs := by
  rw [readValue]

theorem readItems_zero (done : List Value) (cs : List Char) :
    readItems 0 done cs = stopAt .expectedValue cs := by
  rw [readItems]

theorem readMembers_zero (done : Fields) (cs : List Char) :
    readMembers 0 done cs = stopAt .expectedValue cs := by
  rw [readMembers]

def readDocument (cs : List Char) : Except Stop Value :=
  if cs.head? = some '\ufeff' then stopAt .byteOrderMark cs
  else do
    let (v, rest) ← readValue (2 * cs.length + 2) (skipBlanks cs)
    match skipBlanks rest with
    | [] => .ok v
    | rest => stopAt .extraData rest

def Stop.located (text : List Char) : Stop → Fault
  | misplaced cause left => .misplaced cause (.ofOffset text (text.length - left))
  | oversized o => .oversized o

def Value.ofText (s : String) : Except Fault Value :=
  (readDocument s.toList).mapError (Stop.located s.toList)

end AbiTypings.Json
