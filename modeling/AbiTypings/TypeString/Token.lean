import AbiTypings.Text.Digit
import AbiTypings.Text.Letter

/-!
# Tokens of a type string

A type string is a name followed by brackets, such as `uint256[2][]`. Blanks between tokens are
skipped, and nothing else is.
-/

namespace AbiTypings.TypeString

open Text

inductive TokenKind where
  | name
  | number
  | leftBracket
  | rightBracket
  | endOfText
  deriving DecidableEq, Repr

def TokenKind.label : TokenKind → String
  | name => "IDENTIFIER"
  | number => "NUMBER"
  | leftBracket => "LBRACKET"
  | rightBracket => "RBRACKET"
  | endOfText => "EOF"

/-- A token with its text and the number of characters before it. -/
structure Token where
  kind : TokenKind
  text : List Char
  column : Nat
  deriving DecidableEq, Repr

def isTypeBlank (c : Char) : Bool := c == ' ' || c == '\t' || c == '\n' || c == '\r'

def isNameStart (c : Char) : Bool := isLetter c || c == '_'

def isNamePart (c : Char) : Bool := isLetterOrNumeral c || c == '_'

/-- A character that starts no token. -/
structure Unexpected where
  char : Char
  column : Nat
  deriving DecidableEq, Repr

/-- The tokens of `cs`, of which the first character has the given column. -/
def tokensFrom (column : Nat) (cs : List Char) : Except Unexpected (List Token) :=
  match cs with
  | [] => .ok [⟨.endOfText, [], column⟩]
  | c :: rest =>
    if isTypeBlank c then tokensFrom (column + 1) rest
    else if isAsciiDigit c then
      let word := c :: rest.takeWhile isAsciiDigit
      (⟨.number, word, column⟩ :: ·) <$>
        tokensFrom (column + word.length) (rest.dropWhile isAsciiDigit)
    else if isNameStart c then
      let word := c :: rest.takeWhile isNamePart
      (⟨.name, word, column⟩ :: ·) <$>
        tokensFrom (column + word.length) (rest.dropWhile isNamePart)
    else if c = '[' then (⟨.leftBracket, [c], column⟩ :: ·) <$> tokensFrom (column + 1) rest
    else if c = ']' then (⟨.rightBracket, [c], column⟩ :: ·) <$> tokensFrom (column + 1) rest
    else .error ⟨c, column⟩
termination_by cs.length
decreasing_by
  · simp
  · have := (List.dropWhile_sublist (l := rest) isAsciiDigit).length_le
    simp only [List.length_cons]
    omega
  · have := (List.dropWhile_sublist (l := rest) isNamePart).length_le
    simp only [List.length_cons]
    omega
  · simp
  · simp

theorem tokensFrom_nil (column : Nat) :
    tokensFrom column [] = .ok [⟨.endOfText, [], column⟩] := by
  rw [tokensFrom]

def tokens (s : String) : Except Unexpected (List Token) := tokensFrom 0 s.toList

end AbiTypings.TypeString
