import AbiTypings.Decimal.Shortest
import AbiTypings.Json.Value
import AbiTypings.Text.Quoted

/-!
# Showing JSON values in messages

A value is shown as `None`, `True` or `False`, as a number, as quoted text, or between brackets.
A text that is the whole value is shown as it is, without quotes.
-/

namespace AbiTypings.Json

open Text

namespace Value

def boolText (b : Bool) : String := if b then "True" else "False"

mutual

def literal : Value → String
  | null => "None"
  | bool b => boolText b
  | int n => toString n
  | float x => x.text
  | text s => quoted s
  | list items => "[" ++ ", ".intercalate (literals items) ++ "]"
  | object fields => "\x7b" ++ ", ".intercalate (fieldLiterals fields) ++ "\x7d"
termination_by structural v => v

def literals : List Value → List String
  | [] => []
  | v :: rest => v.literal :: literals rest
termination_by structural vs => vs

def fieldLiterals : List (String × Value) → List String
  | [] => []
  | (key, v) :: rest => (quoted key ++ ": " ++ v.literal) :: fieldLiterals rest
termination_by structural fields => fields

end

mutual

/-- How many lists and objects, one within the other, the literal of a value passes through. An
empty one is not passed through. -/
def levels : Value → Nat
  | list items => itemLevels items
  | object fields => fieldLevels fields
  | _ => 0
termination_by structural v => v

def itemLevels : List Value → Nat
  | [] => 0
  | v :: rest => max (v.levels + 1) (itemLevels rest)
termination_by structural vs => vs

def fieldLevels : List (String × Value) → Nat
  | [] => 0
  | (_, v) :: rest => max (v.levels + 1) (fieldLevels rest)
termination_by structural fields => fields

end

def display : Value → String
  | text s => s
  | v => v.literal

@[simp] theorem display_text (s : String) : (text s).display = s := rfl

end Value

end AbiTypings.Json
