import AbiTypings.Decimal.Binary64

/-!
# JSON values

Whole numbers are kept apart from those written with a fraction or an exponent. An object keeps
its fields in the order in which their keys first appeared, each key once.
-/

namespace AbiTypings.Json

open Decimal

inductive Value where
  | null
  | bool (b : Bool)
  | int (n : Int)
  | float (x : Binary64)
  | text (s : String)
  | list (items : List Value)
  | object (fields : List (String × Value))
  deriving Inhabited

namespace Value

/-- Whether the value stands for nothing given: null, false, zero, or empty. -/
def isVacant : Value → Bool
  | null => true
  | bool b => !b
  | int n => n == 0
  | float (.finite _ m _) => m == 0
  | float _ => false
  | text s => s.isEmpty
  | list items => items.isEmpty
  | object fields => fields.isEmpty

def isObject : Value → Bool
  | object _ => true
  | _ => false

/-- The value, or `other` in its place when it is vacant. -/
def orElse (v other : Value) : Value := if v.isVacant then other else v

@[simp] theorem orElse_of_isVacant {v : Value} (h : v.isVacant = true) (other : Value) :
    v.orElse other = other := by
  simp [orElse, h]

@[simp] theorem orElse_of_not_isVacant {v : Value} (h : v.isVacant = false) (other : Value) :
    v.orElse other = v := by
  simp [orElse, h]

end Value

/-- The fields of an object, in order. -/
abbrev Fields := List (String × Value)

namespace Fields

def get? (key : String) : Fields → Option Value
  | [] => none
  | (k, v) :: rest => if k = key then some v else get? key rest

@[simp] theorem get?_nil (key : String) : get? key [] = none := rfl

@[simp] theorem get?_cons (key k : String) (v : Value) (rest : Fields) :
    get? key ((k, v) :: rest) = if k = key then some v else get? key rest := rfl

/-- A key that is already there keeps its place and takes the new value. -/
def put (key : String) (v : Value) : Fields → Fields
  | [] => [(key, v)]
  | (k, w) :: rest => if k = key then (k, v) :: rest else (k, w) :: put key v rest

theorem get?_put_self (key : String) (v : Value) (fields : Fields) :
    get? key (put key v fields) = some v := by
  induction fields with
  | nil => simp [put]
  | cons f rest ih =>
    obtain ⟨k, w⟩ := f
    by_cases h : k = key <;> simp [put, h, ih]

theorem get?_put_ne {key other : String} (h : other ≠ key) (v : Value) (fields : Fields) :
    get? other (put key v fields) = get? other fields := by
  induction fields with
  | nil => simp [put, Ne.symm h]
  | cons f rest ih =>
    obtain ⟨k, w⟩ := f
    by_cases hk : k = key
    · subst hk
      simp [put, Ne.symm h]
    · by_cases ho : k = other
      · subst ho
        simp [put, hk]
      · simp [put, hk, ho, ih]

end Fields

end AbiTypings.Json
