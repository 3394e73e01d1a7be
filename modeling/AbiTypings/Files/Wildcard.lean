/-!
# Wildcards

A wildcard matches the name of one file or directory. A star stands for any run of characters, a
question mark for any one character, and brackets for one character of a set, or of its
complement if the set starts with an exclamation mark. A bracket that is never closed stands for
itself.
-/

namespace AbiTypings

namespace Wildcard

/-- An item of a set: a character, or all those between two bounds. -/
inductive SetItem where
  | char (c : Char)
  | span (low high : Char)
  deriving DecidableEq, Repr

def SetItem.has (c : Char) : SetItem → Bool
  | char d => c == d
  | span low high => decide (low ≤ c) && decide (c ≤ high)

inductive Part where
  | char (c : Char)
  | any
  | run
  | oneOf (items : List SetItem)
  | noneOf (items : List SetItem)
  deriving DecidableEq, Repr

def isMagicChar (c : Char) : Bool := c == '*' || c == '?' || c == '['

/-- Whether the text has a character that may stand for others. -/
def isMagic (s : String) : Bool := s.toList.any isMagicChar

/-! ## Sets -/

/-- A span from a character to a smaller one is empty and is left out. -/
def itemsOf : List Char → List SetItem
  | a :: '-' :: b :: rest => if a ≤ b then .span a b :: itemsOf rest else itemsOf rest
  | a :: rest => .char a :: itemsOf rest
  | [] => []

/-- An exclamation mark in front makes a complement, also when only empty spans stood before it.
If it was the bound of a span, the hyphen and the other bound become items. -/
def setOf (text : List Char) : Part :=
  match text with
  | '!' :: rest => .noneOf (itemsOf rest)
  | text =>
    match itemsOf text with
    | .char '!' :: rest => .noneOf rest
    | .span '!' high :: rest => .noneOf (.char '-' :: .char high :: rest)
    | items => .oneOf items

/-- The text of a set, given what stands behind its opening bracket, and what follows its closing
one. The first character of a set, after the mark of a complement, does not close it. -/
def takeSet? (cs : List Char) : Option (List Char × List Char) :=
  let (mark, body) := if cs.head? = some '!' then (['!'], cs.drop 1) else ([], cs)
  match body with
  | [] => none
  | first :: rest =>
    match rest.dropWhile (· != ']') with
    | [] => none
    | _ :: after => some (mark ++ first :: rest.takeWhile (· != ']'), after)

theorem length_lt_of_takeSet? {cs text after : List Char}
    (h : takeSet? cs = some (text, after)) : after.length < cs.length := by
  have drop_le : (if cs.head? = some '!' then (['!'], cs.drop 1) else ([], cs)).2.length
      ≤ cs.length := by
    split <;> simp
  revert drop_le
  simp only [takeSet?] at h
  generalize (if cs.head? = some '!' then (['!'], cs.drop 1) else ([], cs)) = pair at h
  obtain ⟨mark, body⟩ := pair
  intro drop_le
  cases body with
  | nil => simp at h
  | cons first rest =>
    have tail_le := (List.dropWhile_sublist (l := rest) (· != ']')).length_le
    simp only at h drop_le
    split at h
    · simp at h
    · rename_i heq
      rw [heq] at tail_le
      simp only [Option.some.injEq, Prod.mk.injEq] at h
      obtain ⟨_, rfl⟩ := h
      simp only [List.length_cons] at tail_le drop_le
      omega

def partsOf (cs : List Char) : List Part :=
  match cs with
  | [] => []
  | '*' :: rest => .run :: partsOf rest
  | '?' :: rest => .any :: partsOf rest
  | '[' :: rest =>
    match _taken : takeSet? rest with
    | some (text, after) => setOf text :: partsOf after
    | none => .char '[' :: partsOf rest
  | c :: rest => .char c :: partsOf rest
termination_by cs.length
decreasing_by
  · simp
  · simp
  · have := length_lt_of_takeSet? _taken
    simp only [List.length_cons]
    omega
  · simp
  · simp

/-! ## Matching -/

def Part.has (c : Char) : Part → Bool
  | .char d => c == d
  | .any => true
  | .run => true
  | .oneOf items => items.any (·.has c)
  | .noneOf items => !items.any (·.has c)

/-! A row says for every end of a name, from the whole name to the empty one, whether some parts
match it. Rows are built from the last part to the first. -/

def rowOfNone (cs : List Char) : List Bool := cs.map (fun _ ↦ false) ++ [true]

def rowOfRun : List Bool → List Bool
  | [] => []
  | b :: row =>
    let later := rowOfRun row
    (b || later.headD false) :: later

def rowOfPart (part : Part) : List Char → List Bool → List Bool
  | c :: cs, _ :: row => (part.has c && row.headD false) :: rowOfPart part cs row
  | _, _ => [false]

def row (cs : List Char) : List Part → List Bool
  | [] => rowOfNone cs
  | .run :: parts => rowOfRun (row cs parts)
  | part :: parts => rowOfPart part cs (row cs parts)

@[simp] theorem length_rowOfRun (r : List Bool) : (rowOfRun r).length = r.length := by
  induction r with
  | nil => rfl
  | cons b r ih => simp [rowOfRun, ih]

theorem length_rowOfPart (part : Part) {cs : List Char} {r : List Bool}
    (h : r.length = cs.length + 1) : (rowOfPart part cs r).length = cs.length + 1 := by
  induction cs generalizing r with
  | nil => cases r <;> simp [rowOfPart]
  | cons c cs ih =>
    cases r with
    | nil => simp at h
    | cons b r => simpa [rowOfPart] using ih (by simpa using h)

@[simp] theorem length_row (cs : List Char) (parts : List Part) :
    (row cs parts).length = cs.length + 1 := by
  induction parts with
  | nil => simp [row, rowOfNone]
  | cons part parts ih =>
    cases part <;> simp [row, ih, length_rowOfPart]

/-- Whether the parts take up the whole name. -/
def matchParts (parts : List Part) (cs : List Char) : Bool := (row cs parts).headD false

end Wildcard

def wildcardMatches (pattern name : String) : Bool :=
  Wildcard.matchParts (Wildcard.partsOf pattern.toList) name.toList

end AbiTypings
