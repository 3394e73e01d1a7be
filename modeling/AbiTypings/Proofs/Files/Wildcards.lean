import AbiTypings.Files.Wildcard
import Mathlib.Data.List.Infix
import Mathlib.Tactic.SplitIfs

/-!
# What wildcards match

A row of a name ends with the row of the name without its first character, so that matching goes
from the front of a name to its end. A star and some characters behind it match the names that
end in these characters.
-/

namespace AbiTypings.Wildcard

theorem row_char (cs : List Char) (d : Char) (parts : List Part) :
    row cs (.char d :: parts) = rowOfPart (.char d) cs (row cs parts) := rfl

theorem row_run (cs : List Char) (parts : List Part) :
    row cs (.run :: parts) = rowOfRun (row cs parts) := rfl

theorem row_ne_nil (cs : List Char) (parts : List Part) : row cs parts ≠ [] := by
  intro h
  have hlength := length_row cs parts
  rw [h] at hlength
  cases hlength

theorem tail_row (c : Char) (cs : List Char) (parts : List Part) :
    (row (c :: cs) parts).tail = row cs parts := by
  induction parts with
  | nil => rfl
  | cons part parts ih =>
      obtain ⟨b, r, hrow⟩ := List.exists_cons_of_ne_nil (row_ne_nil (c :: cs) parts)
      rw [hrow, List.tail_cons] at ih
      cases part <;> simp only [row, hrow, ← ih] <;> rfl

/-! ## Matching from the front -/

theorem matchParts_run_cons (parts : List Part) (c : Char) (cs : List Char) :
    matchParts (.run :: parts) (c :: cs) =
      (matchParts parts (c :: cs) || matchParts (.run :: parts) cs) := by
  obtain ⟨b, r, hrow⟩ := List.exists_cons_of_ne_nil (row_ne_nil (c :: cs) parts)
  have htail := tail_row c cs parts
  rw [hrow, List.tail_cons] at htail
  rw [matchParts, matchParts, matchParts, row_run, row_run, hrow, ← htail]
  rfl

theorem matchParts_run_nil (parts : List Part) :
    matchParts (.run :: parts) [] = matchParts parts [] := by
  have hlength := length_row [] parts
  obtain ⟨b, r, hrow⟩ := List.exists_cons_of_ne_nil (row_ne_nil [] parts)
  obtain rfl : r = [] := by
    rw [hrow] at hlength
    simpa using hlength
  rw [matchParts, matchParts, row_run, hrow]
  simp [rowOfRun]

theorem matchParts_char_cons (d : Char) (parts : List Part) (c : Char) (cs : List Char) :
    matchParts (.char d :: parts) (c :: cs) = (c == d && matchParts parts cs) := by
  obtain ⟨b, r, hrow⟩ := List.exists_cons_of_ne_nil (row_ne_nil (c :: cs) parts)
  have htail := tail_row c cs parts
  rw [hrow, List.tail_cons] at htail
  rw [matchParts, matchParts, row_char, hrow, ← htail]
  rfl

theorem matchParts_char_nil (d : Char) (parts : List Part) :
    matchParts (.char d :: parts) [] = false := rfl

theorem matchParts_nil (cs : List Char) : matchParts [] cs = cs.isEmpty := by
  cases cs <;> rfl

theorem matchParts_chars_iff {word cs : List Char} :
    matchParts (word.map .char) cs = true ↔ cs = word := by
  induction word generalizing cs with
  | nil => rw [List.map_nil, matchParts_nil, List.isEmpty_iff]
  | cons d word ih =>
      cases cs with
      | nil => simp [matchParts_char_nil]
      | cons c cs => simp [matchParts_char_cons, ih]

/-- A star stands for what a name has in front of its ending. -/
theorem matchParts_ending_iff {word cs : List Char} :
    matchParts (.run :: word.map .char) cs = true ↔ word <:+ cs := by
  induction cs with
  | nil => rw [matchParts_run_nil, matchParts_chars_iff, List.suffix_nil, eq_comm]
  | cons c cs ih =>
      rw [matchParts_run_cons, Bool.or_eq_true, matchParts_chars_iff, ih, List.suffix_cons_iff,
        eq_comm]

end AbiTypings.Wildcard
