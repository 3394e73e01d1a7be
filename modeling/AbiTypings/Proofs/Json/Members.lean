import AbiTypings.Proofs.Json.Tails

/-!
# Objects put together from members

A member is a key and a value, each with a text of its own. Written one behind the other, between
braces and with commas in between, members are read as an object with their values, where of two
members with one key the later one counts.
-/

namespace AbiTypings.Json

open Outcome

variable {cs rest tail : List Char} {v : Value} {fuel : Nat} {done : Fields}

/-! ## Where texts come from -/

theorem readMembers_ne_text (h : readMembers fuel done cs = .ok (v, rest)) (s : String) :
    v ≠ .text s := by
  induction fuel generalizing done cs with
  | zero => cases h
  | succ fuel ih =>
      obtain ⟨_, _, _, _, _, _, _, _, _, _, hnext⟩ := readMembers_eq_ok_iff.mp h
      rcases hnext with ⟨_, rfl⟩ | ⟨_, _, hrest⟩
      · exact Value.noConfusion
      · exact ih hrest

theorem readItems_ne_text {items : List Value} (h : readItems fuel items cs = .ok (v, rest))
    (s : String) : v ≠ .text s := by
  induction fuel generalizing items cs with
  | zero => cases h
  | succ fuel ih =>
      obtain ⟨_, _, _, hnext⟩ := readItems_eq_ok_iff.mp h
      rcases hnext with ⟨_, rfl⟩ | ⟨_, _, hrest⟩
      · exact Value.noConfusion
      · exact ih hrest

theorem takeWord_ne_text (h : takeWord cs = some (v, rest)) (s : String) : v ≠ .text s := by
  obtain ⟨word, hmem, _⟩ := takeWord_eq_some_iff.mp h
  simp only [words, List.mem_cons, Prod.mk.injEq, List.not_mem_nil, or_false] at hmem
  rcases hmem with ⟨_, rfl⟩ | ⟨_, rfl⟩ | ⟨_, rfl⟩ | ⟨_, rfl⟩ | ⟨_, rfl⟩ | ⟨_, rfl⟩ <;>
    exact Value.noConfusion

theorem readNumber_ne_text (h : readNumber cs = .ok (v, rest)) (s : String) : v ≠ .text s := by
  obtain ⟨_, _, _, _, _, _, _, _, hvalue⟩ := readNumber_eq_ok_iff.mp h
  unfold numberValue at hvalue
  split at hvalue
  · split at hvalue
    · obtain rfl := Except.ok.inj hvalue
      exact Value.noConfusion
    · cases hvalue
  · obtain rfl := Except.ok.inj hvalue
    exact Value.noConfusion

/-- Only a quoted text is read as a text. -/
theorem readValue_eq_text {s : String} (h : readValue fuel cs = .ok (.text s, rest)) :
    ∃ quoted, cs = '\x22' :: quoted ∧ readText quoted = .ok (s, rest) := by
  cases fuel with
  | zero => cases h
  | succ fuel =>
      cases takesValue_of_readValue h with
      | text htext => exact ⟨_, rfl, htext⟩
      | object _ hmembers => exact absurd rfl (readMembers_ne_text hmembers s)
      | list _ hitems => exact absurd rfl (readItems_ne_text hitems s)
      | word _ hword => exact absurd rfl (takeWord_ne_text hword s)
      | number _ _ hnumber => exact absurd rfl (readNumber_ne_text hnumber s)

/-! ## Members -/

/-- A key and a value, each with a text that is read as it by itself. -/
structure Member where
  keyText : String
  key : String
  valueText : String
  value : Value
  ofText_keyText : Value.ofText keyText = .ok (.text key)
  ofText_valueText : Value.ofText valueText = .ok value

namespace Member

def text (m : Member) : List Char := m.keyText.toList ++ ':' :: m.valueText.toList

/-- The fields with that of the member, which takes the place of one with the same key. -/
def onto (fields : Fields) (m : Member) : Fields := fields.put m.key m.value

theorem readDocument_keyText (m : Member) :
    readDocument m.keyText.toList = .ok (.text m.key) := mapError_eq_ok_iff.mp m.ofText_keyText

theorem readDocument_valueText (m : Member) : readDocument m.valueText.toList = .ok m.value :=
  mapError_eq_ok_iff.mp m.ofText_valueText

theorem length_text (m : Member) :
    m.text.length = m.keyText.toList.length + m.valueText.toList.length + 1 := by
  rw [text, List.length_append, List.length_cons]
  omega

end Member

/-- Members with commas in between. -/
def membersText (members : List Member) : List Char := [','].intercalate (members.map Member.text)

def fieldsOfMembers (members : List Member) : Fields := members.foldl Member.onto []

theorem membersText_singleton (m : Member) : membersText [m] = m.text := by
  simp [membersText, List.intercalate]

theorem membersText_cons_cons (m m' : Member) (members : List Member) :
    membersText (m :: m' :: members) = m.text ++ ',' :: membersText (m' :: members) := by
  simp [membersText, List.intercalate]

/-- The key of a member is behind blanks, and its colon is behind blanks again. -/
theorem exists_keyText_of_member (m : Member) (tail : List Char) :
    ∃ quoted colon, skipBlanks (m.text ++ tail) = '\x22' :: quoted ∧
      readText quoted = .ok (m.key, colon) ∧
        skipBlanks colon = ':' :: (m.valueText.toList ++ tail) := by
  obtain ⟨colon, hkey, hcolon⟩ := readValue_of_readDocument m.readDocument_keyText
    (by decide : isNumberPart ':' = false) (by decide) le_rfl (m.valueText.toList ++ tail)
  obtain ⟨quoted, hquote, hread⟩ := readValue_eq_text hkey
  refine ⟨quoted, colon, ?_, hread, hcolon⟩
  rw [← hquote, Member.text, List.append_assoc, List.cons_append]

theorem exists_value_of_member (m : Member) {c : Char} (hc : isNumberPart c = false)
    (hblank : isJsonBlank c = false) (hfuel : 2 * m.text.length ≤ fuel) (tail : List Char) :
    ∃ behind, readValue fuel (skipBlanks (m.valueText.toList ++ c :: tail)) =
      .ok (m.value, behind) ∧ skipBlanks behind = c :: tail := by
  refine readValue_of_readDocument m.readDocument_valueText hc hblank ?_ tail
  rw [Member.length_text] at hfuel
  omega

theorem readMembers_last (m : Member) (hfuel : 2 * m.text.length ≤ fuel) (tail : List Char) :
    readMembers (fuel + 1) done (skipBlanks (m.text ++ '\x7d' :: tail)) =
      .ok (.object (m.onto done), tail) := by
  obtain ⟨quoted, colon, hquote, hkey, hcolon⟩ := exists_keyText_of_member m ('\x7d' :: tail)
  obtain ⟨behind, hvalue, hclose⟩ := exists_value_of_member m
    (by decide : isNumberPart '\x7d' = false) (by decide) hfuel tail
  exact readMembers_eq_ok_iff.mpr
    ⟨quoted, hquote, m.key, colon, hkey, _, hcolon, m.value, behind, hvalue, .inl ⟨hclose, rfl⟩⟩

theorem readMembers_next (m : Member) (hfuel : 2 * m.text.length ≤ fuel)
    (h : readMembers fuel (m.onto done) (skipBlanks tail) = .ok (v, rest)) :
    readMembers (fuel + 1) done (skipBlanks (m.text ++ ',' :: tail)) = .ok (v, rest) := by
  obtain ⟨quoted, colon, hquote, hkey, hcolon⟩ := exists_keyText_of_member m (',' :: tail)
  obtain ⟨behind, hvalue, hcomma⟩ := exists_value_of_member m
    (by decide : isNumberPart ',' = false) (by decide) hfuel tail
  exact readMembers_eq_ok_iff.mpr
    ⟨quoted, hquote, m.key, colon, hkey, _, hcolon, m.value, behind, hvalue,
      .inr ⟨tail, hcomma, h⟩⟩

/-- Each member takes one call, and its text has more than one character. -/
theorem readMembers_membersText (m : Member) (members : List Member)
    (hfuel : 2 * (membersText (m :: members)).length < fuel) (tail : List Char) :
    readMembers fuel done (skipBlanks (membersText (m :: members) ++ '\x7d' :: tail)) =
      .ok (.object ((m :: members).foldl Member.onto done), tail) := by
  induction members generalizing m done fuel with
  | nil =>
      rw [membersText_singleton] at hfuel ⊢
      obtain ⟨fuel, rfl⟩ := Nat.exists_eq_add_of_lt hfuel
      exact readMembers_last m (Nat.le_add_right _ fuel) tail
  | cons m' members ih =>
      rw [membersText_cons_cons] at hfuel ⊢
      rw [List.length_append, List.length_cons] at hfuel
      obtain ⟨fuel, rfl⟩ : ∃ less, fuel = less + 1 := Nat.exists_eq_succ_of_ne_zero (by omega)
      rw [List.append_assoc, List.cons_append]
      exact readMembers_next m (by omega) (ih m' (by omega))

/-! ## Objects -/

/-- Blanks, or nothing at all. -/
structure Gap where
  chars : List Char
  areBlank : AreBlank chars

/-- A text with blanks in front and behind. -/
def Gap.around (before after : Gap) (text : String) : String :=
  String.ofList (before.chars ++ (text.toList ++ after.chars))

theorem Gap.ofText_around (before after : Gap) {text : String} (h : Value.ofText text = .ok v) :
    Value.ofText (before.around after text) = .ok v := by
  refine mapError_eq_ok_iff.mpr ?_
  rw [around, String.toList_ofList]
  exact readDocument_spaced before.areBlank after.areBlank (mapError_eq_ok_iff.mp h)

/-- The member with other texts, that have blanks around its key and around its value. -/
def Member.spaced (m : Member) (beforeKey afterKey beforeValue afterValue : Gap) : Member where
  keyText := beforeKey.around afterKey m.keyText
  key := m.key
  valueText := beforeValue.around afterValue m.valueText
  value := m.value
  ofText_keyText := beforeKey.ofText_around afterKey m.ofText_keyText
  ofText_valueText := beforeValue.ofText_around afterValue m.ofText_valueText

def objectText (members : List Member) : String :=
  String.ofList ('\x7b' :: (membersText members ++ ['\x7d']))

theorem readValue_membersText (m : Member) (members : List Member)
    (hfuel : 2 * (membersText (m :: members)).length < fuel) (tail : List Char) :
    readValue (fuel + 1) ('\x7b' :: (membersText (m :: members) ++ '\x7d' :: tail)) =
      .ok (.object (fieldsOfMembers (m :: members)), tail) := by
  have hmembers := @readMembers_membersText fuel [] m members hfuel tail
  obtain ⟨quoted, hquote⟩ := exists_quote_of_readMembers hmembers
  refine readValue_eq_ok_iff.mpr (.object (fun behind hclose ↦ ?_) hmembers)
  cases hquote.symm.trans hclose

theorem ofText_objectText {members : List Member} (hsome : members ≠ []) :
    Value.ofText (objectText members) = .ok (.object (fieldsOfMembers members)) := by
  obtain ⟨m, members, rfl⟩ := List.exists_cons_of_ne_nil hsome
  refine mapError_eq_ok_iff.mpr (readDocument_eq_ok_iff.mpr ?_)
  rw [objectText, String.toList_ofList]
  refine ⟨by simp, [], readValue_membersText m members ?_ [], rfl⟩
  rw [List.length_cons, List.length_append]
  omega

theorem get?_foldl_onto_of_notMem {key : String} {members : List Member}
    (h : ∀ m ∈ members, m.key ≠ key) (fields : Fields) :
    (members.foldl Member.onto fields).get? key = fields.get? key := by
  induction members generalizing fields with
  | nil => rfl
  | cons m members ih =>
      obtain ⟨hm, hmembers⟩ := List.forall_mem_cons.mp h
      rw [List.foldl_cons, ih hmembers]
      exact Fields.get?_put_ne hm.symm m.value fields

/-- Of the members with one key the last one counts. -/
theorem get?_fieldsOfMembers (front : List Member) (m : Member) {back : List Member}
    (h : ∀ other ∈ back, other.key ≠ m.key) :
    (fieldsOfMembers (front ++ m :: back)).get? m.key = some m.value := by
  rw [fieldsOfMembers, List.foldl_append, List.foldl_cons, get?_foldl_onto_of_notMem h]
  exact Fields.get?_put_self m.key m.value _

end AbiTypings.Json
