import AbiTypings.Problem
import AbiTypings.Proofs.TypeScript.Shape

/-!
# Types that cannot be written

A type has no text in a direction when one of its subtrees has none: a foreign node in either
direction, void as an input. What is handed back is the first such subtree, from the root down
and from left to right. In the text of a type that has one stand the texts of all its subtrees.
-/

namespace AbiTypings

open Outcome

/-- A node without a text of its own in the direction. -/
def EvmType.isRefused : Direction → EvmType → Bool
  | _, .foreign _ => true
  | .input, .void => true
  | _, _ => false

namespace TypeScript

open EvmType

/-- The text of a type in a direction. -/
def typeIn : Direction → EvmType → Except Unrecognized String
  | .input => inputType
  | .output => outputType

variable {d : Direction} {t n : EvmType}

theorem typeIn_eq (d : Direction) (t : EvmType) :
    typeIn d t = (typeText d t).mapError (⟨·, d⟩) := by
  cases d <;> rfl

/-! ## The first node without a text -/

theorem exists_isRefused_iff : (∃ n ∈ t.subtrees, n.isRefused d = true) ↔
    (∃ node, .foreign node ∈ t.subtrees) ∨ d = .input ∧ .void ∈ t.subtrees := by
  constructor
  · rintro ⟨n, hn, hrefused⟩
    cases n with
    | foreign node => exact Or.inl ⟨node, hn⟩
    | void =>
        cases d with
        | input => exact Or.inr ⟨rfl, hn⟩
        | output => cases hrefused
    | _ => cases d <;> cases hrefused
  · rintro (⟨node, hn⟩ | ⟨rfl, hn⟩)
    · exact ⟨_, hn, by cases d <;> rfl⟩
    · exact ⟨_, hn, rfl⟩

theorem typeText_of_isLeaf (h : t.IsLeaf) :
    (t.isRefused d = true ∧ typeText d t = .error t) ∨
      (t.isRefused d = false ∧ ∃ s, typeText d t = .ok s) := by
  cases t with
  | array item size => exact absurd h (not_isLeaf_array item size)
  | tuple components => exact absurd h (not_isLeaf_tuple components)
  | foreign node => exact Or.inl ⟨by cases d <;> rfl, by cases d <;> rfl⟩
  | void =>
      cases d with
      | input => exact Or.inl ⟨rfl, rfl⟩
      | output => exact Or.inr ⟨rfl, _, rfl⟩
  | _ => cases d <;> exact Or.inr ⟨rfl, _, rfl⟩

theorem componentTexts_eq_error_iff {components : Components}
    (h : ∀ c ∈ components, ∀ n, typeText d c.2 = .error n ↔
      c.2.subtrees.find? (isRefused d) = some n) :
    componentTexts d components = .error n ↔
      (components.flatMap (·.2.subtrees)).find? (isRefused d) = some n := by
  induction components with
  | nil => simp [componentTexts]
  | cons c rest ih =>
      obtain ⟨hc, hrest⟩ := List.forall_mem_cons.mp h
      rw [List.flatMap_cons, List.find?_append, Option.or_eq_some_iff, ← hc n, ← ih hrest,
        componentTexts, bind_eq_error_iff]
      -- The first component has a text exactly when no subtree of it is refused.
      have hnone : c.2.subtrees.find? (isRefused d) = none ↔ ∃ s, typeText d c.2 = .ok s := by
        cases htext : typeText d c.2 with
        | ok s =>
            refine ⟨fun _ ↦ ⟨s, rfl⟩, fun _ ↦ Option.eq_none_iff_forall_ne_some.mpr ?_⟩
            intro m hm
            cases htext.symm.trans ((hc m).mpr hm)
        | error m =>
            rw [(hc m).mp htext]
            simp
      rw [hnone]
      refine or_congr_right ⟨?_, ?_⟩
      · rintro ⟨s, hs, htail⟩
        rcases bind_eq_error_iff.mp htail with hfields | ⟨fields, _, hpure⟩
        · exact ⟨⟨s, hs⟩, hfields⟩
        · cases hpure
      · rintro ⟨⟨s, hs⟩, hfields⟩
        exact ⟨s, hs, bind_eq_error_iff.mpr (Or.inl hfields)⟩

theorem typeText_eq_error_iff :
    typeText d t = .error n ↔ t.subtrees.find? (isRefused d) = some n := by
  induction t using treeInduction generalizing n with
  | leaf t hleaf =>
      rw [subtrees_of_isLeaf hleaf]
      rcases typeText_of_isLeaf (d := d) hleaf with ⟨hrefused, htext⟩ | ⟨hkept, s, htext⟩
      · simp [htext, hrefused]
      · simp [htext, hkept]
  | array item size ih =>
      have harray : (array item size).isRefused d = false := by cases d <;> rfl
      rw [subtrees_array, List.find?_cons_of_neg (by simp [harray]), typeText, map_eq_error_iff, ih]
  | tuple components ih =>
      have htuple : (tuple components).isRefused d = false := by cases d <;> rfl
      rw [subtrees_tuple, List.find?_cons_of_neg (by simp [htuple]), typeText, map_eq_error_iff,
        componentTexts_eq_error_iff fun c hc n ↦ ih c hc]

/-! ## Texts within a text -/

theorem infix_intercalate {separator s : String} {texts : List String} (h : s ∈ texts) :
    s.toList <:+: (separator.intercalate texts).toList := by
  induction texts with
  | nil => cases h
  | cons first rest ih =>
      cases rest with
      | nil =>
          obtain rfl := List.mem_singleton.mp h
          have hsingle : separator.intercalate [s] = s := String.intercalate_singleton
          exact hsingle.symm ▸ List.infix_refl s.toList
      | cons second more =>
          rw [String.intercalate_cons_cons, String.toList_append]
          rcases List.mem_cons.mp h with rfl | h
          · rw [String.toList_append, List.append_assoc]
            exact (List.prefix_append _ _).isInfix
          · exact (ih h).trans (List.suffix_append _ _).isInfix

theorem infix_arrayText (item : String) : item.toList <:+: (arrayText item).toList := by
  rw [arrayText, String.toList_append, String.toList_append]
  exact List.infix_append _ _ _

theorem infix_recordText {field : String} {fields : List String} (h : field ∈ fields) :
    field.toList <:+: (recordText fields).toList := by
  cases fields with
  | nil => cases h
  | cons first rest =>
      rw [recordText, String.toList_append, String.toList_append]
      · exact (infix_intercalate h).trans (List.infix_append _ _ _)
      · exact List.cons_ne_nil first rest

theorem exists_field_of_componentTexts {components : Components} {fields : List String}
    (h : componentTexts d components = .ok fields) {c : Json.Value × EvmType}
    (hc : c ∈ components) :
    ∃ s, typeText d c.2 = .ok s ∧ fieldText c.1.display s ∈ fields :=
  (writes_componentTexts d components).exists_text h (List.mem_map_of_mem hc)

theorem infix_typeText {s : String} (h : typeText d t = .ok s) (hn : n ∈ t.subtrees) :
    ∃ part, typeText d n = .ok part ∧ part.toList <:+: s.toList := by
  induction t using treeInduction generalizing s with
  | leaf t hleaf =>
      rw [subtrees_of_isLeaf hleaf, List.mem_singleton] at hn
      subst hn
      exact ⟨s, h, List.infix_refl _⟩
  | array item size ih =>
      rcases List.mem_cons.mp hn with rfl | hn
      · exact ⟨s, h, List.infix_refl _⟩
      · obtain ⟨text, htext, rfl⟩ := map_eq_ok_iff.mp h
        obtain ⟨part, hpart, hwithin⟩ := ih htext hn
        exact ⟨part, hpart, hwithin.trans (infix_arrayText text)⟩
  | tuple components ih =>
      rw [subtrees_tuple] at hn
      rcases List.mem_cons.mp hn with rfl | hn
      · exact ⟨s, h, List.infix_refl _⟩
      · obtain ⟨fields, hfields, rfl⟩ := map_eq_ok_iff.mp h
        obtain ⟨c, hc, hn⟩ := List.mem_flatMap.mp hn
        obtain ⟨text, htext, hfield⟩ := exists_field_of_componentTexts hfields hc
        obtain ⟨part, hpart, hwithin⟩ := ih c hc htext hn
        have hkey : text.toList <:+: (fieldText c.1.display text).toList := by
          rw [fieldText, String.toList_append]
          exact (List.suffix_append _ _).isInfix
        exact ⟨part, hpart, (hwithin.trans hkey).trans (infix_recordText hfield)⟩

/-! ## Both directions -/

/-- A type has no text in a direction exactly when a foreign node is among its subtrees, or, as
an input, void. The problem names the first such subtree and the direction. In the text of a type
stands the text of each of its subtrees. -/
theorem typeIn_names_first_refused (d : Direction) (t : EvmType) :
    ((∃ u, typeIn d t = .error u) ↔
        (∃ node, .foreign node ∈ t.subtrees) ∨ d = .input ∧ .void ∈ t.subtrees) ∧
      (∀ p, (typeIn d t).mapError Problem.ofUnrecognized = .error p ↔
        ∃ n, t.subtrees.find? (isRefused d) = some n ∧ p = .unrecognizedType n d.label) ∧
      ∀ s, typeIn d t = .ok s → ∀ n ∈ t.subtrees,
        ∃ part, typeIn d n = .ok part ∧ part.toList <:+: s.toList := by
  have herror (u : Unrecognized) : typeIn d t = .error u ↔
      ∃ n, t.subtrees.find? (isRefused d) = some n ∧ ⟨n, d⟩ = u := by
    rw [typeIn_eq, mapError_eq_error_iff]
    exact exists_congr fun n ↦ and_congr_left' typeText_eq_error_iff
  refine ⟨?_, fun p ↦ ?_, fun s hs n hn ↦ ?_⟩
  · rw [← exists_isRefused_iff, ← List.find?_isSome, Option.isSome_iff_exists]
    constructor
    · rintro ⟨u, hu⟩
      obtain ⟨n, hn, _⟩ := (herror u).mp hu
      exact ⟨n, hn⟩
    · rintro ⟨n, hn⟩
      exact ⟨_, (herror _).mpr ⟨n, hn, rfl⟩⟩
  · rw [mapError_eq_error_iff]
    constructor
    · rintro ⟨u, hu, rfl⟩
      obtain ⟨n, hn, rfl⟩ := (herror u).mp hu
      exact ⟨n, hn, rfl⟩
    · rintro ⟨n, hn, rfl⟩
      exact ⟨_, (herror _).mpr ⟨n, hn, rfl⟩, rfl⟩
  · rw [typeIn_eq, mapError_eq_ok_iff] at hs
    obtain ⟨part, hpart, hwithin⟩ := infix_typeText hs hn
    exact ⟨part, by rw [typeIn_eq, hpart]; rfl, hwithin⟩

/-- Void in an array stands in front of the foreign node, but an output may be void. -/
example :
    let t : EvmType := .tuple [(.text "a", .array .void none), (.text "b", .foreign .untyped)]
    typeIn .input t = .error ⟨.void, .input⟩ ∧
      typeIn .output t = .error ⟨.foreign .untyped, .output⟩ :=
  ⟨rfl, rfl⟩

end TypeScript

end AbiTypings
