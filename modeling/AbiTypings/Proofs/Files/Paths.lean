import AbiTypings.Files.Path
import Mathlib.Data.List.Basic
import Mathlib.Tactic.SplitIfs

/-!
# Paths and their texts

A path that was read from a text, and every path made from such paths, has parts that could
stand between two slashes. The text of such a path leads back to the path, so that no part is
lost, joined with another one, or taken for an anchor.
-/

namespace AbiTypings.Path

/-! ## Pieces between slashes -/

theorem splitSlashes_of_notMem {cs : List Char} (h : '/' ∉ cs) : splitSlashes cs = [cs] := by
  induction cs with
  | nil => rfl
  | cons c rest ih =>
      rw [List.mem_cons, not_or] at h
      rw [splitSlashes, if_neg (Ne.symm h.1), ih h.2]

theorem splitSlashes_append (a b : List Char) :
    splitSlashes (a ++ '/' :: b) = splitSlashes a ++ splitSlashes b := by
  induction a with
  | nil => simp [splitSlashes]
  | cons c rest ih =>
      by_cases hc : c = '/'
      · rw [List.cons_append, splitSlashes, if_pos hc, ih, splitSlashes, if_pos hc,
          List.cons_append]
      · rw [List.cons_append, splitSlashes, if_neg hc, ih, splitSlashes, if_neg hc]
        cases hsplit : splitSlashes rest with
        | nil => exact absurd hsplit (splitSlashes_ne_nil rest)
        | cons piece more => rfl

theorem notMem_of_mem_splitSlashes {cs piece : List Char} (h : piece ∈ splitSlashes cs) :
    '/' ∉ piece := by
  induction cs generalizing piece with
  | nil => simp_all [splitSlashes]
  | cons c rest ih =>
      rw [splitSlashes] at h
      split_ifs at h with hc
      · rcases List.mem_cons.mp h with rfl | h
        · exact List.not_mem_nil
        · exact ih h
      · split at h
        case h_1 hnil => exact absurd hnil (splitSlashes_ne_nil rest)
        case h_2 first more hsplit =>
          have hfirst : '/' ∉ first := ih (hsplit ▸ List.mem_cons_self)
          rcases List.mem_cons.mp h with rfl | h
          · simpa [Ne.symm hc] using hfirst
          · exact ih (hsplit ▸ List.mem_cons_of_mem first h)

theorem pieces_of_notMem {s : String} (h : '/' ∉ s.toList) : pieces s = [s] := by
  rw [pieces, splitSlashes_of_notMem h, List.map_singleton, String.ofList_toList]

theorem pieces_append (a b : String) : pieces (a ++ "/" ++ b) = pieces a ++ pieces b := by
  have hslash : "/".toList = ['/'] := rfl
  rw [pieces, String.toList_append, String.toList_append, hslash, List.append_assoc,
    List.singleton_append, splitSlashes_append, List.map_append]
  rfl

theorem pieces_intercalate {parts : List String} (hne : parts ≠ [])
    (h : ∀ s ∈ parts, '/' ∉ s.toList) : pieces ("/".intercalate parts) = parts := by
  induction parts with
  | nil => exact absurd rfl hne
  | cons s rest ih =>
      have hs := pieces_of_notMem (h s List.mem_cons_self)
      cases rest with
      | nil => simpa using hs
      | cons r more =>
          have hrest := ih (List.cons_ne_nil r more) fun x hx ↦ h x (List.mem_cons_of_mem s hx)
          rw [String.intercalate_cons_cons, pieces_append, hs, hrest]
          rfl

/-! ## Parts -/

/-- A text that can be a part: it is not dropped, and there is no slash in it. -/
def IsProper (s : String) : Prop := isPart s = true ∧ '/' ∉ s.toList

instance (s : String) : Decidable (IsProper s) :=
  inferInstanceAs (Decidable (isPart s = true ∧ '/' ∉ s.toList))

/-- All parts of the path can be parts. -/
def IsNormal (p : Path) : Prop := ∀ s ∈ p.parts, IsProper s

theorem IsProper.exists_cons {s : String} (h : IsProper s) :
    ∃ c cs, s.toList = c :: cs ∧ c ≠ '/' := by
  cases hs : s.toList with
  | nil =>
      obtain rfl : s = "" := String.toList_eq_nil_iff.mp hs
      exact absurd h.1 (by decide)
  | cons c cs =>
      refine ⟨c, cs, rfl, ?_⟩
      rintro rfl
      exact h.2 (hs ▸ List.mem_cons_self)

theorem isNormal_ofText (s : String) : (ofText s).IsNormal := by
  intro part hpart
  obtain ⟨hpiece, hkept⟩ := List.mem_filter.mp hpart
  obtain ⟨piece, hsplit, rfl⟩ := List.mem_map.mp hpiece
  refine ⟨hkept, ?_⟩
  rw [String.toList_ofList]
  exact notMem_of_mem_splitSlashes hsplit

theorem isNormal_join {p q : Path} (hp : p.IsNormal) (hq : q.IsNormal) : (p.join q).IsNormal := by
  unfold join
  split_ifs
  · intro s hs
    exact (List.mem_append.mp hs).elim (hp s) (hq s)
  · exact hq

theorem isNormal_child {p : Path} (hp : p.IsNormal) {name : String} (hname : IsProper name) :
    (p.child name).IsNormal := by
  intro s hs
  rcases List.mem_append.mp hs with hs | hs
  · exact hp s hs
  · exact List.mem_singleton.mp hs ▸ hname

/-! ## Reading a text back -/

theorem exists_cons_intercalate {parts : List String} (hne : parts ≠ [])
    (h : ∀ s ∈ parts, IsProper s) :
    ∃ c cs, ("/".intercalate parts).toList = c :: cs ∧ c ≠ '/' := by
  cases parts with
  | nil => exact absurd rfl hne
  | cons s rest =>
      obtain ⟨c, cs, hs, hc⟩ := (h s List.mem_cons_self).exists_cons
      cases rest with
      | nil => exact ⟨c, cs, by simpa using hs, hc⟩
      | cons r more =>
          rw [String.intercalate_cons_cons, String.toList_append, String.toList_append, hs]
          exact ⟨c, _, rfl, hc⟩

theorem text_ne_empty {p : Path} (hp : p.IsNormal) : p.text ≠ "" := by
  by_cases hparts : p.parts = []
  · obtain ⟨anchor, parts⟩ := p
    obtain rfl : parts = [] := hparts
    cases anchor <;> decide
  · obtain ⟨c, cs, hcs, _⟩ := exists_cons_intercalate hparts hp
    intro hempty
    rw [text, if_neg fun h ↦ hparts h.2] at hempty
    have hnil := congrArg String.toList hempty
    rw [String.toList_append, hcs] at hnil
    simp at hnil

theorem anchorOf_of_ne {c : Char} (h : c ≠ '/') (cs : List Char) :
    anchorOf (c :: cs) = .relative ∧ anchorOf ('/' :: c :: cs) = .root ∧
      anchorOf ('/' :: '/' :: c :: cs) = .doubleRoot := by
  refine ⟨?_, ?_, ?_⟩ <;> simp [anchorOf, h]

theorem anchorOf_eq_relative_iff (cs : List Char) :
    anchorOf cs = .relative ↔ cs.head? ≠ some '/' := by
  cases cs with
  | nil => simp [anchorOf]
  | cons c rest =>
      by_cases hc : c = '/'
      · subst hc
        have hanchored : anchorOf ('/' :: rest) ≠ .relative := by
          unfold anchorOf
          split <;> simp_all
        simpa using hanchored
      · simp [(anchorOf_of_ne hc rest).1, hc]

/-- The pieces of the text of a path: nothing but the parts, and one empty piece for every slash
of the anchor. -/
theorem pieces_text {p : Path} (hp : p.IsNormal) (hne : p.parts ≠ []) :
    pieces p.text = List.replicate p.anchor.text.length "" ++ p.parts := by
  have hparts := pieces_intercalate hne fun s hs ↦ (hp s hs).2
  have hempty : pieces "" = [""] := by decide
  rw [text, if_neg fun h ↦ hne h.2]
  cases p.anchor with
  | relative => simpa [Anchor.text] using hparts
  | root =>
      have hroot : Anchor.root.text = "" ++ "/" := rfl
      rw [hroot, pieces_append, hempty, hparts]
      rfl
  | doubleRoot =>
      have hroot : Anchor.doubleRoot.text = "" ++ "/" ++ "" ++ "/" := rfl
      rw [hroot, pieces_append, pieces_append, hempty, hparts]
      rfl

theorem anchorOf_text {p : Path} (hp : p.IsNormal) : anchorOf p.text.toList = p.anchor := by
  by_cases hne : p.parts = []
  · rw [text, hne]
    cases p.anchor <;> rfl
  · obtain ⟨c, cs, hcs, hc⟩ := exists_cons_intercalate hne hp
    obtain ⟨hrelative, hroot, hdouble⟩ := anchorOf_of_ne hc cs
    rw [text, if_neg fun h ↦ hne h.2, String.toList_append, hcs]
    cases p.anchor with
    | relative => exact hrelative
    | root => exact hroot
    | doubleRoot => exact hdouble

theorem filter_isPart_parts {p : Path} (hp : p.IsNormal) : p.parts.filter isPart = p.parts :=
  List.filter_eq_self.mpr fun s hs ↦ (hp s hs).1

/-- The text of a path leads back to it. -/
theorem ofText_text {p : Path} (hp : p.IsNormal) : ofText p.text = p := by
  rw [ofText, anchorOf_text hp]
  by_cases hne : p.parts = []
  · obtain ⟨anchor, parts⟩ := p
    obtain rfl : parts = [] := hne
    cases anchor <;> decide
  · have hdropped (n : Nat) : (List.replicate n "").filter isPart = [] := by
      rw [List.filter_replicate_of_neg (by decide)]
    rw [pieces_text hp hne, List.filter_append, hdropped, List.nil_append,
      filter_isPart_parts hp]

theorem eq_of_text_eq {p q : Path} (hp : p.IsNormal) (hq : q.IsNormal) (h : p.text = q.text) :
    p = q := by
  rw [← ofText_text hp, h, ofText_text hq]

/-! ## Children -/

/-- The text of a child: behind the text of the path, with a slash where one is needed. -/
theorem text_child (p : Path) (name : String) : (p.child name).text =
    if p.parts = [] then p.anchor.text ++ name else p.text ++ "/" ++ name := by
  rw [text, child, if_neg (by simp)]
  split_ifs with hparts
  · simp [hparts]
  · rw [text, if_neg fun h ↦ hparts h.2,
      String.intercalate_append_of_ne_nil hparts (List.cons_ne_nil name [])]
    simp [String.append_assoc]

theorem isProper_name {p : Path} (hp : p.IsNormal) (hne : p.parts ≠ []) : IsProper p.name := by
  rw [name, List.getLastD_eq_getLast?, List.getLast?_eq_some_getLast hne]
  exact hp _ (List.getLast_mem hne)

theorem isNormal_parent {p : Path} (hp : p.IsNormal) : p.parent.IsNormal :=
  fun s hs ↦ hp s ((List.dropLast_sublist p.parts).subset hs)

theorem child_parent {p : Path} (hne : p.parts ≠ []) : p.parent.child p.name = p := by
  obtain ⟨anchor, parts⟩ := p
  rw [parent, child, name, List.getLastD_eq_getLast?, List.getLast?_eq_some_getLast hne]
  exact congrArg (Path.mk anchor) (List.dropLast_concat_getLast hne)

/-- The path that some names lead to from a directory. -/
def below (p : Path) (names : List String) : Path := ⟨p.anchor, p.parts ++ names⟩

@[simp] theorem below_nil (p : Path) : p.below [] = p := by
  simp [below]

theorem below_concat (p : Path) (names : List String) (name : String) :
    p.below (names ++ [name]) = (p.below names).child name := by
  simp [below, child]

theorem isNormal_below {p : Path} (hp : p.IsNormal) {names : List String}
    (hnames : ∀ name ∈ names, IsProper name) : (p.below names).IsNormal := by
  intro s hs
  exact (List.mem_append.mp hs).elim (hp s) (hnames s)

theorem notMem_stem (s : String) : '/' ∉ (ofText s).stem.toList := by
  have hname : '/' ∉ (ofText s).name.toList := by
    unfold name
    cases hlast : (ofText s).parts.getLast? with
    | none => simp [List.getLastD_eq_getLast?, hlast]
    | some part =>
        rw [List.getLastD_eq_getLast?, hlast]
        exact (isNormal_ofText s part (List.mem_of_getLast? hlast)).2
  rw [stem, String.toList_ofList, dropExtension]
  split_ifs
  · exact hname
  · intro hmem
    refine hname (List.mem_reverse.mp ?_)
    exact (List.dropWhile_sublist _).subset (List.mem_of_mem_drop (List.mem_reverse.mp hmem))

end AbiTypings.Path
