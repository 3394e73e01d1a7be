import AbiTypings.Proofs.Files.Expanding
import AbiTypings.Proofs.Run.Outputs
import AbiTypings.Run.Inputs
import Mathlib.Data.List.Sort
import Mathlib.Data.String.Basic

/-!
# The files that the inputs name

The paths of a run are in increasing order, each once. A file can still be there twice, under two
spellings of its path: what a directory or a file contributes is spelled as paths are, but the
answers to a pattern text keep the spelling of the pattern.
-/

namespace AbiTypings.Run

open FileTree Outcome AbiTypings.Path

/-! ## Sorted paths -/

variable {paths : List String}

theorem mem_insertPath_iff {path x : String} :
    x ∈ insertPath path paths ↔ x = path ∨ x ∈ paths := by
  induction paths with
  | nil => simp [insertPath]
  | cons p rest ih =>
      rw [insertPath]
      split_ifs with heq hlt
      · subst heq
        simp
      · exact List.mem_cons
      · rw [List.mem_cons, ih, List.mem_cons]
        exact or_left_comm

theorem pairwise_insertPath (path : String) (h : paths.Pairwise (· < ·)) :
    (insertPath path paths).Pairwise (· < ·) := by
  induction paths with
  | nil => exact List.pairwise_singleton _ path
  | cons p rest ih =>
      obtain ⟨hp, hrest⟩ := List.pairwise_cons.mp h
      rw [insertPath]
      split_ifs with heq hlt
      · exact h
      · refine List.pairwise_cons.mpr ⟨fun x hx ↦ ?_, h⟩
        rcases List.mem_cons.mp hx with rfl | hx
        · exact hlt
        · exact hlt.trans (hp x hx)
      · refine List.pairwise_cons.mpr ⟨fun x hx ↦ ?_, ih hrest⟩
        rcases mem_insertPath_iff.mp hx with rfl | hx
        · exact lt_of_le_of_ne (not_lt.mp hlt) (Ne.symm heq)
        · exact hp x hx

theorem mem_sortPaths_iff {x : String} : x ∈ sortPaths paths ↔ x ∈ paths := by
  have hfold (sorted : List String) :
      x ∈ paths.foldl (fun sorted path ↦ insertPath path sorted) sorted ↔
        x ∈ paths ∨ x ∈ sorted := by
    induction paths generalizing sorted with
    | nil => simp
    | cons p rest ih =>
        rw [List.foldl_cons, ih, mem_insertPath_iff, List.mem_cons]
        exact or_left_comm.trans or_assoc.symm
  rw [sortPaths, hfold]
  simp

theorem pairwise_sortPaths (paths : List String) : (sortPaths paths).Pairwise (· < ·) := by
  have hfold (sorted : List String) (h : sorted.Pairwise (· < ·)) :
      (paths.foldl (fun sorted path ↦ insertPath path sorted) sorted).Pairwise (· < ·) := by
    induction paths generalizing sorted with
    | nil => exact h
    | cons p rest ih => exact ih _ (pairwise_insertPath p h)
  exact hfold [] .nil

/-! ## One input -/

variable {t : FileTree} {pattern input path : String} {inputs found : List String}

/-- The input is neither a directory nor a file, so it is taken for a pattern. -/
def IsPatternInput (t : FileTree) (input : String) : Prop :=
  t.isDirectory (ofText input).text = .ok false ∧ t.isFile (ofText input).text = .ok false

instance (t : FileTree) (input : String) : Decidable (IsPatternInput t input) :=
  decidable_of_iff ((t.isDirectory (ofText input).text).toOption = some false ∧
      (t.isFile (ofText input).text).toOption = some false)
    (and_congr toOption_eq_some_iff toOption_eq_some_iff)

/-- The path is spelled as its parts are written. -/
def IsSpelled (path : String) : Prop := (ofText path).text = path

instance (path : String) : Decidable (IsSpelled path) :=
  inferInstanceAs (Decidable ((ofText path).text = path))

theorem isSpelled_text {p : Path} (hp : p.IsNormal) : IsSpelled p.text := by
  rw [IsSpelled, ofText_text hp]

theorem filesOf_eq_ok_iff : filesOf t pattern input = .ok found ↔
    (t.isDirectory (ofText input).text = .ok true ∧
        t.filesUnder (ofText input) pattern = .ok found) ∨
      (t.isDirectory (ofText input).text = .ok false ∧
        t.isFile (ofText input).text = .ok true ∧ found = [(ofText input).text]) ∨
      (IsPatternInput t input ∧ t.filesNamed input = .ok found) := by
  rw [filesOf, bind_eq_ok_iff]
  simp only [mapError_eq_ok_iff, IsPatternInput]
  constructor
  · rintro ⟨isDirectory, hdirectory, hrest⟩
    cases isDirectory with
    | true => exact Or.inl ⟨hdirectory, mapError_eq_ok_iff.mp hrest⟩
    | false =>
        obtain ⟨isFile, hfile, hrest⟩ := bind_eq_ok_iff.mp hrest
        rw [mapError_eq_ok_iff] at hfile
        cases isFile with
        | true => exact Or.inr (Or.inl ⟨hdirectory, hfile, (Except.ok.inj hrest).symm⟩)
        | false => exact Or.inr (Or.inr ⟨⟨hdirectory, hfile⟩, mapError_eq_ok_iff.mp hrest⟩)
  · rintro (⟨hdirectory, hunder⟩ | ⟨hdirectory, hfile, rfl⟩ | ⟨⟨hdirectory, hfile⟩, hnamed⟩)
    · exact ⟨true, hdirectory, mapError_eq_ok_iff.mpr hunder⟩
    · refine ⟨false, hdirectory, bind_eq_ok_iff.mpr ⟨true, mapError_eq_ok_iff.mpr hfile, rfl⟩⟩
    · refine ⟨false, hdirectory, bind_eq_ok_iff.mpr ⟨false, mapError_eq_ok_iff.mpr hfile, ?_⟩⟩
      exact mapError_eq_ok_iff.mpr hnamed

theorem filesOf_of_isDirectory (hdir : t.isDirectory (ofText input).text = .ok true) :
    filesOf t pattern input =
      (t.filesUnder (ofText input) pattern).mapError (.ofSearchFault (ofText input).text) := by
  rw [filesOf, hdir]
  rfl

/-- Directories and files contribute paths that are spelled as paths are. -/
theorem isSpelled_or_of_mem_filesOf (h : t.IsSound)
    (hfound : filesOf t pattern input = .ok found) (hpath : path ∈ found) :
    IsSpelled path ∨ (IsPatternInput t input ∧ t.filesNamed input = .ok found) := by
  have hp := isNormal_ofText input
  rcases filesOf_eq_ok_iff.mp hfound with ⟨_, hunder⟩ | ⟨_, _, rfl⟩ | hnamed
  · obtain ⟨q, hq, rfl⟩ := exists_of_mem_filesUnder h hp hunder hpath
    exact Or.inl (isSpelled_text hq)
  · exact Or.inl (List.mem_singleton.mp hpath ▸ isSpelled_text hp)
  · exact Or.inr hnamed

/-! ## All inputs -/

theorem resolveInputs_eq_ok_iff : resolveInputs t pattern inputs = .ok paths ↔
    ∃ found, inputs.mapM (filesOf t pattern) = .ok found ∧ paths = sortPaths found.flatten := by
  rw [resolveInputs, bind_eq_ok_iff]
  refine exists_congr fun found ↦ and_congr_right fun _ ↦ ?_
  exact ⟨fun hpaths ↦ (Except.ok.inj hpaths).symm, fun hpaths ↦ congrArg Except.ok hpaths.symm⟩

theorem mem_resolveInputs_iff (hpaths : resolveInputs t pattern inputs = .ok paths) :
    path ∈ paths ↔
      ∃ input ∈ inputs, ∃ found, filesOf t pattern input = .ok found ∧ path ∈ found := by
  obtain ⟨found, hfound, rfl⟩ := resolveInputs_eq_ok_iff.mp hpaths
  rw [mem_sortPaths_iff, List.mem_flatten]
  have hpairs := mapM_eq_ok_iff.mp hfound
  constructor
  · rintro ⟨l, hl, hpath⟩
    obtain ⟨input, hinput, hfiles⟩ := exists_mem_of_forall₂ hpairs hl
    exact ⟨input, hinput, l, hfiles, hpath⟩
  · rintro ⟨input, hinput, l, hfiles, hpath⟩
    obtain ⟨l', hl', hfiles'⟩ := exists_mem_of_forall₂ hpairs.flip hinput
    obtain rfl := Except.ok.inj (hfiles.symm.trans hfiles')
    exact ⟨l, hl', hpath⟩

theorem pairwise_resolveInputs (hpaths : resolveInputs t pattern inputs = .ok paths) :
    paths.Pairwise (· < ·) := by
  obtain ⟨found, _, rfl⟩ := resolveInputs_eq_ok_iff.mp hpaths
  exact pairwise_sortPaths _

theorem exists_resolveInputs_eq_ok_iff : (∃ paths, resolveInputs t pattern inputs = .ok paths) ↔
    ∀ input ∈ inputs, ∃ found, filesOf t pattern input = .ok found := by
  rw [← exists_mapM_eq_ok_iff]
  constructor
  · rintro ⟨paths, hpaths⟩
    obtain ⟨found, hfound, _⟩ := resolveInputs_eq_ok_iff.mp hpaths
    exact ⟨found, hfound⟩
  · rintro ⟨found, hfound⟩
    exact ⟨_, resolveInputs_eq_ok_iff.mpr ⟨found, hfound, rfl⟩⟩

theorem exists_filesOf_of_resolveInputs_eq_error {problem : Problem}
    (h : resolveInputs t pattern inputs = .error problem) :
    ∃ input ∈ inputs, filesOf t pattern input = .error problem := by
  rcases bind_eq_error_iff.mp h with h | ⟨_, _, hpure⟩
  · exact exists_mem_of_mapM_eq_error h
  · cases hpure

/-! ## Directories -/

theorem patternParts_defaultPattern :
    patternParts defaultPattern = .ok [.chain, .wildcard "*.json"] :=
  toOption_eq_some_iff.mp (by decide +kernel)

theorem eq_nameTooLong_of_filesOf (hdir : t.isDirectory (ofText input).text = .ok true)
    {problem : Problem} (h : filesOf t defaultPattern input = .error problem) :
    problem = .unreadable .nameTooLong (ofText input).text := by
  rw [filesOf_of_isDirectory hdir] at h
  obtain ⟨fault, hfault, rfl⟩ := mapError_eq_error_iff.mp h
  rw [eq_nameTooLong_of_filesUnder patternParts_defaultPattern hfault]
  rfl

/-- The search ends at a directory that is too far down. -/
theorem resolveInputs_of_hasOverlongDirectory (h : t.IsSound)
    (hdirs : ∀ input ∈ inputs, t.isDirectory (ofText input).text = .ok true)
    (hlong : ∃ input ∈ inputs, t.HasOverlongDirectory (ofText input)) :
    ∃ path, resolveInputs t defaultPattern inputs = .error (.unreadable .nameTooLong path) := by
  cases hresolve : resolveInputs t defaultPattern inputs with
  | ok paths =>
      obtain ⟨input, hinput, hoverlong⟩ := hlong
      have hdir := hdirs input hinput
      obtain ⟨found, hfound⟩ := exists_resolveInputs_eq_ok_iff.mp ⟨paths, hresolve⟩ input hinput
      rw [filesOf_of_isDirectory hdir, filesUnder_of_hasOverlongDirectory h (isNormal_ofText input)
        hdir patternParts_defaultPattern hoverlong] at hfound
      cases hfound
  | error problem =>
      obtain ⟨input, hinput, hfails⟩ := exists_filesOf_of_resolveInputs_eq_error hresolve
      exact ⟨_, congrArg Except.error (eq_nameTooLong_of_filesOf (hdirs input hinput) hfails)⟩

/-! ## Files that are there twice -/

/-- No two of the paths are spellings of the same path. -/
def AreDistinct (paths : List String) : Prop :=
  ∀ a ∈ paths, ∀ b ∈ paths, (ofText a).text = (ofText b).text → a = b

instance (paths : List String) : Decidable (AreDistinct paths) :=
  inferInstanceAs (Decidable (∀ a ∈ paths, ∀ b ∈ paths, (ofText a).text = (ofText b).text → a = b))

/-- The path is an answer to an input that is taken for a pattern, and is not spelled as paths
are. -/
def IsStray (t : FileTree) (inputs : List String) (path : String) : Prop :=
  ¬ IsSpelled path ∧ ∃ input ∈ inputs, IsPatternInput t input ∧
    ∃ found, t.filesNamed input = .ok found ∧ path ∈ found

section Distinct

variable (h : t.IsSound) (hpaths : resolveInputs t pattern inputs = .ok paths)

include h hpaths

theorem isSpelled_or_isStray (hpath : path ∈ paths) : IsSpelled path ∨ IsStray t inputs path := by
  obtain ⟨input, hinput, found, hfound, hmem⟩ := (mem_resolveInputs_iff hpaths).mp hpath
  by_cases hspelled : IsSpelled path
  · exact Or.inl hspelled
  · have hanswer := (isSpelled_or_of_mem_filesOf h hfound hmem).resolve_left hspelled
    obtain ⟨hispattern, hnamed⟩ := hanswer
    exact Or.inr ⟨hspelled, input, hinput, hispattern, found, hnamed, hmem⟩

theorem isSpelled_of_mem_resolveInputs
    (hpatterns : ∀ input ∈ inputs, IsPatternInput t input →
      IsSpelled input ∧ (ofText input).name ≠ "**")
    (hpath : path ∈ paths) : IsSpelled path := by
  refine (isSpelled_or_isStray h hpaths hpath).resolve_right ?_
  rintro ⟨hmisspelled, input, hinput, hispattern, found, hnamed, hmem⟩
  obtain ⟨hspelled, hchain⟩ := hpatterns input hinput hispattern
  obtain ⟨q, hq, rfl⟩ := exists_of_mem_filesNamed h hspelled hchain hnamed hmem
  exact hmisspelled (isSpelled_text hq)

/-- The paths of a run are sorted. No file is among them twice if no stray answer to a pattern is
another spelling of one of them, and only then; in particular if every pattern is spelled as paths
are and does not end in a chain. -/
theorem resolveInputs_areDistinct_iff :
    paths.Pairwise (· < ·) ∧
      (AreDistinct paths ↔ ∀ path ∈ paths, IsStray t inputs path →
        ∀ other ∈ paths, (ofText other).text = (ofText path).text → other = path) ∧
      ((∀ input ∈ inputs, IsPatternInput t input →
        IsSpelled input ∧ (ofText input).name ≠ "**") → AreDistinct paths) := by
  refine ⟨pairwise_resolveInputs hpaths, ⟨?_, ?_⟩, ?_⟩
  · intro hdistinct path hpath _ other hother heq
    exact hdistinct other hother path hpath heq
  · intro hstrays a ha b hb heq
    rcases isSpelled_or_isStray h hpaths ha with hspelleda | hstray
    · rcases isSpelled_or_isStray h hpaths hb with hspelledb | hstray
      · exact hspelleda.symm.trans (heq.trans hspelledb)
      · exact hstrays b hb hstray a ha heq
    · exact (hstrays a ha hstray b hb heq.symm).symm
  · intro hpatterns a ha b hb heq
    have hspelleda := isSpelled_of_mem_resolveInputs h hpaths hpatterns ha
    have hspelledb := isSpelled_of_mem_resolveInputs h hpaths hpatterns hb
    exact hspelleda.symm.trans (heq.trans hspelledb)

end Distinct

theorem isSound_tokenTree : tokenTree.IsSound := by
  decide +kernel

/-- A directory, a file of it, and a pattern for the same file. -/
theorem resolveInputs_areDistinct_of_tokenTree :
    ∃ paths, resolveInputs tokenTree defaultPattern ["a", "a/./Token.json", "*/Token.json"] =
      .ok paths ∧ paths = ["a/Token.json", "b/Token.json"] ∧ AreDistinct paths := by
  have hpaths : resolveInputs tokenTree defaultPattern ["a", "a/./Token.json", "*/Token.json"] =
      .ok ["a/Token.json", "b/Token.json"] :=
    toOption_eq_some_iff.mp (by decide +kernel)
  have hpatterns : ∀ input ∈ ["a", "a/./Token.json", "*/Token.json"],
      IsPatternInput tokenTree input → IsSpelled input ∧ (ofText input).name ≠ "**" := by
    decide +kernel
  exact ⟨_, hpaths, rfl, (resolveInputs_areDistinct_iff isSound_tokenTree hpaths).2.2 hpatterns⟩

/-- The file is named once directly and once by a pattern with a dot in front. -/
theorem resolveInputs_not_areDistinct_of_tokenTree :
    resolveInputs tokenTree defaultPattern ["a/Token.json", "./a/*.json"] =
        .ok ["./a/Token.json", "a/Token.json"] ∧
      ¬ AreDistinct ["./a/Token.json", "a/Token.json"] :=
  ⟨toOption_eq_some_iff.mp (by decide +kernel), by decide⟩

end AbiTypings.Run
