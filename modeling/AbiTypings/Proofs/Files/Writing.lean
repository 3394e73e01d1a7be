import AbiTypings.Files.Tree
import AbiTypings.Proofs.Files.Paths
import AbiTypings.Proofs.Outcome

/-!
# What writing leaves alone

Making directories adds directories and nothing else. Writing a file changes what its path leads
to and nothing else. Directories stay in both, so a path that can be followed before can be
followed afterwards, and leads to the same place.
-/

namespace AbiTypings.FileTree

open Outcome AbiTypings.Path

variable {t t' t'' : FileTree} {p : Path} {name : String} {dir : Location}

/-! ## Places -/

theorem entryAt_put_self {loc : Location} (hne : loc ≠ []) (e : FileEntry) :
    (t.put loc e).entryAt loc = some e := by
  rw [entryAt, if_neg hne, put, lookup_replace_self]

theorem isDirectoryAt_iff {loc : Location} :
    t.isDirectoryAt loc = true ↔ t.entryAt loc = some .directory := by
  unfold isDirectoryAt
  split <;> simp_all

theorem readFile_eq_ok_iff {t : FileTree} {path : String} {bytes : ByteArray} :
    t.readFile path = .ok bytes ↔
      ∃ loc, t.locate path = .ok loc ∧ t.entryAt loc = some (.file bytes) := by
  rw [readFile, bind_eq_ok_iff]
  refine exists_congr fun loc ↦ and_congr_right fun _ ↦ ?_
  split <;> simp_all [pure, Except.pure]

/-! ## Trees that lose nothing -/

/-- What is there stays there, and directories stay directories. -/
structure Keeps (t t' : FileTree) : Prop where
  workDir : t'.workDir = t.workDir
  directories : ∀ loc, t.isDirectoryAt loc = true → t'.isDirectoryAt loc = true
  places : ∀ loc, (t.entryAt loc).isSome = true → (t'.entryAt loc).isSome = true

theorem Keeps.walk_eq_ok (h : t.Keeps t') {pieces : List String} {loc place : Location}
    (hwalk : t.walk loc pieces = .ok place) : t'.walk loc pieces = .ok place := by
  induction pieces generalizing loc with
  | nil => exact hwalk
  | cons piece rest ih =>
      rw [walk] at hwalk ⊢
      split_ifs at hwalk with hdir hskip hup hlong hsome
      all_goals
        have hdir' : t'.isDirectoryAt loc = true := h.directories loc (by simpa using hdir)
        rw [hdir', Bool.not_true, if_neg Bool.false_ne_true]
      · rw [if_pos hskip]
        exact ih hwalk
      · rw [if_neg hskip, if_pos hup]
        exact ih hwalk
      · rw [if_neg hskip, if_neg hup, if_neg hlong, if_pos (h.places _ hsome)]
        exact ih hwalk

theorem Keeps.startOf_eq (h : t.Keeps t') (path : String) : t'.startOf path = t.startOf path := by
  rw [startOf, startOf, h.workDir]

theorem Keeps.locate_eq_ok (h : t.Keeps t') {path : String} {place : Location}
    (hlocate : t.locate path = .ok place) : t'.locate path = .ok place := by
  obtain ⟨_, hcheck, hwalk⟩ := bind_eq_ok_iff.mp hlocate
  rw [mapError_eq_ok_iff] at hwalk
  refine bind_eq_ok_iff.mpr ⟨_, hcheck, mapError_eq_ok_iff.mpr ?_⟩
  rw [h.startOf_eq]
  exact h.walk_eq_ok hwalk

/-! ## Trees that differ in some files -/

/-- At each place there is what was there before, or a new directory, or, if the place is one of
those that are allowed, a file where no directory was. -/
structure DiffersAt (allowed : Location → Prop) (t t' : FileTree) : Prop where
  workDir : t'.workDir = t.workDir
  entries : ∀ loc, t'.entryAt loc = t.entryAt loc ∨
    (t.entryAt loc = none ∧ t'.entryAt loc = some .directory) ∨
      (allowed loc ∧ t.isDirectoryAt loc = false ∧ t'.isFileAt loc = true)

variable {allowed more : Location → Prop}

theorem DiffersAt.refl (allowed : Location → Prop) (t : FileTree) : t.DiffersAt allowed t where
  workDir := rfl
  entries _ := Or.inl rfl

theorem DiffersAt.mono (h : t.DiffersAt allowed t') (himp : ∀ loc, allowed loc → more loc) :
    t.DiffersAt more t' where
  workDir := h.workDir
  entries loc := (h.entries loc).imp_right <| Or.imp_right fun hfile ↦
    ⟨himp loc hfile.1, hfile.2⟩

theorem DiffersAt.keeps (h : t.DiffersAt allowed t') : t.Keeps t' where
  workDir := h.workDir
  directories loc hdir := by
    rw [isDirectoryAt_iff] at hdir ⊢
    rcases h.entries loc with hsame | ⟨hnone, _⟩ | ⟨_, hfile, _⟩
    · rw [hsame, hdir]
    · rw [hnone] at hdir
      cases hdir
    · rw [isDirectoryAt_iff.mpr hdir] at hfile
      cases hfile
  places loc hsome := by
    rcases h.entries loc with hsame | ⟨_, hnew⟩ | ⟨_, _, hfile⟩
    · rwa [hsame]
    · rw [hnew]
      rfl
    · unfold isFileAt at hfile
      split at hfile <;> simp_all

theorem DiffersAt.trans (h : t.DiffersAt allowed t') (h' : t'.DiffersAt allowed t'') :
    t.DiffersAt allowed t'' where
  workDir := h'.workDir.trans h.workDir
  entries loc := by
    rcases h'.entries loc with hsame | ⟨hnone, hnew⟩ | ⟨hallowed, hdir, hfile⟩
    · rw [isFileAt, hsame]
      exact h.entries loc
    · rcases h.entries loc with hsame | ⟨_, hmade⟩ | ⟨_, _, hfile⟩
      · exact Or.inr (Or.inl ⟨hsame ▸ hnone, hnew⟩)
      · rw [hmade] at hnone
        cases hnone
      · simp [isFileAt, hnone] at hfile
    · refine Or.inr (Or.inr ⟨hallowed, ?_, hfile⟩)
      by_contra hwas
      rw [h.keeps.directories loc (by simpa using hwas)] at hdir
      cases hdir

/-- A file that is not at one of the places is left alone. -/
theorem DiffersAt.entryAt_of_file (h : t.DiffersAt allowed t') {loc : Location}
    (hloc : ¬ allowed loc) {bytes : ByteArray} (hfile : t.entryAt loc = some (.file bytes)) :
    t'.entryAt loc = some (.file bytes) := by
  rcases h.entries loc with hsame | ⟨hnone, _⟩ | ⟨hallowed, _⟩
  · rw [hsame, hfile]
  · rw [hnone] at hfile
    cases hfile
  · exact absurd hallowed hloc

/-- A place where no file was put has the files that it had. -/
theorem DiffersAt.entryAt_file_iff (h : t.DiffersAt allowed t') {loc : Location}
    (hloc : ¬ allowed loc) {bytes : ByteArray} :
    t'.entryAt loc = some (.file bytes) ↔ t.entryAt loc = some (.file bytes) := by
  refine ⟨fun hfile ↦ ?_, h.entryAt_of_file hloc⟩
  rcases h.entries loc with hsame | ⟨_, hnew⟩ | ⟨hallowed, _⟩
  · rw [← hsame, hfile]
  · rw [hnew] at hfile
    cases hfile
  · exact absurd hallowed hloc

theorem differsAt_put {loc : Location} (hne : loc ≠ []) {e : FileEntry}
    (h : (e = .directory ∧ t.entryAt loc = none) ∨
      (allowed loc ∧ t.isDirectoryAt loc = false ∧ ∃ bytes, e = .file bytes)) :
    t.DiffersAt allowed (t.put loc e) where
  workDir := rfl
  entries other := by
    by_cases hother : other = loc
    · subst hother
      rw [isFileAt, entryAt_put_self hne]
      rcases h with ⟨rfl, hnone⟩ | ⟨hallowed, hdir, bytes, rfl⟩
      · exact Or.inr (Or.inl ⟨hnone, rfl⟩)
      · exact Or.inr (Or.inr ⟨hallowed, hdir, rfl⟩)
    · exact Or.inl (entryAt_put_ne t hother e)

/-! ## Making directories -/

theorem differsAt_makeDirectory (h : t.makeDirectory p = .ok t') : t.DiffersAt allowed t' := by
  obtain ⟨loc, _, hmake⟩ := bind_eq_ok_iff.mp h
  dsimp only at hmake
  split_ifs at hmake with _ _ hsome
  obtain rfl := Except.ok.inj hmake
  exact differsAt_put (by simp) (Or.inl ⟨rfl, by simpa using hsome⟩)

theorem differsAt_makeDirectories (t : FileTree) (anchor : Anchor) (parts : List String) :
    t.DiffersAt allowed (Storage.makeDirectories t anchor parts).1 :=
  Storage.makeDirectories_of_makeDirectory
    (fun _ hmake h ↦ h.trans (differsAt_makeDirectory hmake)) (.refl allowed t)

/-! ## Where the text of a path leads -/

theorem startOf_text (t : FileTree) (hp : p.IsNormal) :
    t.startOf p.text = if p.anchor = .relative then t.workDir else [] := by
  have hanchor := anchorOf_eq_relative_iff p.text.toList
  rw [anchorOf_text hp] at hanchor
  unfold startOf
  split_ifs <;> simp_all

theorem walk_append {loc place : Location} {a : List String} (h : t.walk loc a = .ok place)
    (b : List String) : t.walk loc (a ++ b) = t.walk place b := by
  induction a generalizing loc with
  | nil => rw [Except.ok.inj h, List.nil_append]
  | cons piece rest ih =>
      rw [walk] at h
      rw [List.cons_append, walk]
      split_ifs at h ⊢ <;> exact ih h

theorem walk_replicate_empty {loc : Location} (h : t.isDirectoryAt loc = true) (n : Nat)
    (pieces : List String) : t.walk loc (List.replicate n "" ++ pieces) = t.walk loc pieces := by
  have hempty : isPart "" = false := by decide
  induction n with
  | zero => rfl
  | succ n ih => rw [List.replicate_succ, List.cons_append, walk, h, hempty]; exact ih

theorem walk_pieces_text (t : FileTree) (hp : p.IsNormal) (hne : p.parts ≠ []) :
    t.walk (t.startOf p.text) (pieces p.text) = t.walk (t.startOf p.text) p.parts := by
  rw [pieces_text hp hne, startOf_text t hp]
  split_ifs with hanchor
  · rw [hanchor]
    rfl
  · exact walk_replicate_empty rfl _ _

theorem checkPath_eq_ok_iff {path : String} : checkPath path = .ok () ↔
    '\x00' ∉ path.toList ∧ path ≠ "" ∧ path.utf8ByteSize ≤ maxPathBytes := by
  unfold checkPath
  split_ifs <;> simp_all

/-- A path can be used if one of its children can. -/
theorem checkPath_text_of_child (hp : p.IsNormal)
    (h : checkPath (p.child name).text = .ok ()) : checkPath p.text = .ok () := by
  by_cases hparts : p.parts = []
  · obtain ⟨anchor, parts⟩ := p
    obtain rfl : parts = [] := hparts
    cases anchor <;> decide
  · rw [text_child, if_neg hparts, checkPath_eq_ok_iff, String.toList_append,
      String.toList_append, String.utf8ByteSize_append, String.utf8ByteSize_append] at h
    obtain ⟨hnul, _, hsize⟩ := h
    refine checkPath_eq_ok_iff.mpr ⟨fun hmem ↦ hnul ?_, text_ne_empty hp, by omega⟩
    exact List.mem_append_left _ (List.mem_append_left _ hmem)

theorem locateParent_eq_ok_iff {loc : Location} : t.locateParent p = .ok loc ↔
    checkPath p.text = .ok () ∧ t.walk (t.startOf p.text) p.parts.dropLast = .ok loc ∧
      t.isDirectoryAt loc = true := by
  rw [locateParent, bind_eq_ok_iff]
  simp only [bind_eq_ok_iff, mapError_eq_ok_iff, pure, Except.pure]
  constructor
  · rintro ⟨_, hcheck, place, hwalk, hplace⟩
    split_ifs at hplace with hdir
    obtain rfl := Except.ok.inj hplace
    exact ⟨hcheck, hwalk, hdir⟩
  · rintro ⟨hcheck, hwalk, hdir⟩
    exact ⟨(), hcheck, loc, hwalk, if_pos hdir⟩

section Child

variable (hp : p.IsNormal) (hname : IsProper name)
  (h : t.locateParent (p.child name) = .ok dir)

include hp hname h

theorem walk_of_locateParent_child :
    t.walk (t.startOf p.text) p.parts = .ok dir ∧ t.isDirectoryAt dir = true := by
  obtain ⟨_, hwalk, hdir⟩ := locateParent_eq_ok_iff.mp h
  have hparts : (p.child name).parts.dropLast = p.parts := by simp [child]
  rw [startOf_text t (isNormal_child hp hname), hparts] at hwalk
  rw [startOf_text t hp]
  exact ⟨hwalk, hdir⟩

/-- The directory of a file is where the path of the directory leads. -/
theorem locate_of_locateParent_child : t.locate p.text = .ok dir := by
  obtain ⟨hwalk, hdir⟩ := walk_of_locateParent_child hp hname h
  have hcheck := checkPath_text_of_child hp (locateParent_eq_ok_iff.mp h).1
  refine bind_eq_ok_iff.mpr ⟨(), hcheck, mapError_eq_ok_iff.mpr ?_⟩
  by_cases hparts : p.parts = []
  · have hdot : isPart "." = false := by decide
    rw [hparts] at hwalk
    obtain rfl := Except.ok.inj hwalk
    rw [startOf_text t hp] at hdir ⊢
    obtain ⟨anchor, parts⟩ := p
    obtain rfl : parts = [] := hparts
    cases anchor with
    | relative =>
        have hpieces : pieces (Path.text ⟨.relative, []⟩) = ["."] := by decide
        simp only [if_pos] at hdir ⊢
        rw [hpieces, walk, hdir, hdot]
        rfl
    | root => rfl
    | doubleRoot => rfl
  · rw [walk_pieces_text t hp hparts]
    exact hwalk

/-- A file is where its path leads. -/
theorem locate_child_of_locateParent (hup : name ≠ "..")
    (hsize : name.utf8ByteSize ≤ maxNameBytes)
    (hsome : (t.entryAt (dir ++ [name])).isSome = true) :
    t.locate (p.child name).text = .ok (dir ++ [name]) := by
  obtain ⟨hwalk, hdir⟩ := walk_of_locateParent_child hp hname h
  have hchild := isNormal_child hp hname
  have hparts : (p.child name).parts = p.parts ++ [name] := rfl
  refine bind_eq_ok_iff.mpr ⟨(), (locateParent_eq_ok_iff.mp h).1, mapError_eq_ok_iff.mpr ?_⟩
  rw [walk_pieces_text t hchild (by simp [hparts]), startOf_text t hchild, hparts]
  rw [startOf_text t hp] at hwalk
  have hstep : t.walk dir [name] = .ok (dir ++ [name]) := by
    rw [walk, hdir, hname.1]
    simp [hup, Nat.not_lt.mpr hsize, hsome, walk]
  exact (walk_append hwalk [name]).trans hstep

end Child

/-! ## Writing a file -/

/-- Writing a file of a directory: the directory is where its path leads, the file is a new one
in it or takes the place of one, and nothing else changes. -/
theorem writeFile_child_eq_ok (hp : p.IsNormal) (hname : IsProper name) (hup : name ≠ "..")
    {bytes : ByteArray} (h : t.writeFile (p.child name) bytes = .ok t') :
    ∃ dir, t'.locate p.text = .ok dir ∧ t'.locate (p.child name).text = .ok (dir ++ [name]) ∧
      t'.entryAt (dir ++ [name]) = some (.file bytes) ∧
      t.DiffersAt (· = dir ++ [name]) t' := by
  obtain ⟨dir, hparent, hwrite⟩ := bind_eq_ok_iff.mp h
  dsimp only at hwrite
  rw [name_child] at hwrite
  split_ifs at hwrite with hsize hdir
  obtain rfl := Except.ok.inj hwrite
  have hne : dir ++ [name] ≠ [] := by simp
  have hdiffers : t.DiffersAt (· = dir ++ [name]) (t.put (dir ++ [name]) (.file bytes)) :=
    differsAt_put hne (Or.inr ⟨rfl, by simpa using hdir, bytes, rfl⟩)
  -- The directory is found in the new tree as it was in the old one.
  have hparent' : (t.put (dir ++ [name]) (.file bytes)).locateParent (p.child name) = .ok dir := by
    obtain ⟨hcheck, hwalk, hplace⟩ := locateParent_eq_ok_iff.mp hparent
    refine locateParent_eq_ok_iff.mpr ⟨hcheck, ?_, hdiffers.keeps.directories dir hplace⟩
    rw [hdiffers.keeps.startOf_eq]
    exact hdiffers.keeps.walk_eq_ok hwalk
  have hentry := entryAt_put_self (t := t) hne (.file bytes)
  refine ⟨dir, locate_of_locateParent_child hp hname hparent', ?_, hentry, hdiffers⟩
  exact locate_child_of_locateParent hp hname hparent' hup (Nat.not_lt.mp hsize) (by simp [hentry])

end AbiTypings.FileTree
