import AbiTypings.Proofs.Files.Trees

/-!
# Writing what is there

Making a directory that is there, or writing a file with the contents that it has, succeeds and
leaves the tree as it is, down to the order of its list.
-/

namespace AbiTypings.FileTree

open Outcome AbiTypings.Path

variable {t : FileTree} {p : Path} {name : String} {dir loc place : Location} {e : FileEntry}

theorem replace_eq_self {es : List (Location × FileEntry)} (h : lookup loc es = some e) :
    replace loc e es = es := by
  induction es with
  | nil => cases h
  | cons x rest ih =>
      obtain ⟨l, old⟩ := x
      rw [lookup] at h
      rw [replace]
      split_ifs at h ⊢ with hl
      · rw [Option.some.inj h]
      · rw [ih h]

theorem put_eq_self (hne : loc ≠ []) (h : t.entryAt loc = some e) : t.put loc e = t := by
  rw [entryAt, if_neg hne] at h
  rw [put, replace_eq_self h]

/-! ## The last step of a path -/

theorem exists_walk_of_append {a b : List String} (h : t.walk loc (a ++ b) = .ok place) :
    ∃ mid, t.walk loc a = .ok mid ∧ t.walk mid b = .ok place := by
  induction a generalizing loc with
  | nil => exact ⟨loc, rfl, h⟩
  | cons piece rest ih =>
      rw [List.cons_append, walk] at h
      rw [walk]
      split_ifs at h ⊢ <;> exact ih h

/-- A name is followed up, or to a place that is there. -/
theorem of_walk_name (hname : isPart name = true) (h : t.walk loc [name] = .ok place) :
    t.isDirectoryAt loc = true ∧ (name = ".." ∨ (name ≠ ".." ∧ name.utf8ByteSize ≤ maxNameBytes ∧
      (t.entryAt (loc ++ [name])).isSome = true ∧ place = loc ++ [name])) := by
  simp only [walk, hname, Bool.not_true, Bool.false_eq_true, if_false] at h
  split_ifs at h with hdir hup hlong hsome
  · exact ⟨by simpa using hdir, Or.inl hup⟩
  · exact ⟨by simpa using hdir, Or.inr ⟨hup, Nat.not_lt.mp hlong, hsome, (Except.ok.inj h).symm⟩⟩

/-- What is found at the path of a child stands in the directory that the path leads to. -/
theorem exists_locateParent_of_locate (hp : p.IsNormal) (hname : IsProper name)
    (h : t.locate (p.child name).text = .ok place) :
    ∃ dir, t.locateParent (p.child name) = .ok dir ∧ (name = ".." ∨
      (name ≠ ".." ∧ name.utf8ByteSize ≤ maxNameBytes ∧
        (t.entryAt (dir ++ [name])).isSome = true ∧ place = dir ++ [name])) := by
  have hwalk := walk_parts_of_locate (isNormal_child hp hname) h
  have hparts : (p.child name).parts = p.parts ++ [name] := rfl
  rw [hparts] at hwalk
  obtain ⟨dir, hfront, hlast⟩ := exists_walk_of_append hwalk
  obtain ⟨hdir, hplace⟩ := of_walk_name hname.1 hlast
  refine ⟨dir, locateParent_eq_ok_iff.mpr ⟨(locate_eq_ok_iff.mp h).1, ?_, hdir⟩, hplace⟩
  rwa [hparts, List.dropLast_concat]

/-! ## Directories and files that are there -/

theorem makeDirectory_of_locate (hp : p.IsNormal) (hne : p.parts ≠ [])
    (h : t.locate p.text = .ok dir) : t.makeDirectory p = .error (.file .present) := by
  have hproper := isProper_name hp hne
  rw [← child_parent hne] at h ⊢
  obtain ⟨above, hparent, hplace⟩ := exists_locateParent_of_locate (isNormal_parent hp) hproper h
  refine bind_eq_error_iff.mpr (Or.inr ⟨above, hparent, ?_⟩)
  dsimp only
  rw [name_child]
  rcases hplace with hup | ⟨hup, hsize, hsome, _⟩
  · rw [if_pos (Or.inr hup)]
  · rw [if_neg (by simp [child, hup]), if_neg (Nat.not_lt.mpr hsize), if_pos hsome]

theorem makeDirectories_eq_self (hp : p.IsNormal) (h : t.locate p.text = .ok dir)
    (hdir : t.isDirectoryAt dir = true) :
    Storage.makeDirectories t p.anchor p.parts.reverse = (t, .ok ()) := by
  by_cases hne : p.parts = []
  · rw [hne]
    rfl
  · obtain ⟨last, above, hparts⟩ := List.exists_cons_of_ne_nil (List.reverse_ne_nil_iff.mpr hne)
    have hself : (⟨p.anchor, (last :: above).reverse⟩ : Path) = p := by
      rw [← hparts, List.reverse_reverse]
    have hthere := isDirectory_eq_ok_true_iff.mpr ⟨dir, h, hdir⟩
    rw [hparts, Storage.makeDirectories]
    simp only [hself, storage_makeDirectory, makeDirectory_of_locate hp hne h,
      Storage.acceptPresent, storage_isDirectory, hthere]

theorem writeFile_eq_self (hp : p.IsNormal) (hname : IsProper name) (hup : name ≠ "..")
    {bytes : ByteArray} (h : t.readFile (p.child name).text = .ok bytes) :
    t.writeFile (p.child name) bytes = .ok t ∧
      ∃ dir, t.locate p.text = .ok dir ∧ t.isDirectoryAt dir = true := by
  obtain ⟨place, hlocate, hentry⟩ := readFile_eq_ok_iff.mp h
  obtain ⟨dir, hparent, hplace⟩ := exists_locateParent_of_locate hp hname hlocate
  obtain ⟨_, hsize, _, rfl⟩ := hplace.resolve_left hup
  refine ⟨bind_eq_ok_iff.mpr ⟨dir, hparent, ?_⟩, dir,
    locate_of_locateParent_child hp hname hparent, (locateParent_eq_ok_iff.mp hparent).2.2⟩
  dsimp only
  rw [name_child, if_neg (Nat.not_lt.mpr hsize), isDirectoryAt, hentry,
    put_eq_self (by simp) hentry]
  rfl

end AbiTypings.FileTree
