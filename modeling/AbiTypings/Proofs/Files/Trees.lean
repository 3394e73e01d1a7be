import AbiTypings.Proofs.Files.Writing
import Mathlib.Data.List.Induction
import Mathlib.Data.List.Nodup

/-!
# Sound trees

In a sound tree each place is listed once, has a name that a directory can hold, and stands in a
directory. What lies below a directory can then be read off the list, and the way down to it can
be followed by its names. Making directories and writing files keep a tree sound.
-/

namespace AbiTypings.FileTree

open Outcome AbiTypings.Path

/-- A name that a directory can hold. -/
structure IsEntryName (name : String) : Prop where
  proper : IsProper name
  ne_up : name ≠ ".."
  noNul : '\x00' ∉ name.toList
  size_le : name.utf8ByteSize ≤ maxNameBytes

structure IsSound (t : FileTree) : Prop where
  names : ∀ x ∈ t.entries, ∀ name ∈ x.1, IsEntryName name
  nodup : (t.entries.map Prod.fst).Nodup
  parents : ∀ x ∈ t.entries, t.isDirectoryAt x.1.dropLast = true

instance (name : String) : Decidable (IsEntryName name) :=
  decidable_of_iff (IsProper name ∧ name ≠ ".." ∧ '\x00' ∉ name.toList ∧
      name.utf8ByteSize ≤ maxNameBytes)
    ⟨fun ⟨hproper, hup, hnul, hsize⟩ ↦ ⟨hproper, hup, hnul, hsize⟩,
      fun ⟨hproper, hup, hnul, hsize⟩ ↦ ⟨hproper, hup, hnul, hsize⟩⟩

instance (t : FileTree) : Decidable t.IsSound :=
  decidable_of_iff ((∀ x ∈ t.entries, ∀ name ∈ x.1, IsEntryName name) ∧
      (t.entries.map Prod.fst).Nodup ∧ ∀ x ∈ t.entries, t.isDirectoryAt x.1.dropLast = true)
    ⟨fun ⟨hnames, hnodup, hparents⟩ ↦ ⟨hnames, hnodup, hparents⟩,
      fun ⟨hnames, hnodup, hparents⟩ ↦ ⟨hnames, hnodup, hparents⟩⟩

variable {t t' : FileTree} {p : Path} {name : String} {dir loc : Location}
  {names : List String} {path : String} {e : FileEntry}

/-! ## Places and the list of entries -/

theorem isFileAt_iff : t.isFileAt loc = true ↔ ∃ bytes, t.entryAt loc = some (.file bytes) := by
  unfold isFileAt
  split <;> simp_all

theorem isSome_of_isFileAt (h : t.isFileAt loc = true) : (t.entryAt loc).isSome = true := by
  obtain ⟨bytes, hentry⟩ := isFileAt_iff.mp h
  rw [hentry]
  rfl

theorem isSome_of_isDirectoryAt (h : t.isDirectoryAt loc = true) :
    (t.entryAt loc).isSome = true := by
  rw [isDirectoryAt_iff.mp h]
  rfl

theorem mem_of_lookup {es : List (Location × FileEntry)} (h : lookup loc es = some e) :
    (loc, e) ∈ es := by
  induction es with
  | nil => cases h
  | cons x rest ih =>
      obtain ⟨l, old⟩ := x
      rw [lookup] at h
      split_ifs at h with hl
      · obtain rfl := Option.some.inj h
        exact hl ▸ List.mem_cons_self
      · exact List.mem_cons_of_mem _ (ih h)

theorem lookup_of_mem {es : List (Location × FileEntry)} (hnodup : (es.map Prod.fst).Nodup)
    (h : (loc, e) ∈ es) : lookup loc es = some e := by
  induction es with
  | nil => cases h
  | cons x rest ih =>
      obtain ⟨l, old⟩ := x
      obtain ⟨hnew, hrest⟩ := List.nodup_cons.mp hnodup
      rw [lookup]
      rcases List.mem_cons.mp h with heq | h
      · obtain ⟨rfl, rfl⟩ := Prod.mk.inj heq
        exact if_pos rfl
      · rw [if_neg, ih hrest h]
        rintro rfl
        exact hnew (List.mem_map.mpr ⟨(l, e), h, rfl⟩)

theorem childName?_eq_some_iff {other : Location} :
    childName? loc other = some name ↔ other = loc ++ [name] := by
  unfold childName?
  constructor
  · intro h
    split_ifs at h with hother
    obtain ⟨hne, rfl⟩ := hother
    obtain ⟨front, rfl⟩ := List.getLast?_eq_some_iff.mp h
    rw [List.dropLast_concat]
  · rintro rfl
    simp

theorem below?_eq_some_iff {other : Location} :
    below? loc other = some names ↔ names ≠ [] ∧ other = loc ++ names := by
  unfold below?
  constructor
  · intro h
    split_ifs at h with hother
    obtain ⟨hlength, htake⟩ := hother
    obtain rfl := Option.some.inj h
    refine ⟨fun hnil ↦ Nat.not_le.mpr hlength (List.drop_eq_nil_iff.mp hnil), ?_⟩
    exact (List.take_append_drop loc.length other).symm.trans (by rw [htake])
  · rintro ⟨hne, rfl⟩
    have hlength := List.length_pos_iff.mpr hne
    simp [hlength]

namespace IsSound

theorem entryAt_eq_some_iff (h : t.IsSound) (hne : loc ≠ []) :
    t.entryAt loc = some e ↔ (loc, e) ∈ t.entries := by
  rw [entryAt, if_neg hne]
  exact ⟨mem_of_lookup, lookup_of_mem h.nodup⟩

theorem exists_mem_entries (h : t.IsSound) (hne : loc ≠ [])
    (hsome : (t.entryAt loc).isSome = true) : ∃ e, (loc, e) ∈ t.entries := by
  obtain ⟨e, he⟩ := Option.isSome_iff_exists.mp hsome
  exact ⟨e, (h.entryAt_eq_some_iff hne).mp he⟩

theorem isEntryName (h : t.IsSound) (hsome : (t.entryAt loc).isSome = true)
    (hname : name ∈ loc) : IsEntryName name := by
  obtain ⟨e, he⟩ := h.exists_mem_entries (List.ne_nil_of_mem hname) hsome
  exact h.names _ he name hname

/-- What is above a place is a directory. -/
theorem isDirectoryAt_of_append (h : t.IsSound) (hne : names ≠ [])
    (hsome : (t.entryAt (loc ++ names)).isSome = true) : t.isDirectoryAt loc = true := by
  induction names using List.reverseRecOn with
  | nil => exact absurd rfl hne
  | append_singleton front name ih =>
      obtain ⟨e, he⟩ := h.exists_mem_entries (by simp) hsome
      have hparent := h.parents _ he
      rw [← List.append_assoc, List.dropLast_concat] at hparent
      cases front with
      | nil => simpa using hparent
      | cons first rest =>
          exact ih (List.cons_ne_nil first rest) (isSome_of_isDirectoryAt hparent)

theorem mem_namesIn_iff (h : t.IsSound) :
    name ∈ t.namesIn loc ↔ (t.entryAt (loc ++ [name])).isSome = true := by
  rw [namesIn, List.mem_filterMap]
  constructor
  · rintro ⟨⟨l, e⟩, he, hchild⟩
    obtain rfl := childName?_eq_some_iff.mp hchild
    rw [(h.entryAt_eq_some_iff (by simp)).mpr he]
    rfl
  · intro hsome
    obtain ⟨e, he⟩ := h.exists_mem_entries (by simp) hsome
    exact ⟨_, he, childName?_eq_some_iff.mpr rfl⟩

theorem mem_below_iff (h : t.IsSound) :
    (names, e) ∈ t.below loc ↔ names ≠ [] ∧ t.entryAt (loc ++ names) = some e := by
  rw [below, List.mem_filterMap]
  constructor
  · rintro ⟨⟨l, e'⟩, he, hbelow⟩
    obtain ⟨way, hway, heq⟩ := Option.map_eq_some_iff.mp hbelow
    obtain ⟨rfl, rfl⟩ := Prod.mk.inj heq
    obtain ⟨hne, rfl⟩ := below?_eq_some_iff.mp hway
    exact ⟨hne, (h.entryAt_eq_some_iff (by simp [hne])).mpr he⟩
  · rintro ⟨hne, hentry⟩
    refine ⟨_, (h.entryAt_eq_some_iff (by simp [hne])).mp hentry, ?_⟩
    exact Option.map_eq_some_iff.mpr ⟨names, below?_eq_some_iff.mpr ⟨hne, rfl⟩, rfl⟩

end IsSound

/-! ## The way down -/

theorem IsSound.walk_names (h : t.IsSound) (hsome : (t.entryAt (dir ++ names)).isSome = true) :
    t.walk dir names = .ok (dir ++ names) := by
  induction names generalizing dir with
  | nil => rw [walk, List.append_nil]
  | cons name rest ih =>
      have hrest : dir ++ name :: rest = (dir ++ [name]) ++ rest := by simp
      rw [hrest] at hsome ⊢
      have hname : IsEntryName name := h.isEntryName hsome (by simp)
      have hplace : (t.entryAt (dir ++ [name])).isSome = true := by
        cases rest with
        | nil => simpa using hsome
        | cons next more =>
            have hdir := h.isDirectoryAt_of_append (List.cons_ne_nil next more) hsome
            exact isSome_of_isDirectoryAt hdir
      have hdir := h.isDirectoryAt_of_append (List.cons_ne_nil name []) hplace
      rw [walk, hdir, hname.proper.1, if_neg (by simp), if_neg (by simp), if_neg hname.ne_up,
        if_neg (Nat.not_lt.mpr hname.size_le), if_pos hplace]
      exact ih hsome

theorem locate_eq_ok_iff : t.locate path = .ok loc ↔
    checkPath path = .ok () ∧ t.walk (t.startOf path) (pieces path) = .ok loc := by
  rw [locate, bind_eq_ok_iff]
  simp only [mapError_eq_ok_iff]
  exact ⟨fun ⟨_, hcheck, hwalk⟩ ↦ ⟨hcheck, hwalk⟩, fun ⟨hcheck, hwalk⟩ ↦ ⟨(), hcheck, hwalk⟩⟩

theorem eq_of_walk_skipped {skipped : List String} (hskipped : ∀ s ∈ skipped, isPart s = false)
    (h : t.walk dir skipped = .ok loc) : loc = dir := by
  induction skipped with
  | nil => exact (Except.ok.inj h).symm
  | cons piece rest ih =>
      rw [walk, hskipped piece List.mem_cons_self, Bool.not_false, if_pos rfl] at h
      split_ifs at h
      exact ih (fun s hs ↦ hskipped s (List.mem_cons_of_mem piece hs)) h

theorem isDirectory_eq_ok_true_iff : t.isDirectory path = .ok true ↔
    ∃ loc, t.locate path = .ok loc ∧ t.isDirectoryAt loc = true := by
  unfold isDirectory status
  cases hlocate : t.locate path with
  | ok loc =>
      simp only [Except.ok.injEq, exists_eq_left', map_eq_ok_iff, isDirectoryAt]
  | error fault =>
      simp only [reduceCtorEq, false_and, exists_false, iff_false]
      split <;> simp_all [Functor.map, Except.map]

theorem Keeps.isDirectory_eq_ok_true (h : t.Keeps t') (hdir : t.isDirectory path = .ok true) :
    t'.isDirectory path = .ok true := by
  obtain ⟨loc, hlocate, hplace⟩ := isDirectory_eq_ok_true_iff.mp hdir
  exact isDirectory_eq_ok_true_iff.mpr
    ⟨loc, h.locate_eq_ok hlocate, h.directories loc hplace⟩

/-- Following the text of a path is following its parts. -/
theorem walk_parts_of_locate (hp : p.IsNormal) (h : t.locate p.text = .ok dir) :
    t.walk (t.startOf p.text) p.parts = .ok dir := by
  obtain ⟨_, hwalk⟩ := locate_eq_ok_iff.mp h
  by_cases hne : p.parts = []
  · obtain ⟨anchor, parts⟩ := p
    obtain rfl : parts = [] := hne
    rw [eq_of_walk_skipped (by cases anchor <;> decide) hwalk]
    rfl
  · rwa [walk_pieces_text t hp hne] at hwalk

/-! ## Paths below a directory -/

/-- The path is longer than the system takes. -/
def IsOverlong (p : Path) : Prop := maxPathBytes < p.text.utf8ByteSize

instance (p : Path) : Decidable (IsOverlong p) :=
  inferInstanceAs (Decidable (maxPathBytes < p.text.utf8ByteSize))

theorem not_isOverlong_of_locate (h : t.locate p.text = .ok dir) : ¬ IsOverlong p :=
  Nat.not_lt.mpr (checkPath_eq_ok_iff.mp (locate_eq_ok_iff.mp h).1).2.2

theorem notMem_text_below (hp : '\x00' ∉ p.text.toList)
    (hnames : ∀ name ∈ names, IsEntryName name) : '\x00' ∉ (p.below names).text.toList := by
  induction names using List.reverseRecOn with
  | nil => rwa [below_nil]
  | append_singleton front name ih =>
      have hfront := ih fun s hs ↦ hnames s (List.mem_append_left _ hs)
      have hname := (hnames name (by simp)).noNul
      have hslash : '\x00' ∉ "/".toList := by decide
      have hanchor : '\x00' ∉ (p.below front).anchor.text.toList := by
        cases (p.below front).anchor <;> decide
      rw [below_concat, text_child]
      split_ifs <;> simp only [String.toList_append, List.mem_append, not_or, and_self, *] <;>
        trivial

section Below

variable (hp : p.IsNormal) (hdir : t.locate p.text = .ok dir) (h : t.IsSound)
  (hsome : (t.entryAt (dir ++ names)).isSome = true)

include hp hdir h hsome

/-- A path below a directory leads where its names lead, unless it is too long to be used. -/
theorem locate_below : t.locate (p.below names).text =
    if IsOverlong (p.below names) then .error (.file .nameTooLong) else .ok (dir ++ names) := by
  obtain ⟨hnul, _⟩ := checkPath_eq_ok_iff.mp (locate_eq_ok_iff.mp hdir).1
  have hnames : ∀ name ∈ names, IsEntryName name := fun name hname ↦
    h.isEntryName hsome (List.mem_append_right dir hname)
  have hnormal := isNormal_below hp fun name hname ↦ (hnames name hname).proper
  have hnul' := notMem_text_below hnul hnames
  have hempty' := text_ne_empty hnormal
  split_ifs with hlong
  · have hcheck' : checkPath (p.below names).text = .error (.file .nameTooLong) := by
      rw [checkPath, if_neg (by simpa using hnul'), if_neg (by simpa using hempty')]
      exact if_pos hlong
    rw [locate, hcheck']
    rfl
  · refine locate_eq_ok_iff.mpr ⟨?_, ?_⟩
    · exact checkPath_eq_ok_iff.mpr ⟨hnul', hempty', Nat.not_lt.mp hlong⟩
    · by_cases hne : names = []
      · subst hne
        simpa using (locate_eq_ok_iff.mp hdir).2
      · have hstart : t.startOf (p.below names).text = t.startOf p.text := by
          rw [startOf_text t hnormal, startOf_text t hp]
          rfl
        rw [walk_pieces_text t hnormal (by simp [Path.below, hne]), hstart]
        exact (walk_append (walk_parts_of_locate hp hdir) names).trans (h.walk_names hsome)

theorem status_below : t.status (p.below names).text =
    if IsOverlong (p.below names) then .error .nameTooLong
    else .ok (t.entryAt (dir ++ names)) := by
  have hlocate := locate_below hp hdir h hsome
  unfold status
  split_ifs at hlocate ⊢ <;> rw [hlocate]

theorem isFile_below : t.isFile (p.below names).text =
    if IsOverlong (p.below names) then .error .nameTooLong
    else .ok (t.isFileAt (dir ++ names)) := by
  rw [isFile, status_below hp hdir h hsome]
  split_ifs <;> rfl

end Below

/-! ## Trees stay sound -/

theorem mem_replace {es : List (Location × FileEntry)} {x : Location × FileEntry}
    (h : x ∈ replace loc e es) : x = (loc, e) ∨ x ∈ es := by
  induction es with
  | nil => exact Or.inl (List.mem_singleton.mp h)
  | cons y rest ih =>
      obtain ⟨l, old⟩ := y
      rw [replace] at h
      split_ifs at h with hl
      · subst hl
        exact (List.mem_cons.mp h).imp_right (List.mem_cons_of_mem _)
      · rcases List.mem_cons.mp h with rfl | h
        · exact Or.inr List.mem_cons_self
        · exact (ih h).imp_right (List.mem_cons_of_mem _)

theorem nodup_keys_replace {es : List (Location × FileEntry)}
    (hnodup : (es.map Prod.fst).Nodup) : ((replace loc e es).map Prod.fst).Nodup := by
  induction es with
  | nil => exact List.nodup_singleton loc
  | cons y rest ih =>
      obtain ⟨l, old⟩ := y
      obtain ⟨hnew, hrest⟩ := List.nodup_cons.mp hnodup
      rw [replace]
      split_ifs with hl
      · exact hnodup
      · refine List.nodup_cons.mpr ⟨fun hmem ↦ ?_, ih hrest⟩
        obtain ⟨x, hx, hfst⟩ := List.mem_map.mp hmem
        rcases mem_replace hx with rfl | hx
        · exact hl hfst.symm
        · exact hnew (List.mem_map.mpr ⟨x, hx, hfst⟩)

/-- A new directory or a file is put into a directory. -/
theorem IsSound.put (h : t.IsSound) (hdir : t.isDirectoryAt dir = true)
    (hname : IsEntryName name)
    (hput : (e = .directory ∧ t.entryAt (dir ++ [name]) = none) ∨
      (t.isDirectoryAt (dir ++ [name]) = false ∧ ∃ bytes, e = .file bytes)) :
    (t.put (dir ++ [name]) e).IsSound where
  names x hx s hs := by
    rcases mem_replace hx with rfl | hx
    · rcases List.mem_append.mp hs with hs | hs
      · exact h.isEntryName (isSome_of_isDirectoryAt hdir) hs
      · exact List.mem_singleton.mp hs ▸ hname
    · exact h.names x hx s hs
  nodup := nodup_keys_replace h.nodup
  parents x hx := by
    have hdiffers : t.DiffersAt (fun _ ↦ True) (t.put (dir ++ [name]) e) :=
      differsAt_put (by simp) (hput.imp_right fun hfile ↦ ⟨trivial, hfile⟩)
    refine hdiffers.keeps.directories _ ?_
    rcases mem_replace hx with rfl | hx
    · rwa [List.dropLast_concat]
    · exact h.parents x hx

theorem isEntryName_name (hp : p.IsNormal) (hne : p.parts ≠ []) (hup : p.name ≠ "..")
    (hcheck : checkPath p.text = .ok ()) (hsize : p.name.utf8ByteSize ≤ maxNameBytes) :
    IsEntryName p.name where
  proper := isProper_name hp hne
  ne_up := hup
  noNul hmem := by
    obtain ⟨hnul, _, _⟩ := checkPath_eq_ok_iff.mp hcheck
    rw [← child_parent hne, text_child] at hnul
    refine hnul ?_
    split_ifs <;> simp [hmem]
  size_le := hsize

theorem IsSound.makeDirectory (h : t.IsSound) (hp : p.IsNormal)
    (hmake : t.makeDirectory p = .ok t') : t'.IsSound := by
  obtain ⟨dir, hparent, hmake⟩ := bind_eq_ok_iff.mp hmake
  obtain ⟨hcheck, _, hdir⟩ := locateParent_eq_ok_iff.mp hparent
  dsimp only at hmake
  split_ifs at hmake with hpresent hsize hsome
  obtain rfl := Except.ok.inj hmake
  obtain ⟨hne, hup⟩ := not_or.mp hpresent
  have hname := isEntryName_name hp hne hup hcheck (Nat.not_lt.mp hsize)
  exact h.put hdir hname (Or.inl ⟨rfl, by simpa using hsome⟩)

theorem IsSound.makeDirectories (h : t.IsSound) (anchor : Anchor) {parts : List String}
    (hparts : ∀ s ∈ parts, IsProper s) : (Storage.makeDirectories t anchor parts).1.IsSound :=
  Storage.makeDirectories_of_makeDirectory
    (fun hp hmake h ↦ h.makeDirectory (fun s hs ↦ hparts s (hp s hs)) hmake) h

theorem IsSound.writeFile (h : t.IsSound) (hp : p.IsNormal) (hne : p.parts ≠ [])
    (hup : p.name ≠ "..") {bytes : ByteArray} (hwrite : t.writeFile p bytes = .ok t') :
    t'.IsSound := by
  obtain ⟨dir, hparent, hwrite⟩ := bind_eq_ok_iff.mp hwrite
  obtain ⟨hcheck, _, hdir⟩ := locateParent_eq_ok_iff.mp hparent
  dsimp only at hwrite
  split_ifs at hwrite with hsize hplace
  obtain rfl := Except.ok.inj hwrite
  have hname := isEntryName_name hp hne hup hcheck (Nat.not_lt.mp hsize)
  exact h.put hdir hname (Or.inr ⟨by simpa using hplace, bytes, rfl⟩)

end AbiTypings.FileTree
