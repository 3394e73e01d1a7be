import AbiTypings.Proofs.Files.Writing
import AbiTypings.Proofs.Run.Outputs

/-!
# The outputs of a run, written into a tree

The outputs of a run are files of one directory, with names that lead nowhere else. Writing them
into a tree makes directories where they are missing and changes these files; whatever else is in
the tree stays as it was, also when writing ends early.
-/

namespace AbiTypings.Run

open FileTree Outcome AbiTypings.Path

variable {σ : Type} [Storage σ]

/-! ## The directory of the outputs -/

/-- The directory that is asked for, under the working directory unless it is anchored; a
default one if none is named. -/
def IsOutputDirectory (cwd : String) (named : Option String) (directory : Path) : Prop :=
  (named = none ∨ named = some "") ∧
      directory = ⟨(ofText cwd).anchor, (ofText cwd).parts ++ ["types", "web3-contracts"]⟩ ∨
    ∃ d, named = some d ∧ d ≠ "" ∧
      (d.toList.head? = some '/' ∧ directory = ofText d ∨
        d.toList.head? ≠ some '/' ∧
          directory = ⟨(ofText cwd).anchor, (ofText cwd).parts ++ (ofText d).parts⟩)

theorem isOutputDirectory_outputDirectory (cwd : String) (named : Option String) :
    IsOutputDirectory cwd named (outputDirectory (ofText cwd) named) := by
  have hdefault : ofText defaultDirectory = ⟨.relative, ["types", "web3-contracts"]⟩ := by decide
  have hanchor (d : String) : (ofText d).anchor = .relative ↔ d.toList.head? ≠ some '/' :=
    anchorOf_eq_relative_iff _
  cases named with
  | none => exact Or.inl ⟨Or.inl rfl, by simp [outputDirectory, join, hdefault]⟩
  | some d =>
      by_cases hd : d = ""
      · subst hd
        exact Or.inl ⟨Or.inr rfl, by simp [outputDirectory, join, hdefault]⟩
      · refine Or.inr ⟨d, rfl, hd, ?_⟩
        have hempty : d.isEmpty = false := by simpa using hd
        by_cases hhead : d.toList.head? = some '/'
        · refine Or.inl ⟨hhead, ?_⟩
          have hne : (ofText d).anchor ≠ .relative := fun h ↦ (hanchor d).mp h hhead
          simp [outputDirectory, join, hempty, hne]
        · refine Or.inr ⟨hhead, ?_⟩
          simp [outputDirectory, join, hempty, (hanchor d).mpr hhead]

theorem isNormal_outputDirectory (cwd : String) (named : Option String) :
    (outputDirectory (ofText cwd) named).IsNormal :=
  isNormal_join (isNormal_ofText cwd) (isNormal_ofText _)

/-! ## Names of documents -/

/-- A name that leads to a file of the directory it stands in, and nowhere else. -/
def IsFileName (name : String) : Prop := IsProper name ∧ name ∉ ["", ".", ".."]

theorem isFileName_documentName {stem : String} (h : '/' ∉ stem.toList) :
    IsFileName (documentName stem) := by
  have hlength : 5 ≤ (documentName stem).length := by
    rw [documentName, String.length_append]
    exact Nat.le_add_left 5 _
  have hshort (s : String) (hs : s.length < 5) : documentName stem ≠ s := by
    rintro rfl
    omega
  have hempty := hshort "" (by decide)
  have hdot := hshort "." (by decide)
  have hslash : '/' ∉ ".d.ts".toList := by decide
  refine ⟨⟨?_, ?_⟩, ?_⟩
  · simp [isPart, hempty, hdot]
  · rw [documentName, String.toList_append, List.mem_append]
    exact not_or.mpr ⟨h, hslash⟩
  · simp [hempty, hdot, hshort ".." (by decide)]

/-- The outputs are files of the directory. -/
def AreFilesOf (directory : Path) (outputs : List Output) : Prop :=
  ∀ o ∈ outputs, ∃ name, IsFileName name ∧ o.path = (directory.child name).text

theorem AreFilesOf.of_cons {directory : Path} {o : Output} {rest : List Output}
    (h : AreFilesOf directory (o :: rest)) : AreFilesOf directory rest :=
  fun o' ho' ↦ h o' (List.mem_cons_of_mem o ho')

theorem mem_putOutput {o x : Output} {outputs : List Output} (h : x ∈ putOutput o outputs) :
    x = o ∨ x ∈ outputs := by
  induction outputs with
  | nil => exact Or.inl (List.mem_singleton.mp h)
  | cons p rest ih =>
      rw [putOutput] at h
      split_ifs at h
      · exact (List.mem_cons.mp h).imp_right (List.mem_cons_of_mem p)
      · rcases List.mem_cons.mp h with rfl | h
        · exact Or.inr List.mem_cons_self
        · exact (ih h).imp_right (List.mem_cons_of_mem p)

theorem mem_putOutputs {x : Output} {made outputs : List Output}
    (h : x ∈ putOutputs made outputs) : x ∈ made ∨ x ∈ outputs := by
  induction made generalizing outputs with
  | nil => exact Or.inr h
  | cons o rest ih =>
      rcases ih h with h | h
      · exact Or.inl (List.mem_cons_of_mem o h)
      · rcases mem_putOutput h with rfl | h
        · exact Or.inl List.mem_cons_self
        · exact Or.inr h

/-- Every output of a run is named after one of its files, or is the shared document. -/
theorem exists_stem_of_generate {s : Session} {directory : Path}
    (hs : s.target = .declarations directory) {t : σ} {paths : List String}
    {outputs : List Output} (h : (s.generate t paths).2 = .ok outputs) {o : Output}
    (ho : o ∈ outputs) :
    ∃ stem, o.path = documentPath directory stem ∧
      (stem = "types" ∨ ∃ path ∈ paths, stem = contractName path) := by
  have houtputs := generate_eq_ok h
  rw [hs] at houtputs
  subst houtputs
  have hmade := (mem_putOutputs ho).resolve_right List.not_mem_nil
  rcases List.mem_append.mp hmade with hmade | hclosing
  · obtain ⟨path, hpath, houtput⟩ := List.mem_filterMap.mp hmade
    exact ⟨contractName path, path_of_outputAt? houtput, Or.inr ⟨path, hpath, rfl⟩⟩
  · obtain rfl := List.mem_singleton.mp hclosing
    exact ⟨"types", rfl, Or.inl rfl⟩

theorem notMem_of_stem {stem : String} {paths : List String}
    (h : stem = "types" ∨ ∃ path ∈ paths, stem = contractName path) : '/' ∉ stem.toList := by
  rcases h with rfl | ⟨path, _, rfl⟩
  · decide
  · exact notMem_stem path

/-- The outputs of a run are files of its directory. -/
theorem areFilesOf_of_generate {s : Session} {directory : Path}
    (hs : s.target = .declarations directory) {t : σ} {paths : List String}
    {outputs : List Output} (h : (s.generate t paths).2 = .ok outputs) :
    AreFilesOf directory outputs := by
  intro o ho
  obtain ⟨stem, hpath, hstem⟩ := exists_stem_of_generate hs h ho
  exact ⟨documentName stem, isFileName_documentName (notMem_of_stem hstem), hpath⟩

theorem nodup_paths_of_generate {s : Session} {t : σ} {paths : List String}
    {outputs : List Output} (h : (s.generate t paths).2 = .ok outputs) :
    (outputs.map (·.path)).Nodup := by
  rw [generate_eq_ok h]
  exact nodup_paths_putOutputs _ List.nodup_nil

/-! ## Writing one output -/

/-- The place is the one that the path of an output leads to; it is in the directory. -/
def IsPlaceOf (t : FileTree) (directory : Path) (o : Output) (loc : Location) : Prop :=
  ∃ dir, t.locate directory.text = .ok dir ∧ loc = dir ++ [(ofText o.path).name] ∧
    t.locate o.path = .ok loc

theorem IsPlaceOf.of_keeps {t t' : FileTree} {directory : Path} {o : Output} {loc : Location}
    (h : IsPlaceOf t directory o loc) (hkeeps : t.Keeps t') : IsPlaceOf t' directory o loc := by
  obtain ⟨dir, hdir, hloc, hplace⟩ := h
  exact ⟨dir, hkeeps.locate_eq_ok hdir, hloc, hkeeps.locate_eq_ok hplace⟩

section Writing

variable {directory : Path} (hdirectory : directory.IsNormal)

include hdirectory

theorem writeOutput_differsAt {t : FileTree} {o : Output} {name : String}
    (hname : IsFileName name) (ho : o.path = (directory.child name).text) :
    t.DiffersAt (IsPlaceOf (writeOutput t o).1 directory o) (writeOutput t o).1 ∧
      ((writeOutput t o).2 = .ok () →
        ∃ loc, IsPlaceOf (writeOutput t o).1 directory o loc ∧
          (writeOutput t o).1.entryAt loc = some (.file o.contents.toUTF8)) := by
  have hpath : ofText o.path = directory.child name := by
    rw [ho, ofText_text (isNormal_child hdirectory hname.1)]
  have hup : name ≠ ".." := by
    rintro rfl
    exact hname.2 (by simp)
  unfold writeOutput
  simp only [hpath, parent_child]
  have hmade : t.DiffersAt (fun _ ↦ False)
      (Storage.makeDirectories t (directory.child name).anchor directory.parts.reverse).1 :=
    differsAt_makeDirectories t _ _
  split
  case h_1 t₁ fault hdirs =>
    rw [hdirs] at hmade
    exact ⟨hmade.mono fun _ ↦ False.elim, fun hok ↦ by cases hok⟩
  case h_2 t₁ hdirs =>
    rw [hdirs] at hmade
    split
    case h_1 t₂ hwrite =>
      obtain ⟨dir, hdir, hplace, hentry, hdiffers⟩ :=
        writeFile_child_eq_ok hdirectory hname.1 hup hwrite
      have hplaceOf : IsPlaceOf t₂ directory o (dir ++ [name]) :=
        ⟨dir, hdir, by rw [hpath, name_child], ho ▸ hplace⟩
      refine ⟨(hmade.mono fun _ ↦ False.elim).trans (hdiffers.mono ?_), fun _ ↦
        ⟨dir ++ [name], hplaceOf, hentry⟩⟩
      rintro loc rfl
      exact hplaceOf
    case h_2 fault _ => exact ⟨hmade.mono fun _ ↦ False.elim, fun hok ↦ by cases hok⟩

/-! ## Writing all outputs -/

/-- Nothing but the files that the outputs lead to is changed, also if writing ends early. -/
theorem writeOutputs_differsAt (t : FileTree) {outputs : List Output}
    (h : AreFilesOf directory outputs) :
    t.DiffersAt
      (fun loc ↦ ∃ o ∈ outputs, IsPlaceOf (writeOutputs t outputs).storage directory o loc)
      (writeOutputs t outputs).storage := by
  induction outputs generalizing t with
  | nil => exact .refl _ t
  | cons o rest ih =>
      obtain ⟨name, hname, ho⟩ := h o List.mem_cons_self
      obtain ⟨hstep, _⟩ := writeOutput_differsAt hdirectory (t := t) hname ho
      rw [writeOutputs]
      split
      case h_1 t₁ p hwrite =>
        rw [hwrite] at hstep
        exact hstep.mono fun loc hloc ↦ ⟨o, List.mem_cons_self, hloc⟩
      case h_2 t₁ hwrite =>
        rw [hwrite] at hstep
        have hrest := ih t₁ h.of_cons
        refine (hstep.mono fun loc hloc ↦ ?_).trans (hrest.mono ?_)
        · exact ⟨o, List.mem_cons_self, hloc.of_keeps hrest.keeps⟩
        · rintro loc ⟨o', ho', hloc⟩
          exact ⟨o', List.mem_cons_of_mem o ho', hloc⟩

/-- An output that has been written is found at its path with its contents, whatever has been
written behind it. -/
theorem readFile_writeOutputs (t : FileTree) {outputs : List Output}
    (h : AreFilesOf directory outputs) (hnodup : (outputs.map (·.path)).Nodup) {o : Output}
    (ho : o ∈ outputs) (hwritten : o.path ∈ (writeOutputs t outputs).paths) :
    (writeOutputs t outputs).storage.readFile o.path = .ok o.contents.toUTF8 := by
  induction outputs generalizing t with
  | nil => cases ho
  | cons first rest ih =>
      obtain ⟨name, hname, hfirst⟩ := h first List.mem_cons_self
      obtain ⟨_, hstored⟩ := writeOutput_differsAt hdirectory (t := t) hname hfirst
      obtain ⟨hnew, hnodup⟩ := List.nodup_cons.mp hnodup
      rw [writeOutputs] at hwritten ⊢
      split at hwritten
      case h_1 => cases hwritten
      case h_2 t₁ hwrite =>
        rw [hwrite] at hstored
        dsimp only
        have hrest := writeOutputs_differsAt hdirectory t₁ h.of_cons
        rcases List.mem_cons.mp ho with rfl | ho
        · obtain ⟨loc, hplace, hentry⟩ := hstored rfl
          obtain ⟨dir, hdir, hloc, hlocate⟩ := hplace.of_keeps hrest.keeps
          refine readFile_eq_ok_iff.mpr ⟨loc, hlocate, hrest.entryAt_of_file ?_ hentry⟩
          -- Another output in the same place would have the same path.
          rintro ⟨other, hother, dir', _, hloc', _⟩
          have hname' := (List.append_inj' (hloc.symm.trans hloc') rfl).2
          obtain ⟨name', hname'', hpath⟩ := h.of_cons other hother
          rw [hpath, hfirst, ofText_text (isNormal_child hdirectory hname.1),
            ofText_text (isNormal_child hdirectory hname''.1), name_child, name_child] at hname'
          obtain rfl := List.singleton_inj.mp hname'
          exact hnew (List.mem_map.mpr ⟨other, hother, hpath.trans hfirst.symm⟩)
        · refine ih t₁ h.of_cons hnodup ho ((List.mem_cons.mp hwritten).resolve_left fun heq ↦ ?_)
          exact hnew (List.mem_map.mpr ⟨o, ho, heq⟩)

end Writing

theorem paths_writeOutputs {t : σ} {outputs : List Output}
    (h : (writeOutputs t outputs).problem = none) :
    (writeOutputs t outputs).paths = outputs.map (·.path) := by
  induction outputs generalizing t with
  | nil => rfl
  | cons o rest ih =>
      rw [writeOutputs] at h ⊢
      split at h
      case h_1 => cases h
      case h_2 t₁ hwrite =>
        exact congrArg (o.path :: ·) (ih h)

end AbiTypings.Run
