import AbiTypings.Proofs.Files.Rewriting
import AbiTypings.Proofs.Files.Wildcards
import AbiTypings.Proofs.Run.Discovery
import AbiTypings.Proofs.Run.Writing

/-!
# What a run does to the next one

The names of documents are not names of inputs, so what a run has written is not taken up by the
next one, also where the outputs are inside an input directory. Unless a new directory is at a
path that is too long for the search, the same files are found. They hold what they held, the same
outputs are generated from them, and writing these leaves the tree as it is.
-/

namespace AbiTypings.Run

open FileTree Outcome AbiTypings.Path

variable {t t' : FileTree} {directory : Path} {o : Output} {outputs : List Output}

/-! ## Writing again -/

section Writing

variable (hdirectory : directory.IsNormal)

include hdirectory

theorem writeOutput_eq_self {name : String} (hname : IsFileName name)
    (ho : o.path = (directory.child name).text)
    (hread : t.readFile o.path = .ok o.contents.toUTF8) : writeOutput t o = (t, .ok ()) := by
  have hpath : ofText o.path = directory.child name := by
    rw [ho, ofText_text (isNormal_child hdirectory hname.1)]
  have hup : name ≠ ".." := by
    rintro rfl
    exact hname.2 (by simp)
  obtain ⟨hwrite, dir, hlocate, hdir⟩ := writeFile_eq_self hdirectory hname.1 hup (ho ▸ hread)
  have hmade : Storage.makeDirectories t (directory.child name).anchor directory.parts.reverse =
      (t, .ok ()) := makeDirectories_eq_self hdirectory hlocate hdir
  unfold writeOutput
  simp only [hpath, parent_child, hmade, storage_writeFile, hwrite]

theorem writeOutputs_eq_self (hfiles : AreFilesOf directory outputs)
    (hread : ∀ o ∈ outputs, t.readFile o.path = .ok o.contents.toUTF8) :
    writeOutputs t outputs = ⟨t, outputs.map (·.path), none⟩ := by
  induction outputs with
  | nil => rfl
  | cons o rest ih =>
      obtain ⟨name, hname, ho⟩ := hfiles o List.mem_cons_self
      have hwrite := writeOutput_eq_self hdirectory hname ho (hread o List.mem_cons_self)
      have hrest := ih hfiles.of_cons fun o' ho' ↦ hread o' (List.mem_cons_of_mem o ho')
      rw [writeOutputs, hwrite]
      simp only [hrest, List.map_cons]

theorem isSound_writeOutput (h : t.IsSound) {name : String} (hname : IsFileName name)
    (ho : o.path = (directory.child name).text) : (writeOutput t o).1.IsSound := by
  have hchild := isNormal_child hdirectory hname.1
  have hpath : ofText o.path = directory.child name := by rw [ho, ofText_text hchild]
  have hmade := h.makeDirectories (directory.child name).anchor
    fun s hs ↦ hdirectory s (List.mem_reverse.mp hs)
  unfold writeOutput
  simp only [hpath, parent_child]
  split
  case h_1 t₁ _ hdirs => rwa [hdirs] at hmade
  case h_2 t₁ hdirs =>
    rw [hdirs] at hmade
    split
    case h_1 t₂ hwrite =>
      refine hmade.writeFile hchild (by simp [child]) ?_ hwrite
      rw [name_child]
      rintro rfl
      exact hname.2 (by simp)
    case h_2 => exact hmade

theorem isSound_writeOutputs (h : t.IsSound) (hfiles : AreFilesOf directory outputs) :
    (writeOutputs t outputs).storage.IsSound := by
  induction outputs generalizing t with
  | nil => exact h
  | cons o rest ih =>
      obtain ⟨name, hname, ho⟩ := hfiles o List.mem_cons_self
      have hstep := isSound_writeOutput hdirectory h hname ho
      rw [writeOutputs]
      split
      case h_1 t₁ _ hwrite => rwa [hwrite] at hstep
      case h_2 t₁ hwrite =>
        rw [hwrite] at hstep
        exact ih hstep hfiles.of_cons

end Writing

/-! ## Generating again -/

/-- A run depends on nothing but what it reads. -/
theorem generateOnto_congr {s : Session} {paths : List String}
    (h : ∀ path ∈ paths, t'.readFile path = t.readFile path) :
    s.generateOnto t' outputs paths = s.generateOnto t outputs paths := by
  induction paths generalizing s outputs with
  | nil => rfl
  | cons path rest ih =>
      obtain ⟨hpath, hrest⟩ := List.forall_mem_cons.mp h
      have hfile : s.generateFile t' path = s.generateFile t path := by
        simp only [Session.generateFile, yieldFile, readText, storage_readFile, hpath]
      rw [Session.generateOnto, Session.generateOnto, hfile]
      simp only [ih hrest]

/-- Of a path, only what is read there and the name of the file matter. -/
theorem yieldFile_congr {target : Target} {a b : String} (hread : readText t a = readText t b)
    (hname : contractName a = contractName b) : yieldFile target t a = yieldFile target t b := by
  unfold yieldFile Target.yield Target.yieldContract
  rw [hread, hname]

/-! ## Names of documents and of inputs -/

theorem partsOf_json : Wildcard.partsOf "*.json".toList = .run :: ".json".toList.map .char := by
  decide +kernel

theorem wildcardMatches_documentName (stem : String) :
    wildcardMatches "*.json" (documentName stem) = false := by
  rw [wildcardMatches, partsOf_json, Bool.eq_false_iff, ne_eq, Wildcard.matchParts_ending_iff]
  rintro ⟨front, heq⟩
  have hlast := congrArg List.getLast? heq
  rw [documentName, String.toList_append] at hlast
  simp at hlast

/-- The place of a file that is named as documents are. -/
def IsDocumentPlace (loc : Location) : Prop := ∃ dir stem, loc = dir ++ [documentName stem]

/-- Writing the outputs changes no other files. -/
theorem isDocumentPlace_of_isPlaceOf (hdirectory : directory.IsNormal) {s : Session}
    (hs : s.target = .declarations directory) {paths : List String}
    (houtputs : (s.generate t paths).2 = .ok outputs) {loc : Location} (ho : o ∈ outputs)
    (hloc : IsPlaceOf t' directory o loc) : IsDocumentPlace loc := by
  obtain ⟨stem, hpath, hstem⟩ := exists_stem_of_generate hs houtputs ho
  obtain ⟨dir, _, rfl, _⟩ := hloc
  have hname := isFileName_documentName (notMem_of_stem hstem)
  rw [hpath, documentPath, ofText_text (isNormal_child hdirectory hname.1), name_child]
  exact ⟨dir, stem, rfl⟩

theorem not_isDocumentPlace_of_match {dir : Location} {names : List String} {name : String}
    (hlast : names.getLast? = some name) (hmatch : wildcardMatches "*.json" name = true) :
    ¬ IsDocumentPlace (dir ++ names) := by
  obtain ⟨front, rfl⟩ := List.getLast?_eq_some_iff.mp hlast
  rintro ⟨dir', stem, heq⟩
  rw [← List.append_assoc] at heq
  obtain rfl := List.singleton_inj.mp (List.append_inj' heq rfl).2
  rw [wildcardMatches_documentName] at hmatch
  cases hmatch

/-! ## Searching again -/

section Searching

variable (h : t.IsSound) (h' : t'.IsSound) (hdiffers : t.DiffersAt IsDocumentPlace t')

include hdiffers

theorem isMatchBelow_iff_of_differsAt {dir : Location} {names : List String} :
    t'.IsMatchBelow "*.json" dir names ↔ t.IsMatchBelow "*.json" dir names := by
  refine and_congr_left fun ⟨name, hlast, hmatch⟩ ↦ ?_
  have hloc : ¬ IsDocumentPlace (dir ++ names) := not_isDocumentPlace_of_match hlast hmatch
  simp only [isFileAt_iff, hdiffers.entryAt_file_iff hloc]

include h h'

theorem filesUnder_again {p : Path} (hp : p.IsNormal) (hdir : t.isDirectory p.text = .ok true)
    (hshort : ¬ t'.HasOverlongDirectory p) {found : List String}
    (hfound : t.filesUnder p defaultPattern = .ok found) :
    ∃ found', t'.filesUnder p defaultPattern = .ok found' ∧ ∀ x, x ∈ found' ↔ x ∈ found := by
  obtain ⟨dir, hlocate, hplace⟩ := isDirectory_eq_ok_true_iff.mp hdir
  have hlocate' := hdiffers.keeps.locate_eq_ok hlocate
  have hplace' := hdiffers.keeps.directories dir hplace
  have hpattern := patternParts_defaultPattern
  have hends := (exists_filesUnder_eq_ok_iff h hp hlocate hplace hpattern).mp ⟨found, hfound⟩
  obtain ⟨found', hfound'⟩ := (exists_filesUnder_eq_ok_iff h' hp hlocate' hplace' hpattern).mpr
    ⟨hshort, fun names hmatch ↦
      hends.2 names ((isMatchBelow_iff_of_differsAt hdiffers).mp hmatch)⟩
  refine ⟨found', hfound', fun x ↦ ?_⟩
  rw [mem_filesUnder_iff h' hp hlocate' hplace' hpattern hfound',
    mem_filesUnder_iff h hp hlocate hplace hpattern hfound]
  simp only [isMatchBelow_iff_of_differsAt hdiffers]

/-- The same files are found. -/
theorem resolveInputs_again {inputs paths : List String}
    (hdirs : ∀ input ∈ inputs, t.isDirectory (ofText input).text = .ok true)
    (hshort : ∀ input ∈ inputs, ¬ t'.HasOverlongDirectory (ofText input))
    (hpaths : resolveInputs t defaultPattern inputs = .ok paths) :
    resolveInputs t' defaultPattern inputs = .ok paths := by
  have hagain {input : String} (hinput : input ∈ inputs) : ∃ found found',
      filesOf t defaultPattern input = .ok found ∧
        filesOf t' defaultPattern input = .ok found' ∧ ∀ x, x ∈ found' ↔ x ∈ found := by
    obtain ⟨found, hfound⟩ := exists_resolveInputs_eq_ok_iff.mp ⟨paths, hpaths⟩ input hinput
    have hdir := hdirs input hinput
    have hdir' := hdiffers.keeps.isDirectory_eq_ok_true hdir
    rw [filesOf_of_isDirectory hdir, mapError_eq_ok_iff] at hfound
    obtain ⟨found', hfound', hmem⟩ := filesUnder_again h h' hdiffers
      (isNormal_ofText input) hdir (hshort input hinput) hfound
    simp only [filesOf_of_isDirectory hdir, filesOf_of_isDirectory hdir', mapError_eq_ok_iff]
    exact ⟨found, found', hfound, hfound', hmem⟩
  obtain ⟨paths', hpaths'⟩ := exists_resolveInputs_eq_ok_iff.mpr fun input hinput ↦ by
    obtain ⟨_, found', _, hfound', _⟩ := hagain hinput
    exact ⟨found', hfound'⟩
  rw [hpaths']
  refine congrArg Except.ok ((pairwise_resolveInputs hpaths').eq_of_mem_iff
    (pairwise_resolveInputs hpaths) fun x ↦ ?_)
  rw [mem_resolveInputs_iff hpaths', mem_resolveInputs_iff hpaths]
  refine exists_congr fun input ↦ and_congr_right fun hinput ↦ ?_
  obtain ⟨found, found', hfound, hfound', hmem⟩ := hagain hinput
  simp only [hfound, hfound', Except.ok.injEq, exists_eq_left', hmem]

omit h' in
/-- The files that are found hold what they held. -/
theorem readFile_again {inputs paths : List String}
    (hdirs : ∀ input ∈ inputs, t.isDirectory (ofText input).text = .ok true)
    (hpaths : resolveInputs t defaultPattern inputs = .ok paths) {path : String}
    (hpath : path ∈ paths) : t'.readFile path = t.readFile path := by
  obtain ⟨input, hinput, found, hfound, hmem⟩ := (mem_resolveInputs_iff hpaths).mp hpath
  have hdir := hdirs input hinput
  have hp := isNormal_ofText input
  rw [filesOf_of_isDirectory hdir, mapError_eq_ok_iff] at hfound
  obtain ⟨dir, hlocate, hplace⟩ := isDirectory_eq_ok_true_iff.mp hdir
  have hpattern := patternParts_defaultPattern
  obtain ⟨names, hmatch, rfl⟩ :=
    (mem_filesUnder_iff h hp hlocate hplace hpattern hfound).mp hmem
  have hshort : ¬ IsOverlong ((ofText input).below names) :=
    ((exists_filesUnder_eq_ok_iff h hp hlocate hplace hpattern).mp ⟨found, hfound⟩).2 names hmatch
  obtain ⟨hfile, name, hlast, hname⟩ := hmatch
  obtain ⟨bytes, hentry⟩ := isFileAt_iff.mp hfile
  have hfound : t.locate ((ofText input).below names).text = .ok (dir ++ names) := by
    rw [locate_below hp hlocate h (isSome_of_isFileAt hfile), if_neg hshort]
  have hloc : ¬ IsDocumentPlace (dir ++ names) := not_isDocumentPlace_of_match hlast hname
  rw [readFile_eq_ok_iff.mpr ⟨_, hfound, hentry⟩]
  exact readFile_eq_ok_iff.mpr
    ⟨_, hdiffers.keeps.locate_eq_ok hfound, (hdiffers.entryAt_file_iff hloc).mpr hentry⟩

end Searching

end AbiTypings.Run
