import AbiTypings.Proofs.Run.Repetition
import AbiTypings.CommandLine.Run

/-!
# Giving the command again

A command on directories can be given again. The second run leaves the tree as the first one left
it and says the same, unless one of the directories has got a directory at a path that is too long
for the search, which can be one that the first run made.
-/

namespace AbiTypings.CommandLine

open Run FileTree AbiTypings.Path

variable {a : Arguments} {t : FileTree} {paths : List String} {outputs : List Output}
  {s : Session} {n : Nat}

theorem exists_cwd_of_sessionFor (h : sessionFor a = .ok s) :
    ∃ cwd, s.target = .declarations (outputDirectory (ofText cwd) a.outDir) := by
  unfold sessionFor at h
  split at h
  case h_1 cwd _ =>
    obtain rfl := Except.ok.inj h
    exact ⟨cwd, rfl⟩
  case h_2 => cases h

/-- The command generates outputs from some files and writes all of them. -/
structure Stores (a : Arguments) (t : FileTree) (paths : List String) (s : Session)
    (outputs : List Output) : Prop where
  nonempty : paths ≠ []
  session : sessionFor a = .ok s
  generated : (s.generate t paths).2 = .ok outputs
  written : (writeOutputs t outputs).problem = none

theorem runWith_of_stores (hstdout : a.stdout = false)
    (hpaths : resolveInputs t a.pattern a.inputs = .ok paths) (h : Stores a t paths s outputs) :
    runWith a t = finish a (s.generate t paths).1 ""
      (logTexts a.verbose ((s.generate t paths).1.log ++
        (writeOutputs t outputs).paths.map writtenLog))
      (outputs.take (writeOutputs t outputs).paths.length) (writeOutputs t outputs).storage := by
  obtain ⟨hne, hsession, hgenerated, hwritten⟩ := h
  have hrun : s.generate t paths = ((s.generate t paths).1, .ok outputs) := by rw [← hgenerated]
  obtain ⟨first, rest, rfl⟩ := List.exists_cons_of_ne_nil hne
  rw [runWith, hpaths]
  dsimp only
  rw [runOn, hsession]
  dsimp only
  rw [hrun]
  simp only [hstdout, Bool.false_eq_true, if_false, storeOutputs, hwritten]

theorem exists_stores_of_runWith (hstdout : a.stdout = false)
    (h : (runWith a t).status = .ok n) :
    ∃ paths, resolveInputs t a.pattern a.inputs = .ok paths ∧
      (paths = [] ∨ ∃ s outputs, Stores a t paths s outputs) := by
  unfold runWith at h
  split at h
  case h_1 => cases h
  case h_2 hnone => exact ⟨[], hnone, Or.inl rfl⟩
  case h_3 paths hne hpaths =>
    refine ⟨paths, hpaths, Or.inr ?_⟩
    unfold runOn at h
    split at h
    case h_1 => cases h
    case h_2 s hs =>
      split at h
      case h_1 => cases h
      case h_2 after outputs hrun =>
        rw [hstdout, if_neg Bool.false_ne_true] at h
        unfold storeOutputs at h
        dsimp only at h
        split at h
        · cases h
        · exact ⟨s, outputs, hne, hs, by rw [hrun], ‹_›⟩

theorem tree_runWith_of_stores (hstdout : a.stdout = false)
    (hpaths : resolveInputs t a.pattern a.inputs = .ok paths) (h : Stores a t paths s outputs) :
    (runWith a t).tree = (writeOutputs t outputs).storage := by
  rw [runWith_of_stores hstdout hpaths h]
  rfl

theorem runWith_of_no_paths (hpaths : resolveInputs t a.pattern a.inputs = .ok []) :
    runWith a t = ⟨.ok 1, "", logTexts a.verbose [noMatch a], [], t⟩ := by
  rw [runWith, hpaths]

theorem runWith_of_error {problem : Problem}
    (hpaths : resolveInputs t a.pattern a.inputs = .error problem) :
    runWith a t = ⟨.error problem, "", "", [], t⟩ := by
  rw [runWith, hpaths]

/-! ## Giving the command again -/

/-- The outputs are generated and written once more, with the same result. -/
theorem runWith_again_of_stores (hstdout : a.stdout = false)
    (hpaths : resolveInputs t a.pattern a.inputs = .ok paths) (h : Stores a t paths s outputs)
    (hpaths' : resolveInputs (runWith a t).tree a.pattern a.inputs = .ok paths)
    (hread : ∀ path ∈ paths, (runWith a t).tree.readFile path = t.readFile path) :
    runWith a (runWith a t).tree = runWith a t := by
  obtain ⟨cwd, htarget⟩ := exists_cwd_of_sessionFor h.session
  have hdirectory := isNormal_outputDirectory cwd a.outDir
  have hfiles := areFilesOf_of_generate htarget h.generated
  have htree := tree_runWith_of_stores hstdout hpaths h
  have hgenerate : s.generate (runWith a t).tree paths = s.generate t paths :=
    generateOnto_congr hread
  have hwrite : writeOutputs (runWith a t).tree outputs = writeOutputs t outputs := by
    rw [htree, writeOutputs_eq_self hdirectory hfiles fun o ho ↦ ?_]
    · rw [← paths_writeOutputs h.written, ← h.written]
    · refine readFile_writeOutputs hdirectory t hfiles (nodup_paths_of_generate h.generated) ho ?_
      rw [paths_writeOutputs h.written]
      exact List.mem_map_of_mem ho
  have h' : Stores a (runWith a t).tree paths s outputs :=
    ⟨h.nonempty, h.session, hgenerate ▸ h.generated, hwrite ▸ h.written⟩
  rw [runWith_of_stores hstdout hpaths' h', hgenerate, hwrite, ← runWith_of_stores hstdout hpaths h]

/-- The command has come to its end in a tree where it can be given again. Other files than
documents are as they were, and if the same files are found, then all goes as before. -/
structure IsRepeatable (a : Arguments) (t : FileTree) (paths : List String) : Prop where
  found : resolveInputs t a.pattern a.inputs = .ok paths
  sound : (runWith a t).tree.IsSound
  differs : t.DiffersAt IsDocumentPlace (runWith a t).tree
  again (hpaths : resolveInputs (runWith a t).tree a.pattern a.inputs = .ok paths)
    (hread : ∀ path ∈ paths, (runWith a t).tree.readFile path = t.readFile path) :
      runWith a (runWith a t).tree = runWith a t

theorem exists_isRepeatable (h : t.IsSound) (hstdout : a.stdout = false)
    (hstatus : (runWith a t).status = .ok n) : ∃ paths, IsRepeatable a t paths := by
  obtain ⟨paths, hpaths, rfl | ⟨s, outputs, hstores⟩⟩ := exists_stores_of_runWith hstdout hstatus
  · have htree : (runWith a t).tree = t := by rw [runWith_of_no_paths hpaths]
    exact ⟨[], hpaths, htree.symm ▸ h, htree.symm ▸ .refl _ t, fun _ _ ↦ by rw [htree]⟩
  · have htree := tree_runWith_of_stores hstdout hpaths hstores
    obtain ⟨cwd, htarget⟩ := exists_cwd_of_sessionFor hstores.session
    have hdirectory := isNormal_outputDirectory cwd a.outDir
    have hfiles := areFilesOf_of_generate htarget hstores.generated
    have hdiffers := (writeOutputs_differsAt hdirectory t hfiles).mono fun _ ⟨_, ho, hloc⟩ ↦
      isDocumentPlace_of_isPlaceOf hdirectory htarget hstores.generated ho hloc
    exact ⟨paths, hpaths, htree.symm ▸ isSound_writeOutputs hdirectory h hfiles,
      htree.symm ▸ hdiffers, runWith_again_of_stores hstdout hpaths hstores⟩

/-- A command stops at the first directory whose path is too long for the search. -/
theorem runWith_of_hasOverlongDirectory (h : t.IsSound) (hpattern : a.pattern = defaultPattern)
    (hdirs : ∀ input ∈ a.inputs, t.isDirectory (ofText input).text = .ok true)
    (hlong : ∃ input ∈ a.inputs, t.HasOverlongDirectory (ofText input)) :
    ∃ path, runWith a t = ⟨.error (.unreadable .nameTooLong path), "", "", [], t⟩ := by
  obtain ⟨path, hfails⟩ := resolveInputs_of_hasOverlongDirectory h hdirs hlong
  exact ⟨path, runWith_of_error (hpattern ▸ hfails)⟩

/-- One file in one directory. -/
def singleTree : FileTree where
  entries := [(["in"], .directory),
    (["in", "A.json"], .file (asciiBytes "[\x7b\x22name\x22:\x22f\x22\x7d]".toList))]
  workDir := []

/-- The outputs go to a directory inside the one that the input is to lead to. -/
def intoItself (input : String) : Arguments :=
  ⟨[input], some "in/web3-contracts", some ".", defaultPattern, false, false⟩

/-- Leaves the directory and comes back to it some number of times. -/
def detour : Nat → Path
  | 0 => ⟨.relative, ["in"]⟩
  | k + 1 => ((detour k).child "..").child "in"

theorem isNormal_detour (k : Nat) : (detour k).IsNormal := by
  induction k with
  | zero => exact fun s hs ↦ List.mem_singleton.mp hs ▸ by decide
  | succ k ih => exact isNormal_child (isNormal_child ih (by decide)) (by decide)

theorem parts_detour_ne_nil (k : Nat) : (detour k).parts ≠ [] := by
  cases k <;> simp [detour, child]

theorem text_detour_succ (k : Nat) :
    (detour (k + 1)).text = (detour k).text ++ "/" ++ ".." ++ "/" ++ "in" := by
  rw [detour, text_child, if_neg (by simp [child]), text_child, if_neg (parts_detour_ne_nil k)]

theorem utf8ByteSize_text_detour (k : Nat) : (detour k).text.utf8ByteSize = 2 + 6 * k := by
  induction k with
  | zero => decide
  | succ k ih =>
      have hsizes : "/".utf8ByteSize = 1 ∧ "..".utf8ByteSize = 2 ∧ "in".utf8ByteSize = 2 := by
        decide
      simp only [text_detour_succ, String.utf8ByteSize_append, ih, hsizes]
      omega

theorem notMem_text_detour (k : Nat) : '\x00' ∉ (detour k).text.toList := by
  induction k with
  | zero => decide
  | succ k ih => simpa [text_detour_succ, String.toList_append] using ih

theorem walk_parts_detour {t : FileTree} (hdir : t.isDirectoryAt ["in"] = true) (k : Nat) :
    t.walk [] (detour k).parts = .ok ["in"] := by
  have hroot : t.isDirectoryAt [] = true := rfl
  have hpart : isPart "in" = true ∧ isPart ".." = true ∧ "in" ≠ ".." := by decide
  have hin : t.walk [] ["in"] = .ok ["in"] := by
    rw [walk, hroot, hpart.1]
    have hsome : (t.entryAt ([] ++ ["in"])).isSome = true := isSome_of_isDirectoryAt hdir
    rw [if_neg (by decide), if_neg (by decide), if_neg hpart.2.2, if_neg (by decide), if_pos hsome]
    rfl
  induction k with
  | zero => exact hin
  | succ k ih =>
      have hparts : (detour (k + 1)).parts = (detour k).parts ++ ["..", "in"] := by
        simp [detour, child]
      rw [hparts, walk_append ih, walk, hdir, hpart.2.1]
      exact hin

theorem locate_detour {t : FileTree} (ht : t.workDir = [])
    (hdir : t.isDirectoryAt ["in"] = true) {k : Nat} (hk : k ≤ 682) :
    t.locate (detour k).text = .ok ["in"] := by
  have hsize : (detour k).text.utf8ByteSize ≤ maxPathBytes := by
    rw [utf8ByteSize_text_detour, maxPathBytes]
    omega
  have hstart : t.startOf (detour k).text = [] := by
    rw [startOf_text t (isNormal_detour k), ht]
    split_ifs <;> rfl
  refine locate_eq_ok_iff.mpr ⟨checkPath_eq_ok_iff.mpr
    ⟨notMem_text_detour k, text_ne_empty (isNormal_detour k), hsize⟩, ?_⟩
  rw [walk_pieces_text t (isNormal_detour k) (parts_detour_ne_nil k), hstart,
    walk_parts_detour hdir]

theorem utf8ByteSize_text_child_detour (k : Nat) (name : String) :
    ((detour k).child name).text.utf8ByteSize = 3 + 6 * k + name.utf8ByteSize := by
  have hslash : "/".utf8ByteSize = 1 := by decide
  rw [text_child, if_neg (parts_detour_ne_nil k), String.utf8ByteSize_append,
    String.utf8ByteSize_append, utf8ByteSize_text_detour, hslash]
  omega

theorem isSound_singleTree : singleTree.IsSound := by
  decide +kernel

theorem isMatchBelow_singleTree {names : List String}
    (h : singleTree.IsMatchBelow "*.json" ["in"] names) : names = ["A.json"] := by
  obtain ⟨hfile, _, hlast, _⟩ := h
  obtain ⟨bytes, hentry⟩ := isFileAt_iff.mp hfile
  rw [isSound_singleTree.entryAt_eq_some_iff (by simp)] at hentry
  simp only [singleTree, List.mem_cons, List.cons_append, List.nil_append, Prod.mk.injEq,
    List.cons.injEq, reduceCtorEq, and_false, false_or, List.not_mem_nil, or_false, true_and]
    at hentry
  exact hentry.1

theorem not_hasOverlongDirectory_singleTree {p : Path}
    (h : singleTree.locate p.text = .ok ["in"]) : ¬ singleTree.HasOverlongDirectory p := by
  rintro ⟨names, hnames, _⟩
  obtain ⟨hne, loc, hloc, _, hdir⟩ := (mem_descend_iff isSound_singleTree).mp hnames
  obtain rfl := Except.ok.inj (h.symm.trans hloc)
  have hentry := isDirectoryAt_iff.mp (hdir rfl)
  rw [isSound_singleTree.entryAt_eq_some_iff (by simp)] at hentry
  simp [singleTree, hne] at hentry

section Spelling

variable {p : Path} (hp : p.IsNormal) (h : singleTree.locate p.text = .ok ["in"])
  (hshort : ¬ IsOverlong (p.child "A.json"))

include hp h hshort

theorem locate_child_singleTree :
    singleTree.locate (p.child "A.json").text = .ok ["in", "A.json"] := by
  have hsome : (singleTree.entryAt (["in"] ++ ["A.json"])).isSome = true := by decide +kernel
  exact (locate_below hp h isSound_singleTree hsome).trans (if_neg hshort)

theorem resolveInputs_singleTree :
    resolveInputs singleTree defaultPattern [p.text] = .ok [(p.child "A.json").text] := by
  have hplace : singleTree.isDirectoryAt ["in"] = true := by decide +kernel
  have hdir : singleTree.isDirectory (ofText p.text).text = .ok true := by
    rw [ofText_text hp]
    exact isDirectory_eq_ok_true_iff.mpr ⟨_, h, hplace⟩
  have hpattern := patternParts_defaultPattern
  obtain ⟨found, hfound⟩ := (exists_filesUnder_eq_ok_iff isSound_singleTree hp h hplace
    hpattern).mpr ⟨not_hasOverlongDirectory_singleTree h, fun names hmatch ↦
      isMatchBelow_singleTree hmatch ▸ hshort⟩
  have hfiles : filesOf singleTree defaultPattern p.text = .ok found := by
    rw [filesOf_of_isDirectory hdir, ofText_text hp, hfound]
    rfl
  obtain ⟨paths, hpaths⟩ := exists_resolveInputs_eq_ok_iff.mpr
    (List.forall_mem_singleton.mpr ⟨found, hfiles⟩)
  rw [hpaths]
  refine congrArg Except.ok ((pairwise_resolveInputs hpaths).eq_of_mem_iff
    (List.pairwise_singleton _ _) fun x ↦ ?_)
  simp only [mem_resolveInputs_iff hpaths, List.mem_singleton, exists_eq_left, hfiles,
    Except.ok.injEq, exists_eq_left', mem_filesUnder_iff isSound_singleTree hp h hplace hpattern
      hfound]
  constructor
  · rintro ⟨names, hmatch, rfl⟩
    rw [isMatchBelow_singleTree hmatch]
    rfl
  · rintro rfl
    exact ⟨["A.json"], ⟨by decide +kernel, "A.json", rfl, by decide +kernel⟩, rfl⟩

theorem yieldFile_singleTree (target : Target) :
    yieldFile target singleTree (p.child "A.json").text =
      yieldFile target singleTree "in/A.json" := by
  have hentry : singleTree.entryAt ["in", "A.json"] =
      some (.file (asciiBytes "[\x7b\x22name\x22:\x22f\x22\x7d]".toList)) := rfl
  have hlocate : singleTree.locate "in/A.json" = .ok ["in", "A.json"] :=
    Outcome.toOption_eq_some_iff.mp (by decide +kernel)
  have hread := readFile_eq_ok_iff.mpr ⟨_, locate_child_singleTree hp h hshort, hentry⟩
  have hread' := readFile_eq_ok_iff.mpr ⟨_, hlocate, hentry⟩
  refine yieldFile_congr ?_ ?_
  · rw [readText, readText, storage_readFile, hread, storage_readFile, hread']
    rfl
  · rw [contractName, ofText_text (isNormal_child hp (by decide)), Path.stem, name_child]
    decide +kernel

end Spelling

/-- The session and the outputs of the first run, whichever way the input is spelled. -/
def itselfSession : Session :=
  .start (.declarations (outputDirectory (ofText ".") (some "in/web3-contracts")))

def itselfOutputs : List Output :=
  putOutputs (["in/A.json"].filterMap (outputAt? itselfSession.target singleTree) ++
    itselfSession.target.closing) []

theorem generate_singleTree {p : Path} (hp : p.IsNormal)
    (h : singleTree.locate p.text = .ok ["in"]) (hshort : ¬ IsOverlong (p.child "A.json")) :
    itselfSession.generate singleTree [(p.child "A.json").text] =
      (itselfSession, .ok itselfOutputs) := by
  have hyield := yieldFile_singleTree hp h hshort itselfSession.target
  have hremarks : (yieldFile itselfSession.target singleTree "in/A.json").remarks = [] :=
    List.isEmpty_iff.mp (by decide +kernel)
  have hproblem : problemAt? itselfSession.target singleTree "in/A.json" = none :=
    Option.isNone_iff_eq_none.mp (by decide +kernel)
  have houtput : outputAt? itselfSession.target singleTree (p.child "A.json").text =
      outputAt? itselfSession.target singleTree "in/A.json" := by
    rw [outputAt?, outputAt?, hyield]
  have hproblem' : problemAt? itselfSession.target singleTree (p.child "A.json").text = none := by
    rw [problemAt?, hyield]
    exact hproblem
  have hstops : ∀ path ∈ [(p.child "A.json").text],
      stopsAt itselfSession.target singleTree path = false := by
    intro path hpath
    rw [List.mem_singleton.mp hpath, stopsAt, hproblem']
    rfl
  have hsettle : itselfSession.settle singleTree (p.child "A.json").text = itselfSession := by
    rw [Session.settle, hproblem', hyield, hremarks]
    rfl
  rw [Session.generate_of_forall hstops, List.foldl_cons, List.foldl_nil, hsettle,
    ← putOutputs_append, List.filterMap_cons, houtput]
  rfl

/-- All outputs are written, and their directory is in the one that the input leads to. -/
theorem written_itselfOutputs :
    (writeOutputs singleTree itselfOutputs).problem.isNone = true ∧
      (writeOutputs singleTree itselfOutputs).storage.isDirectoryAt
        (["in"] ++ ["web3-contracts"]) = true := by
  decide +kernel

theorem runWith_intoItself {p : Path} (hp : p.IsNormal)
    (h : singleTree.locate p.text = .ok ["in"]) (hshort : ¬ IsOverlong (p.child "A.json")) :
    (runWith (intoItself p.text) singleTree).status = .ok 0 ∧
      (runWith (intoItself p.text) singleTree).tree =
        (writeOutputs singleTree itselfOutputs).storage := by
  have hpaths : resolveInputs singleTree (intoItself p.text).pattern (intoItself p.text).inputs =
      .ok [(p.child "A.json").text] := resolveInputs_singleTree hp h hshort
  have hgenerate := generate_singleTree hp h hshort
  have hstores : Stores (intoItself p.text) singleTree [(p.child "A.json").text] itselfSession
      itselfOutputs :=
    ⟨List.cons_ne_nil _ _, rfl, by rw [hgenerate],
      Option.isNone_iff_eq_none.mp written_itselfOutputs.1⟩
  rw [runWith_of_stores rfl hpaths hstores, hgenerate]
  exact ⟨rfl, rfl⟩

/-- The directory of the outputs is now below the input, at a path that is too long. -/
theorem hasOverlongDirectory_detour {t : FileTree} (h : t.IsSound) (ht : t.workDir = [])
    (hnew : t.isDirectoryAt (["in"] ++ ["web3-contracts"]) = true) :
    t.HasOverlongDirectory (detour 680) := by
  have hsome := isSome_of_isDirectoryAt hnew
  have hin := h.isDirectoryAt_of_append (List.cons_ne_nil _ _) hsome
  refine ⟨["web3-contracts"], (mem_descend_iff h).mpr ⟨List.cons_ne_nil _ _, ["in"],
    locate_detour ht hin (by decide), hsome, fun _ ↦ hnew⟩, ?_⟩
  have hsize : ((detour 680).below ["web3-contracts"]).text.utf8ByteSize = _ :=
    utf8ByteSize_text_child_detour 680 "web3-contracts"
  have hname : "web3-contracts".utf8ByteSize = 14 := by decide
  rw [IsOverlong, hsize, hname, maxPathBytes]
  decide

end AbiTypings.CommandLine
