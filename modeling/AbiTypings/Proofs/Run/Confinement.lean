import AbiTypings.Proofs.Files.Disks
import AbiTypings.Proofs.Run.Writing

/-!
# A run writes only inside its output directory

The outputs of a run are entries of one directory. A path stands for the file that it leads to, so
what is written to an output goes to the file behind its path, also where links stand in the way.
Writing the outputs changes these files and no others, makes no file but under the paths of
outputs, and makes no links, also when it ends early.
-/

namespace AbiTypings.Run

open Outcome AbiTypings.Path

/-! ## Writing one output -/

theorem differsAt_writeOutput {d : Disk} {o : Output} (htext : (ofText o.path).text = o.path) :
    d.DiffersAt (fun loc ↦ (writeOutput d o).1.locate o.path = .ok loc)
        (fun number ↦ (writeOutput d o).1.LeadsTo o.path number) (writeOutput d o).1 ∧
      ((writeOutput d o).2 = .ok () → ∃ number, (writeOutput d o).1.LeadsTo o.path number ∧
        (writeOutput d o).1.contents number = o.contents.toUTF8) := by
  unfold writeOutput
  dsimp only
  have hmade (allowed : Location → Prop) (changed : Nat → Prop) : d.DiffersAt allowed changed
      (Storage.makeDirectories d (ofText o.path).anchor (ofText o.path).parent.parts.reverse).1 :=
    Disk.differsAt_makeDirectories d _ _
  split
  case h_1 d₁ fault hdirs =>
    rw [hdirs] at hmade
    exact ⟨hmade _ _, fun hok ↦ by cases hok⟩
  case h_2 d₁ hdirs =>
    rw [hdirs] at hmade
    split
    case h_1 d₂ hwrite =>
      obtain ⟨loc, number, hlocate, hnode, hcontents, hdiffers⟩ := Disk.writeFile_eq_ok hwrite
      rw [htext] at hlocate
      have hleads : d₂.LeadsTo o.path number := ⟨loc, hlocate, hnode⟩
      refine ⟨(hmade _ _).trans (hdiffers.mono ?_ ?_), fun _ ↦ ⟨number, hleads, hcontents⟩⟩
      · rintro _ rfl
        exact hlocate
      · rintro _ rfl
        exact hleads
    case h_2 => exact ⟨hmade _ _, fun hok ↦ by cases hok⟩

/-! ## Writing all outputs -/

/-- Nothing but the files that the outputs lead to is changed, also if writing ends early. -/
theorem differsAt_writeOutputs (d : Disk) {outputs : List Output}
    (h : ∀ o ∈ outputs, (ofText o.path).text = o.path) :
    d.DiffersAt (fun loc ↦ ∃ o ∈ outputs, (writeOutputs d outputs).storage.locate o.path = .ok loc)
      (fun number ↦ ∃ o ∈ outputs, (writeOutputs d outputs).storage.LeadsTo o.path number)
      (writeOutputs d outputs).storage := by
  induction outputs generalizing d with
  | nil => exact .refl d
  | cons o rest ih =>
      obtain ⟨ho, hrest⟩ := List.forall_mem_cons.mp h
      obtain ⟨hstep, _⟩ := differsAt_writeOutput (d := d) ho
      rw [writeOutputs]
      split
      case h_1 d₁ p hwrite =>
        rw [hwrite] at hstep
        exact hstep.mono (fun loc hloc ↦ ⟨o, List.mem_cons_self, hloc⟩) fun number hnumber ↦
          ⟨o, List.mem_cons_self, hnumber⟩
      case h_2 d₁ hwrite =>
        rw [hwrite] at hstep
        have hdiffers := ih d₁ hrest
        refine (hstep.mono (fun loc hloc ↦ ?_) fun number hnumber ↦ ?_).trans
          (hdiffers.mono ?_ ?_)
        · exact ⟨o, List.mem_cons_self, hdiffers.grows.locate_eq_ok hloc⟩
        · exact ⟨o, List.mem_cons_self, hdiffers.grows.leadsTo hnumber⟩
        · rintro loc ⟨o', ho', hloc⟩
          exact ⟨o', List.mem_cons_of_mem o ho', hloc⟩
        · rintro number ⟨o', ho', hnumber⟩
          exact ⟨o', List.mem_cons_of_mem o ho', hnumber⟩

theorem exists_of_problem_eq_none {d : Disk} {o : Output} {rest : List Output}
    (hdone : (writeOutputs d (o :: rest)).problem = none) :
    ∃ d', writeOutput d o = (d', .ok ()) ∧ (writeOutputs d' rest).problem = none ∧
      (writeOutputs d (o :: rest)).storage = (writeOutputs d' rest).storage := by
  rw [writeOutputs] at hdone ⊢
  split at hdone
  case h_1 => cases hdone
  case h_2 d' hwrite => exact ⟨d', hwrite, hdone, rfl⟩

section Done

variable {d : Disk} {outputs : List Output} (h : ∀ o ∈ outputs, (ofText o.path).text = o.path)
  (hdone : (writeOutputs d outputs).problem = none)

include h hdone

theorem exists_leadsTo_writeOutputs {o : Output} (ho : o ∈ outputs) :
    ∃ number, (writeOutputs d outputs).storage.LeadsTo o.path number := by
  induction outputs generalizing d with
  | nil => cases ho
  | cons first rest ih =>
      obtain ⟨hfirst, hrest⟩ := List.forall_mem_cons.mp h
      obtain ⟨d', hwrite, hdone', hstorage⟩ := exists_of_problem_eq_none hdone
      obtain ⟨_, hstored⟩ := differsAt_writeOutput (d := d) hfirst
      rw [hwrite] at hstored
      rw [hstorage]
      rcases List.mem_cons.mp ho with rfl | ho
      · obtain ⟨number, hleads, _⟩ := hstored rfl
        exact ⟨number, (differsAt_writeOutputs d' hrest).grows.leadsTo hleads⟩
      · exact ih hrest hdone' ho

/-- A file holds the text of the last output that leads to it. -/
theorem contents_writeOutputs {number : Nat} {last : Output}
    (hlast : outputs.reverse.find?
      (fun o ↦ (writeOutputs d outputs).storage.LeadsTo o.path number) = some last) :
    (writeOutputs d outputs).storage.contents number = last.contents.toUTF8 := by
  induction outputs generalizing d with
  | nil => cases hlast
  | cons first rest ih =>
      obtain ⟨hfirst, hrest⟩ := List.forall_mem_cons.mp h
      obtain ⟨d', hwrite, hdone', hstorage⟩ := exists_of_problem_eq_none hdone
      obtain ⟨_, hstored⟩ := differsAt_writeOutput (d := d) hfirst
      rw [hwrite] at hstored
      rw [hstorage] at hlast ⊢
      rw [List.reverse_cons, List.find?_append, Option.or_eq_some_iff] at hlast
      rcases hlast with hlater | ⟨hnone, hlast⟩
      · exact ih hrest hdone' hlater
      · obtain ⟨hleads, rfl⟩ : (writeOutputs d' rest).storage.LeadsTo first.path number ∧
            first = last := by
          simpa [List.find?_singleton] using hlast
        have hdiffers := differsAt_writeOutputs d' hrest
        obtain ⟨number', hleads', hcontents⟩ := hstored rfl
        obtain rfl := hleads.unique (hdiffers.grows.leadsTo hleads')
        rcases hdiffers.contents number with hsame | ⟨later, hmem, hlater⟩
        · exact hsame.trans hcontents
        · have hnone := List.find?_eq_none.mp hnone later (List.mem_reverse.mpr hmem)
          exact absurd hlater (by simpa using hnone)

end Done

/-! ## Writing the outputs of a run -/

/-- How a disk differs from the one that the outputs were written to. A path stands for the file
that it leads to, as it does when a file is opened. -/
structure IsConfined (before : Disk) (directory : Path) (outputs : List Output)
    (written : Written Disk) : Prop where
  /-- New names are those of directories, and of new files under the paths of outputs; files that
  no path of an output leads to have the contents that they had. -/
  differs : before.DiffersAt
    (fun loc ↦ ∃ o ∈ outputs, written.storage.locate o.path = .ok loc)
    (fun number ↦ ∃ o ∈ outputs, written.storage.LeadsTo o.path number) written.storage
  /-- An output is an entry of the directory, unless a link was there already. -/
  inside : ∀ o ∈ outputs, ∀ loc, written.storage.locate o.path = .ok loc →
    ∃ dir, written.storage.locate directory.text = .ok dir ∧
      (loc = dir ++ [(ofText o.path).name] ∨
        ∃ target, before.nodeAt (dir ++ [(ofText o.path).name]) = some (.link target))
  /-- In the end each of these files holds exactly the text of the last output that leads to it. -/
  contents : written.problem = none → ∀ o ∈ outputs, ∃ number last,
    written.storage.LeadsTo o.path number ∧
      outputs.reverse.find? (fun o' ↦ written.storage.LeadsTo o'.path number) = some last ∧
      written.storage.readFile o.path = .ok last.contents.toUTF8
  /-- Each output is found at its path, unless one was a link or two were names of one file. -/
  own : written.problem = none → ∀ dir, written.storage.locate directory.text = .ok dir →
    before.AreApart dir (outputs.map fun o ↦ (ofText o.path).name) → ∀ o ∈ outputs,
      written.storage.readFile o.path = .ok o.contents.toUTF8

section Confined

variable {directory : Path} (hdirectory : directory.IsNormal) {outputs : List Output}
  (h : AreFilesOf directory outputs) (before : Disk)

include hdirectory h

theorem text_ofText_of_mem {o : Output} (ho : o ∈ outputs) : (ofText o.path).text = o.path := by
  obtain ⟨name, hname, hpath⟩ := h o ho
  rw [hpath, ofText_text (isNormal_child hdirectory hname.1)]

theorem exists_locate_of_mem {o : Output} (ho : o ∈ outputs) {loc : Location}
    (hloc : (writeOutputs before outputs).storage.locate o.path = .ok loc) :
    ∃ dir, (writeOutputs before outputs).storage.locate directory.text = .ok dir ∧
      (loc = dir ++ [(ofText o.path).name] ∨
        ∃ target, before.nodeAt (dir ++ [(ofText o.path).name]) = some (.link target)) := by
  have hdiffers := differsAt_writeOutputs before fun o ho ↦ text_ofText_of_mem hdirectory h ho
  obtain ⟨name, hname, hpath⟩ := h o ho
  have hup : name ≠ ".." := by
    rintro rfl
    exact hname.2 (by simp)
  rw [hpath] at hloc ⊢
  rw [ofText_text (isNormal_child hdirectory hname.1), name_child]
  obtain ⟨dir, hdir, _, hends⟩ := Disk.exists_locate_of_locate_child hdirectory hname.1 hup hloc
  refine ⟨dir, hdir, hends.imp_right ?_⟩
  rintro ⟨target, hlink⟩
  exact ⟨target, hdiffers.grows.links _ _ hlink⟩

theorem path_eq_of_leadsTo {dir : Location}
    (hdir : (writeOutputs before outputs).storage.locate directory.text = .ok dir)
    (hapart : before.AreApart dir (outputs.map fun o ↦ (ofText o.path).name)) {o o' : Output}
    (ho : o ∈ outputs) (ho' : o' ∈ outputs) {number : Nat}
    (hleads : (writeOutputs before outputs).storage.LeadsTo o.path number)
    (hleads' : (writeOutputs before outputs).storage.LeadsTo o'.path number) :
    o.path = o'.path := by
  have hdiffers := differsAt_writeOutputs before fun o ho ↦ text_ofText_of_mem hdirectory h ho
  have hplace {o : Output} (ho : o ∈ outputs) {loc : Location}
      (hlocate : (writeOutputs before outputs).storage.locate o.path = .ok loc) :
      loc = dir ++ [(ofText o.path).name] := by
    obtain ⟨dir', hdir', hends⟩ := exists_locate_of_mem hdirectory h before ho hlocate
    obtain rfl := Except.ok.inj (hdir.symm.trans hdir')
    exact hends.resolve_right fun ⟨target, hlink⟩ ↦
      hapart.noLink _ (List.mem_map_of_mem ho) target hlink
  obtain ⟨loc, hlocate, hnode⟩ := hleads
  obtain ⟨loc', hlocate', hnode'⟩ := hleads'
  rw [hplace ho hlocate] at hnode
  rw [hplace ho' hlocate'] at hnode'
  have hname := (hdiffers.areApart hapart).oneName _ (List.mem_map_of_mem ho) _
    (List.mem_map_of_mem ho') number hnode hnode'
  obtain ⟨name, hfile, hpath⟩ := h o ho
  obtain ⟨name', hfile', hpath'⟩ := h o' ho'
  rw [hpath, hpath', ofText_text (isNormal_child hdirectory hfile.1),
    ofText_text (isNormal_child hdirectory hfile'.1), name_child, name_child] at hname
  rw [hpath, hpath', hname]

theorem isConfined_writeOutputs (hnodup : (outputs.map (·.path)).Nodup) :
    IsConfined before directory outputs (writeOutputs before outputs) := by
  have htext : ∀ o ∈ outputs, (ofText o.path).text = o.path :=
    fun o ho ↦ text_ofText_of_mem hdirectory h ho
  have hcontents (hdone : (writeOutputs before outputs).problem = none) (o) (ho : o ∈ outputs) :
      ∃ number last, (writeOutputs before outputs).storage.LeadsTo o.path number ∧
        outputs.reverse.find?
          (fun o' ↦ (writeOutputs before outputs).storage.LeadsTo o'.path number) = some last ∧
        (writeOutputs before outputs).storage.readFile o.path = .ok last.contents.toUTF8 := by
    obtain ⟨number, hleads⟩ := exists_leadsTo_writeOutputs htext hdone ho
    obtain ⟨last, hlast⟩ : ∃ last, outputs.reverse.find?
        (fun o' ↦ (writeOutputs before outputs).storage.LeadsTo o'.path number) = some last := by
      rw [← Option.isSome_iff_exists, List.find?_isSome]
      exact ⟨o, List.mem_reverse.mpr ho, by simpa using hleads⟩
    refine ⟨number, last, hleads, hlast, ?_⟩
    rw [Disk.readFile_of_leadsTo hleads, contents_writeOutputs htext hdone hlast]
  refine ⟨differsAt_writeOutputs before htext,
    fun o ho loc hloc ↦ exists_locate_of_mem hdirectory h before ho hloc, hcontents,
    fun hdone dir hdir hapart o ho ↦ ?_⟩
  obtain ⟨number, last, hleads, hlast, hread⟩ := hcontents hdone o ho
  have hmem := List.mem_reverse.mp (List.mem_of_find?_eq_some hlast)
  have hleads' : (writeOutputs before outputs).storage.LeadsTo last.path number := by
    simpa using List.find?_some hlast
  have hpath := path_eq_of_leadsTo hdirectory h before hdir hapart hmem ho hleads' hleads
  rwa [List.inj_on_of_nodup_map hnodup hmem ho hpath] at hread

end Confined

/-- The directory `gen` is that of `out`. There the name of the document is a link to where nothing
is yet. A file outside has two names. -/
def linkedDisk : Disk where
  nodes := [(["a"], .directory), (["a", "Token.json"], .file 0), (["keep.txt"], .file 1),
    (["copy.txt"], .file 1), (["out"], .directory), (["out", "drafts"], .directory),
    (["gen"], .link "out"), (["out", "Token.d.ts"], .link "drafts/../drafts/Token.d.ts")]
  contents n := if n = 0 then asciiBytes "[\x7b\x22name\x22:\x22f\x22\x7d]".toList else .empty
  workDir := []

def genSession : Session := .start (.declarations (outputDirectory (ofText ".") (some "gen//.")))

end AbiTypings.Run
