import AbiTypings.Proofs.Run.Steps
import AbiTypings.Proofs.Text.Plain
import Mathlib.Data.List.Nodup
import Mathlib.Data.List.Perm.Subperm

/-!
# The outputs of a run

Outputs are kept by their path, so a later one takes the place of an earlier one with the same
path. The path of a document depends on nothing but the stem of its file: a run keeps every
document if the stems are distinct and none of them is that of the shared document, and only then.
-/

namespace AbiTypings.Run

variable {σ : Type} [Storage σ]

/-! ## Outputs by their path -/

/-- The contents of the output with a path, if there is one. -/
def contentsAt? (path : String) (outputs : List Output) : Option String :=
  (outputs.find? (·.path == path)).map (·.contents)

theorem contentsAt?_cons (path : String) (o : Output) (outputs : List Output) :
    contentsAt? path (o :: outputs) =
      if o.path = path then some o.contents else contentsAt? path outputs := by
  by_cases h : o.path = path <;> simp [contentsAt?, h]

theorem contentsAt?_append (path : String) (a b : List Output) :
    contentsAt? path (a ++ b) = (contentsAt? path a).or (contentsAt? path b) := by
  induction a with
  | nil => rfl
  | cons o rest ih =>
      rw [List.cons_append, contentsAt?_cons, contentsAt?_cons, ih]
      split_ifs <;> rfl

theorem contentsAt?_putOutput (path : String) (o : Output) (outputs : List Output) :
    contentsAt? path (putOutput o outputs) =
      if o.path = path then some o.contents else contentsAt? path outputs := by
  induction outputs with
  | nil => exact contentsAt?_cons path o []
  | cons p rest ih =>
      rw [putOutput]
      by_cases hp : p.path = o.path
      · rw [if_pos hp, contentsAt?_cons, contentsAt?_cons, hp]
        split_ifs <;> rfl
      · rw [if_neg hp, contentsAt?_cons, contentsAt?_cons, ih]
        split_ifs with hpath ho
        · exact absurd (hpath.trans ho.symm) hp
        all_goals rfl

/-- The last output with a path is the one that is kept. -/
theorem contentsAt?_putOutputs (path : String) (made outputs : List Output) :
    contentsAt? path (putOutputs made outputs) =
      (contentsAt? path made.reverse).or (contentsAt? path outputs) := by
  induction made generalizing outputs with
  | nil => rfl
  | cons o rest ih =>
      have hput : putOutputs (o :: rest) outputs = putOutputs rest (putOutput o outputs) := rfl
      rw [hput, ih, contentsAt?_putOutput, List.reverse_cons, contentsAt?_append,
        contentsAt?_cons, Option.or_assoc]
      split_ifs <;> rfl

theorem contentsAt?_eq_none_iff {path : String} {outputs : List Output} :
    contentsAt? path outputs = none ↔ path ∉ outputs.map (·.path) := by
  simp [contentsAt?]

theorem contentsAt?_of_mem {o : Output} {outputs : List Output}
    (hnodup : (outputs.map (·.path)).Nodup) (h : o ∈ outputs) :
    contentsAt? o.path outputs = some o.contents := by
  induction outputs with
  | nil => cases h
  | cons p rest ih =>
      obtain ⟨hp, hrest⟩ := List.nodup_cons.mp hnodup
      rw [contentsAt?_cons]
      rcases List.mem_cons.mp h with rfl | h
      · rw [if_pos rfl]
      · rw [if_neg, ih hrest h]
        intro heq
        exact hp (List.mem_map.mpr ⟨o, h, heq.symm⟩)

/-! ## Paths of outputs -/

theorem putOutput_of_not_mem {o : Output} {outputs : List Output}
    (h : o.path ∉ outputs.map (·.path)) : putOutput o outputs = outputs ++ [o] := by
  induction outputs with
  | nil => rfl
  | cons p rest ih =>
      rw [List.map_cons, List.mem_cons, not_or] at h
      rw [putOutput, if_neg (Ne.symm h.1), ih h.2, List.cons_append]

theorem paths_putOutput_of_mem {o : Output} {outputs : List Output}
    (h : o.path ∈ outputs.map (·.path)) :
    (putOutput o outputs).map (·.path) = outputs.map (·.path) := by
  induction outputs with
  | nil => cases h
  | cons p rest ih =>
      rw [putOutput]
      split_ifs with hp
      · rw [List.map_cons, List.map_cons, hp]
      · rw [List.map_cons, List.map_cons, ih ((List.mem_cons.mp h).resolve_left (Ne.symm hp))]

theorem nodup_paths_putOutput (o : Output) {outputs : List Output}
    (h : (outputs.map (·.path)).Nodup) : ((putOutput o outputs).map (·.path)).Nodup := by
  by_cases hmem : o.path ∈ outputs.map (·.path)
  · rwa [paths_putOutput_of_mem hmem]
  · rw [putOutput_of_not_mem hmem, List.map_append]
    exact h.append (List.nodup_singleton _) (List.disjoint_singleton.mpr hmem)

theorem nodup_paths_putOutputs (made : List Output) {outputs : List Output}
    (h : (outputs.map (·.path)).Nodup) : ((putOutputs made outputs).map (·.path)).Nodup := by
  induction made generalizing outputs with
  | nil => exact h
  | cons o rest ih => exact ih (nodup_paths_putOutput o h)

theorem putOutputs_of_nodup {made outputs : List Output}
    (h : ((outputs ++ made).map (·.path)).Nodup) : putOutputs made outputs = outputs ++ made := by
  induction made generalizing outputs with
  | nil => exact (List.append_nil outputs).symm
  | cons o rest ih =>
      have hnew : o.path ∉ outputs.map (·.path) := by
        rw [List.map_append, List.map_cons] at h
        intro hmem
        exact List.disjoint_of_nodup_append h hmem List.mem_cons_self
      rw [← List.singleton_append, ← List.append_assoc] at h ⊢
      rw [← putOutput_of_not_mem hnew] at h ⊢
      exact ih h

theorem putOutputs_eq_self {made : List Output} (h : (made.map (·.path)).Nodup) :
    putOutputs made [] = made := by
  have hall : putOutputs made [] = [] ++ made := putOutputs_of_nodup h
  rw [hall, List.nil_append]

/-- No output is lost to another one just when all paths are distinct. -/
theorem length_putOutputs_iff {made : List Output} :
    (putOutputs made []).length = made.length ↔ (made.map (·.path)).Nodup := by
  constructor
  · intro hlength
    have hsubset : (putOutputs made []).map (·.path) ⊆ made.map (·.path) := by
      intro path hpath
      by_contra hnone
      have hreverse : path ∉ made.reverse.map (·.path) := by simpa using hnone
      have hlost := contentsAt?_putOutputs path made []
      rw [contentsAt?_eq_none_iff.mpr hreverse] at hlost
      exact contentsAt?_eq_none_iff.mp hlost hpath
    have hnodup : ((putOutputs made []).map (·.path)).Nodup :=
      nodup_paths_putOutputs made List.nodup_nil
    have hperm := (List.subperm_of_subset hnodup hsubset).perm_of_length_le (by simp [hlength])
    exact hperm.nodup_iff.mp hnodup
  · intro hnodup
    rw [putOutputs_eq_self hnodup]

/-! ## Stems -/

/-- The path of the document that a stem gives its name to. -/
def documentPath (directory : Path) (stem : String) : String :=
  (directory.child (documentName stem)).text

theorem text_child_injective {directory : Path} {a b : String}
    (h : (directory.child a).text = (directory.child b).text) : a = b := by
  simp only [Path.text, Path.child, List.append_eq_nil_iff, List.cons_ne_nil, and_false,
    if_false] at h
  have hjoin := (String.append_right_inj _).mp h
  by_cases hparts : directory.parts = []
  · simpa [hparts] using hjoin
  · rw [String.intercalate_append_of_ne_nil hparts (List.cons_ne_nil a []),
      String.intercalate_append_of_ne_nil hparts (List.cons_ne_nil b [])] at hjoin
    simpa using (String.append_right_inj _).mp hjoin

theorem documentPath_injective (directory : Path) :
    Function.Injective (documentPath directory) := by
  intro a b h
  exact (String.append_left_inj ".d.ts").mp (text_child_injective h)

theorem path_of_yieldContract {directory : Path} {path : String} {abi : List Json.Value}
    {o : Output} (h : (Target.yieldContract directory path abi).result = .ok (some o)) :
    o.path = documentPath directory (contractName path) := by
  unfold Target.yieldContract at h
  dsimp only at h
  split at h
  case h_1 => cases h
  case h_2 =>
    split at h <;> cases h
    rfl

theorem path_of_outputAt? {directory : Path} {t : σ} {path : String} {o : Output}
    (h : outputAt? (.declarations directory) t path = some o) :
    o.path = documentPath directory (contractName path) := by
  unfold outputAt? yieldFile at h
  split at h
  case h_1 => cases h
  case h_2 made hresult =>
    subst h
    split at hresult
    case h_1 => cases hresult
    case h_2 contents _ =>
      simp only [Target.yield] at hresult
      split at hresult
      case h_1 => cases hresult
      case h_2 => cases hresult
      case h_3 => exact path_of_yieldContract hresult

/-- The stems of the files that give an output, in order. -/
def madeStems (target : Target) (t : σ) (paths : List String) : List String :=
  (paths.filter fun path ↦ (outputAt? target t path).isSome).map contractName

theorem paths_filterMap_outputAt? {directory : Path} {t : σ} (paths : List String) :
    (paths.filterMap (outputAt? (.declarations directory) t)).map (·.path) =
      (madeStems (.declarations directory) t paths).map (documentPath directory) := by
  induction paths with
  | nil => rfl
  | cons path rest ih =>
      unfold madeStems at ih ⊢
      cases houtput : outputAt? (.declarations directory) t path with
      | none => simpa [houtput] using ih
      | some o => simpa [houtput, path_of_outputAt? houtput] using ih

/-! ## Runs -/

theorem outputAt?_eq_some_iff {s : Session} {t : σ} {path : String} {o : Output} :
    outputAt? s.target t path = some o ↔ (s.generateFile t path).2 = .ok (some o) := by
  unfold outputAt? Session.generateFile
  cases hresult : (yieldFile s.target t path).result <;> simp [hresult]

theorem generate_eq_ok {s : Session} {t : σ} {paths : List String} {outputs : List Output}
    (h : (s.generate t paths).2 = .ok outputs) :
    outputs = putOutputs (paths.filterMap (outputAt? s.target t) ++ s.target.closing) [] := by
  rw [Session.generate_of_forall (Session.exists_ok_generate_iff.mp ⟨outputs, h⟩),
    ← putOutputs_append] at h
  exact (Except.ok.inj h).symm

/-- Of the outputs with one path a run keeps the last, and the shared document in any case. It
keeps every document of a file, and so one output more than there are such files, just when
their stems are distinct and none of them is that of the shared document. -/
theorem generate_keeps_outputs_iff {s : Session} {directory : Path}
    (hs : s.target = .declarations directory) {t : FileTree} {paths : List String}
    {outputs : List Output} (h : (s.generate t paths).2 = .ok outputs) :
    (outputs.map (·.path)).Nodup ∧
      (∀ path, contentsAt? path outputs = contentsAt? path
        (paths.filterMap (outputAt? s.target t) ++ s.target.closing).reverse) ∧
      contentsAt? (documentPath directory "types") outputs = some TypeScript.sharedDocument ∧
      ((∀ path ∈ paths, ∀ o, (s.generateFile t path).2 = .ok (some o) →
          contentsAt? o.path outputs = some o.contents) ∧
        outputs.length = (madeStems s.target t paths).length + 1 ↔
        (madeStems s.target t paths).Nodup ∧ "types" ∉ madeStems s.target t paths) := by
  have hshared : s.target.closing =
      [⟨documentPath directory "types", TypeScript.sharedDocument⟩] := by
    rw [hs]
    rfl
  have hpaths : (paths.filterMap (outputAt? s.target t) ++ s.target.closing).map (·.path) =
      (madeStems s.target t paths ++ ["types"]).map (documentPath directory) := by
    rw [List.map_append, List.map_append, hshared, hs, paths_filterMap_outputAt?]
    rfl
  have hnodup : ((paths.filterMap (outputAt? s.target t) ++ s.target.closing).map
      (·.path)).Nodup ↔
        (madeStems s.target t paths).Nodup ∧ "types" ∉ madeStems s.target t paths := by
    rw [hpaths, List.nodup_map_iff (documentPath_injective directory), List.nodup_append']
    simp
  have hlength : (paths.filterMap (outputAt? s.target t) ++ s.target.closing).length =
      (madeStems s.target t paths).length + 1 := by
    simpa using congrArg List.length hpaths
  obtain rfl := generate_eq_ok h
  have hlast := fun path ↦
    contentsAt?_putOutputs path (paths.filterMap (outputAt? s.target t) ++ s.target.closing) []
  simp only [show ∀ path, contentsAt? path [] = none from fun _ ↦ rfl, Option.or_none] at hlast
  refine ⟨nodup_paths_putOutputs _ List.nodup_nil, hlast, ?_, ?_⟩
  · rw [hlast, List.reverse_append, hshared, List.reverse_singleton, List.singleton_append,
      contentsAt?_cons, if_pos rfl]
  · rw [← hlength, ← hnodup, ← length_putOutputs_iff]
    refine ⟨And.right, fun hkept ↦ ⟨fun path hpath o ho ↦ ?_, hkept⟩⟩
    have hall := length_putOutputs_iff.mp hkept
    have heq : putOutputs (paths.filterMap (outputAt? s.target t) ++ s.target.closing) [] =
      [] ++ (paths.filterMap (outputAt? s.target t) ++ s.target.closing) := putOutputs_of_nodup hall
    rw [heq, List.nil_append]
    refine contentsAt?_of_mem hall (List.mem_append_left _ ?_)
    exact List.mem_filterMap.mpr ⟨path, hpath, outputAt?_eq_some_iff.mpr ho⟩

/-- Two files have the same name, in different directories. -/
def tokenTree : FileTree where
  entries := [(["a"], .directory), (["b"], .directory),
    (["a", "Token.json"], .file (asciiBytes "[\x7b\x22name\x22:\x22f\x22\x7d]".toList)),
    (["b", "Token.json"], .file (asciiBytes "[\x7b\x22name\x22:\x22g\x22\x7d]".toList)),
    (["b", "Vault.json"], .file (asciiBytes "[\x7b\x22name\x22:\x22g\x22\x7d]".toList))]
  workDir := []

theorem generate_keeps_outputs_of_tokenTree :
    ∃ outputs, (typesSession.generate tokenTree ["a/Token.json", "b/Vault.json"]).2 = .ok outputs ∧
      outputs.length = 3 := by
  have hstops : ∀ path ∈ ["a/Token.json", "b/Vault.json"],
      stopsAt typesSession.target tokenTree path = false := by
    decide +kernel
  have hstems : madeStems typesSession.target tokenTree ["a/Token.json", "b/Vault.json"] =
      ["Token", "Vault"] := by
    decide +kernel
  obtain ⟨outputs, h⟩ := Session.exists_ok_generate_iff.mpr hstops
  obtain ⟨_, _, _, hkeeps⟩ := generate_keeps_outputs_iff (s := typesSession) rfl h
  rw [hstems] at hkeeps
  exact ⟨outputs, h, (hkeeps.mpr ⟨by decide, by decide⟩).2⟩

/-- The document of the first file is lost to that of the second. -/
theorem generate_loses_output_of_tokenTree :
    ∃ outputs o,
      (typesSession.generate tokenTree ["a/Token.json", "b/Token.json"]).2 = .ok outputs ∧
        (typesSession.generateFile tokenTree "a/Token.json").2 = .ok (some o) ∧
        contentsAt? o.path outputs ≠ some o.contents ∧ outputs.length = 2 := by
  have hstops : ∀ path ∈ ["a/Token.json", "b/Token.json"],
      stopsAt typesSession.target tokenTree path = false := by
    decide +kernel
  have hmade : (outputAt? typesSession.target tokenTree "a/Token.json").isSome = true := by
    decide +kernel
  obtain ⟨outputs, h⟩ := Session.exists_ok_generate_iff.mpr hstops
  obtain ⟨o, ho⟩ := Option.isSome_iff_exists.mp hmade
  obtain rfl := generate_eq_ok h
  refine ⟨_, o, h, outputAt?_eq_some_iff.mp ho, ?_, by decide +kernel⟩
  have hlost : (outputAt? typesSession.target tokenTree "a/Token.json").all (fun o ↦
      contentsAt? o.path (putOutputs (["a/Token.json", "b/Token.json"].filterMap
        (outputAt? typesSession.target tokenTree) ++ typesSession.target.closing) []) !=
          some o.contents) = true := by
    decide +kernel
  rw [ho] at hlost
  simpa using hlost

end AbiTypings.Run
