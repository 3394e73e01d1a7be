import AbiTypings.Proofs.Run.Outputs

/-!
# Files do not influence each other

What a run gives depends on the files that give an output, one by one, and not on what the session
has been through. Files that fail and files without entries may be left out. Where no two
documents share a path, the order of the files decides nothing but the order of the outputs.
-/

namespace AbiTypings.Run

/-! ## Files that give an output -/

/-- Whether the file at a path holds an ABI without entries. -/
def holdsEmptyAbi (t : FileTree) (path : String) : Bool :=
  match readText t path with
  | .error _ => false
  | .ok contents =>
    match Abi.ofText contents with
    | .ok [] => true
    | _ => false

/-- The files that neither fail nor hold an ABI without entries. -/
def productive (target : Target) (t : FileTree) (paths : List String) : List String :=
  paths.filter fun path ↦ !failsAt target t path && !holdsEmptyAbi t path

theorem result_yieldContract_ne_none (directory : Path) (path : String)
    (abi : List Json.Value) : (Target.yieldContract directory path abi).result ≠ .ok none := by
  unfold Target.yieldContract
  dsimp only
  split
  case h_1 => simp
  case h_2 => split <;> simp

theorem isSome_outputAt? (directory : Path) (t : FileTree) (path : String) :
    (outputAt? (.declarations directory) t path).isSome =
      (!failsAt (.declarations directory) t path && !holdsEmptyAbi t path) := by
  unfold outputAt? failsAt problemAt? yieldFile holdsEmptyAbi
  cases readText t path with
  | error p => rfl
  | ok contents =>
      simp only [Target.yield]
      rcases habi : Abi.ofText contents with p | (_ | ⟨e, rest⟩)
      · rfl
      · rfl
      · have hnone := result_yieldContract_ne_none directory path (e :: rest)
        rcases hresult : (Target.yieldContract directory path (e :: rest)).result with
          p | (_ | o)
        · simp
        · exact absurd hresult hnone
        · simp

variable {directory : Path} {t : FileTree}

theorem filterMap_productive (paths : List String) :
    (productive (.declarations directory) t paths).filterMap
        (outputAt? (.declarations directory) t) =
      paths.filterMap (outputAt? (.declarations directory) t) := by
  rw [productive, List.filterMap_filter]
  refine List.filterMap_congr fun path _ ↦ ?_
  rw [← isSome_outputAt?]
  cases outputAt? (.declarations directory) t path <;> rfl

theorem madeStems_eq (paths : List String) : madeStems (.declarations directory) t paths =
    (productive (.declarations directory) t paths).map contractName := by
  simp only [madeStems, productive, isSome_outputAt?]

/-! ## The order of the files -/

theorem contentsAt?_eq_some_iff {path contents : String} {outputs : List Output}
    (hnodup : (outputs.map (·.path)).Nodup) :
    contentsAt? path outputs = some contents ↔ ⟨path, contents⟩ ∈ outputs := by
  constructor
  · intro h
    obtain ⟨o, hfound, rfl⟩ := Option.map_eq_some_iff.mp h
    obtain rfl : o.path = path := by simpa using List.find?_some hfound
    exact List.mem_of_find?_eq_some hfound
  · exact contentsAt?_of_mem hnodup

theorem contentsAt?_perm {a b : List Output} (h : a.Perm b) (hnodup : (b.map (·.path)).Nodup)
    (path : String) : contentsAt? path a = contentsAt? path b := by
  have hnodup' : (a.map (·.path)).Nodup := (h.map _).nodup_iff.mpr hnodup
  refine Option.ext fun contents ↦ ?_
  rw [contentsAt?_eq_some_iff hnodup', contentsAt?_eq_some_iff hnodup, h.mem_iff]

theorem closing_declarations (directory : Path) : (Target.declarations directory).closing =
    [⟨documentPath directory "types", TypeScript.sharedDocument⟩] := rfl

/-- The paths of all outputs of a run are distinct if the stems are, with that of the shared
document among them. -/
theorem nodup_made_paths {paths : List String}
    (hnodup : (madeStems (.declarations directory) t paths).Nodup)
    (htypes : "types" ∉ madeStems (.declarations directory) t paths) :
    ((paths.filterMap (outputAt? (.declarations directory) t) ++
      (Target.declarations directory).closing).map (·.path)).Nodup := by
  have hstems : (madeStems (.declarations directory) t paths ++ ["types"]).Nodup :=
    hnodup.append (List.nodup_singleton _) (List.disjoint_singleton.mpr htypes)
  rw [List.map_append, paths_filterMap_outputAt?, closing_declarations]
  have hpaths := hstems.map (documentPath_injective directory)
  rwa [List.map_append] at hpaths

/-- Files that give no output can be left out, and the history of the session can be forgotten.
Where the stems are distinct and none is that of the shared document, the files can be taken in
any order: the same outputs come out, the shared document last. -/
theorem generate_independent {s : Session} (hs : s.target = .declarations directory)
    {paths : List String} {outputs : List Output} (h : (s.generate t paths).2 = .ok outputs) :
    ((Session.start (.declarations directory)).generate t
        (productive (.declarations directory) t paths)).2 = .ok outputs ∧
      (((productive (.declarations directory) t paths).map contractName).Nodup →
        "types" ∉ (productive (.declarations directory) t paths).map contractName →
        ∀ (other : Session) (order : List String), other.target = .declarations directory →
          order.Perm paths →
          ∃ outputs', (other.generate t order).2 = .ok outputs' ∧ outputs'.Perm outputs ∧
            (∀ path, contentsAt? path outputs' = contentsAt? path outputs) ∧
            outputs'.getLast? =
              some ⟨documentPath directory "types", TypeScript.sharedDocument⟩) := by
  have hgoes := Session.exists_ok_generate_iff.mp ⟨outputs, h⟩
  have houtputs := generate_eq_ok h
  rw [hs] at hgoes houtputs
  refine ⟨?_, fun hnodup htypes other order hother hperm ↦ ?_⟩
  · have hkept : ∀ path ∈ productive (.declarations directory) t paths,
        stopsAt (Session.start (.declarations directory)).target t path = false :=
      fun path hpath ↦ hgoes path (List.mem_of_mem_filter hpath)
    rw [Session.generate_of_forall hkept, houtputs, ← putOutputs_append]
    exact congrArg (fun made ↦ Except.ok (putOutputs (made ++ _) [])) (filterMap_productive paths)
  · rw [← madeStems_eq] at hnodup htypes
    have hpaths := nodup_made_paths hnodup htypes
    have hmade : (order.filterMap (outputAt? (.declarations directory) t) ++
        (Target.declarations directory).closing).Perm
          (paths.filterMap (outputAt? (.declarations directory) t) ++
            (Target.declarations directory).closing) :=
      (hperm.filterMap _).append_right _
    obtain ⟨outputs', h'⟩ : ∃ outputs', (other.generate t order).2 = .ok outputs' := by
      refine Session.exists_ok_generate_iff.mpr fun path hpath ↦ ?_
      rw [hother]
      exact hgoes path (hperm.mem_iff.mp hpath)
    have houtputs' := generate_eq_ok h'
    rw [hother] at houtputs'
    -- With distinct paths every output is put behind the others.
    have hall : outputs = paths.filterMap (outputAt? (.declarations directory) t) ++
        (Target.declarations directory).closing := by
      rw [houtputs, putOutputs_eq_self hpaths]
    have hall' : outputs' = order.filterMap (outputAt? (.declarations directory) t) ++
        (Target.declarations directory).closing := by
      rw [houtputs', putOutputs_eq_self ((hmade.map _).nodup_iff.mpr hpaths)]
    refine ⟨outputs', h', ?_, fun path ↦ ?_, ?_⟩
    · rw [hall, hall']
      exact hmade
    · rw [hall, hall']
      exact contentsAt?_perm hmade hpaths path
    · rw [hall', closing_declarations, List.getLast?_concat]

/-- One file fails and one has no entries. -/
def sparseTree : FileTree where
  entries := [(["Token.json"], .file (asciiBytes "[\x7b\x22name\x22:\x22f\x22\x7d]".toList)),
    (["Empty.json"], .file (asciiBytes "[]".toList)),
    (["Vault.json"], .file (asciiBytes "[\x7b\x22name\x22:\x22g\x22\x7d]".toList))]
  workDir := []

theorem generate_independent_sparse :
    ∃ outputs outputs',
      (typesSession.generate sparseTree
        ["Vault.json", "missing.json", "Empty.json", "Token.json"]).2 = .ok outputs ∧
      (typesSession.generate sparseTree ["Vault.json", "Token.json"]).2 = .ok outputs ∧
      (typesSession.generate sparseTree
        ["Empty.json", "Token.json", "Vault.json", "missing.json"]).2 = .ok outputs' ∧
      outputs'.Perm outputs ∧ outputs.length = 3 := by
  have hstops : ∀ path ∈ ["Vault.json", "missing.json", "Empty.json", "Token.json"],
      stopsAt typesSession.target sparseTree path = false := by
    decide +kernel
  have hkept : productive (.declarations ⟨.relative, ["types"]⟩) sparseTree
      ["Vault.json", "missing.json", "Empty.json", "Token.json"] =
        ["Vault.json", "Token.json"] := by
    decide +kernel
  have hlength : (putOutputs
      (["Vault.json", "missing.json", "Empty.json", "Token.json"].filterMap
        (outputAt? typesSession.target sparseTree) ++ typesSession.target.closing)
      []).length = 3 := by
    decide +kernel
  obtain ⟨outputs, h⟩ := Session.exists_ok_generate_iff.mpr hstops
  obtain ⟨hfresh, horder⟩ := generate_independent (s := typesSession) rfl h
  rw [hkept] at hfresh horder
  obtain ⟨outputs', h', hperm, _⟩ := horder (by decide +kernel) (by decide +kernel) typesSession
    ["Empty.json", "Token.json", "Vault.json", "missing.json"] rfl (by decide)
  exact ⟨outputs, outputs', h, hfresh, h', hperm, generate_eq_ok h ▸ hlength⟩

end AbiTypings.Run
