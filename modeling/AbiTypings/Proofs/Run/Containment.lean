import AbiTypings.Proofs.Abi.OneInput
import AbiTypings.Proofs.Abi.Problems
import AbiTypings.Proofs.Run.Steps

/-!
# Failures are contained

A file that cannot be read, or whose contents are no ABI of a contract, fails and the run goes
on. Two things are not contained: a path with a NUL in it, and a number over the length limit in
a type string.
-/

namespace AbiTypings.Run

open Decimal Outcome Text

/-! ## Reading a file -/

theorem checkPath_eq_error_embeddedNul_iff {path : String} :
    FileTree.checkPath path = .error .embeddedNul ↔ '\x00' ∈ path.toList := by
  unfold FileTree.checkPath
  split_ifs <;> simp_all

theorem locate_eq_error_embeddedNul_iff {t : FileTree} {path : String} :
    t.locate path = .error .embeddedNul ↔ '\x00' ∈ path.toList := by
  rw [← checkPath_eq_error_embeddedNul_iff, FileTree.locate, bind_eq_error_iff]
  constructor
  · rintro (hcheck | ⟨_, _, hwalk⟩)
    · exact hcheck
    · obtain ⟨fault, _, hfault⟩ := mapError_eq_error_iff.mp hwalk
      cases hfault
  · exact Or.inl

theorem readFile_eq_error_embeddedNul_iff {t : FileTree} {path : String} :
    t.readFile path = .error .embeddedNul ↔ '\x00' ∈ path.toList := by
  rw [← locate_eq_error_embeddedNul_iff (t := t), FileTree.readFile, bind_eq_error_iff]
  constructor
  · rintro (hlocate | ⟨loc, _, hentry⟩)
    · exact hlocate
    · split at hentry <;> cases hentry
  · exact Or.inl

theorem readText_eq_error {t : FileTree} {path : String} {p : Problem}
    (h : readText t path = .error p) : p.isContained = false ↔ '\x00' ∈ path.toList := by
  rw [← readFile_eq_error_embeddedNul_iff (t := t)]
  rcases bind_eq_error_iff.mp h with hfile | ⟨bytes, hfile, h⟩
  · obtain ⟨fault, hfault, rfl⟩ := mapError_eq_error_iff.mp hfile
    rw [FileTree.storage_readFile] at hfault
    rw [hfault]
    cases fault <;> simp [Problem.ofPathFault, Problem.isContained, Problem.isAbiProblem]
  · rw [mapError_eq_ok_iff, FileTree.storage_readFile] at hfile
    rw [hfile]
    rcases bind_eq_error_iff.mp h with hdecode | ⟨cs, _, h⟩
    · obtain ⟨fault, _, rfl⟩ := mapError_eq_error_iff.mp hdecode
      simp [Problem.isContained]
    · cases h

theorem not_mem_of_readText_eq_ok {t : FileTree} {path contents : String}
    (h : readText t path = .ok contents) : '\x00' ∉ path.toList := by
  intro hnul
  obtain ⟨bytes, hfile, _⟩ := bind_eq_ok_iff.mp h
  cases (mapError_eq_ok_iff.mp hfile).symm.trans (readFile_eq_error_embeddedNul_iff.mpr hnul)

/-! ## Files that end a run -/

/-- A NUL stands in the path, or reading the contract comes upon a number over the limit. -/
def EndsRun (t : FileTree) (path : String) : Prop :=
  '\x00' ∈ path.toList ∨
    ∃ contents abi o, readText t path = .ok contents ∧ Abi.ofText contents = .ok abi ∧
      (Abi.readContract abi (contractName path)).2 = .error (.oversizedNumeral o)

theorem EndsRun.nul_or_longRun {t : FileTree} {path : String} (h : EndsRun t path) :
    '\x00' ∈ path.toList ∨ ∃ contents abi, readText t path = .ok contents ∧
      Abi.ofText contents = .ok abi ∧ ∃ e ∈ abi, Abi.EntryHasLongRun e := by
  refine h.imp_right ?_
  rintro ⟨contents, abi, o, hread, habi, hcontract⟩
  rcases Abi.comesFrom_of_readContract hcontract with hproblem | ⟨_, hrun⟩
  · cases hproblem
  · exact ⟨contents, abi, hread, habi, hrun⟩

theorem isContained_eq_false_iff_of_yieldContract {directory : Path} {path : String}
    {abi : List Json.Value} {p : Problem}
    (h : (Target.yieldContract directory path abi).result = .error p) :
    p.isContained = false ↔
      ∃ o, (Abi.readContract abi (contractName path)).2 = .error (.oversizedNumeral o) := by
  unfold Target.yieldContract at h
  dsimp only at h
  split at h
  case h_1 q hread =>
    cases h
    rw [hread, (Abi.comesFrom_of_readContract (by rw [hread])).isContained_eq_false_iff]
    simp
  case h_2 contract hread =>
    rw [hread]
    split at h <;> cases h
    simp [Problem.ofUnrecognized, Problem.isContained, Problem.isAbiProblem]

theorem result_yieldContract_of_eq_error {directory : Path} {path : String}
    {abi : List Json.Value} {p : Problem}
    (h : (Abi.readContract abi (contractName path)).2 = .error p) :
    (Target.yieldContract directory path abi).result = .error p := by
  unfold Target.yieldContract
  dsimp only
  split
  case h_1 hread =>
    rw [hread] at h
    exact congrArg _ (Except.error.inj h)
  case h_2 hread =>
    rw [hread] at h
    cases h

theorem exists_not_isContained_of_yield_iff {directory : Path} {path contents : String} :
    (∃ p, ((Target.declarations directory).yield path contents).result = .error p ∧
      p.isContained = false) ↔
      ∃ abi o, Abi.ofText contents = .ok abi ∧
        (Abi.readContract abi (contractName path)).2 = .error (.oversizedNumeral o) := by
  cases habi : Abi.ofText contents with
  | error q =>
      have hq : q.ComesFrom False := Abi.comesFrom_of_ofText habi
      have hcontained : q.isContained = true := by
        refine Problem.isContained_of_isAbiProblem (hq.resolve_right ?_)
        rintro ⟨_, hfalse⟩
        exact hfalse
      simp [Target.yield, habi, hcontained]
  | ok abi =>
      cases abi with
      | nil =>
          -- Without entries there is no type string that a number could stand in.
          have hnone (o) : (Abi.readContract [] (contractName path)).2 ≠
              .error (.oversizedNumeral o) := by
            intro hcontract
            rcases Abi.comesFrom_of_readContract hcontract with hproblem | ⟨_, e, he, _⟩
            · cases hproblem
            · cases he
          simp [Target.yield, habi, hnone]
      | cons e rest =>
          simp only [Target.yield, habi, Except.ok.injEq, exists_and_left, exists_eq_left']
          constructor
          · rintro ⟨p, hresult, hcontained⟩
            exact (isContained_eq_false_iff_of_yieldContract hresult).mp hcontained
          · rintro ⟨o, hcontract⟩
            exact ⟨_, result_yieldContract_of_eq_error hcontract, rfl⟩

theorem stopsAt_iff_endsRun {directory : Path} {t : FileTree} {path : String} :
    stopsAt (.declarations directory) t path = true ↔ EndsRun t path := by
  rw [stopsAt_iff, yieldFile]
  cases hread : readText t path with
  | error q => simp [EndsRun, hread, readText_eq_error hread]
  | ok contents =>
      have hnul := not_mem_of_readText_eq_ok hread
      simp only [EndsRun, hread, hnul, false_or, Except.ok.injEq, exists_eq_left',
        exists_and_left]
      rw [exists_not_isContained_of_yield_iff]
      simp

/-! ## A number that ends a run -/

variable {type : List Char} {o : Oversized}

theorem readContract_inputEntry_eq_error (hread : TypeString.read (String.ofList type) none =
      .error (.oversized o)) {rawName name : String} (hname : Abi.className rawName = .ok name) :
    (Abi.readContract [Abi.inputEntry type] rawName).2 = .error (.oversizedNumeral o) := by
  rw [Abi.readContract_inputEntry type hname, Abi.typeOfString, hread]
  rfl

/-- A file ends the run if the type of the only input of its only function does. -/
theorem endsRun_of_read_type {t : FileTree} {path name : String}
    (hquotable : type.all isQuotable = true)
    (hread : TypeString.read (String.ofList type) none = .error (.oversized o))
    (hfile : t.readFile path = .ok (asciiBytes (Abi.inputText type)))
    (hname : Abi.className (contractName path) = .ok name) : EndsRun t path := by
  have hplain := Abi.isPlain_inputText hquotable
  refine Or.inr ⟨String.ofList (Abi.inputText type), [Abi.inputEntry type], o, ?_,
    Abi.ofText_inputText hquotable, readContract_inputEntry_eq_error hread hname⟩
  rw [readText, FileTree.storage_readFile, hfile]
  simp [Except.mapError, decode_asciiBytes hplain, unifyNewlines_of_plain hplain, bind,
    Except.bind, pure, Except.pure]

/-- The first file has an input of a type with a number of 4301 digits. -/
def longTree : FileTree where
  entries :=
    [(["a.json"], .file (asciiBytes (Abi.inputText ("uint".toList ++ List.replicate 4301 '1')))),
      (["b.json"], .file (asciiBytes (Abi.inputText "bool".toList)))]
  workDir := []

theorem endsRun_longTree : EndsRun longTree "a.json" := by
  have hdigits : (List.replicate 4301 '1').all isAsciiDigit = true := by
    rw [List.all_replicate]
    decide
  have hquotable : ("uint".toList ++ List.replicate 4301 '1').all isQuotable = true := by
    rw [List.all_append, List.all_replicate]
    decide
  have hlong : maxNumeralLength < (List.replicate 4301 '1').length := by
    rw [List.length_replicate]
    decide
  have hchars : Abi.classNameChars (contractName "a.json").toList = ['A'] := by decide +kernel
  have hname : Abi.className (contractName "a.json") = .ok "A" := by
    rw [Abi.className, hchars]
  exact endsRun_of_read_type hquotable (TypeString.read_uint_of_lt hdigits hlong none) rfl hname

/-! ## Runs -/

variable {s : Session} {directory : Path}

/-- A run returns unless one of its files ends it. Then each file that failed is reported once and
recorded once, in order, and every output is put in, the closing ones last. A file that ends the
run is not recorded, and the files behind it are not reached. -/
theorem generate_contains_failures (hs : s.target = .declarations directory) (t : FileTree)
    (paths : List String) :
    ((∃ outputs, (s.generate t paths).2 = .ok outputs) ↔ ∀ path ∈ paths, ¬ EndsRun t path) ∧
      ((∀ path ∈ paths, ¬ EndsRun t path) →
        (s.generate t paths).2 = .ok (putOutputs s.target.closing
            (putOutputs (paths.filterMap (outputAt? s.target t)) [])) ∧
          (s.generate t paths).1.failed = s.failed ++ paths.filter (failsAt s.target t) ∧
          failures (s.generate t paths).1.notices =
            failures s.notices ++ paths.filterMap (failureAt? s.target t)) ∧
      (∀ before path after, paths = before ++ path :: after →
        (∀ q ∈ before, ¬ EndsRun t q) → EndsRun t path →
          (∃ p, problemAt? s.target t path = some p ∧ (s.generate t paths).2 = .error p) ∧
          (s.generate t paths).1.failed = s.failed ++ before.filter (failsAt s.target t) ∧
          failures (s.generate t paths).1.notices =
            failures s.notices ++ before.filterMap (failureAt? s.target t)) ∧
      ∀ path, EndsRun t path → '\x00' ∈ path.toList ∨ ∃ contents abi,
        readText t path = .ok contents ∧ Abi.ofText contents = .ok abi ∧
          ∃ e ∈ abi, Abi.EntryHasLongRun e := by
  have hgoes (path : String) : stopsAt s.target t path = false ↔ ¬ EndsRun t path := by
    rw [hs, Bool.eq_false_iff, Ne, stopsAt_iff_endsRun]
  refine ⟨?_, fun h ↦ ?_, ?_, fun path h ↦ h.nul_or_longRun⟩
  · simp only [Session.exists_ok_generate_iff, hgoes]
  · rw [Session.generate_of_forall fun path hpath ↦ (hgoes path).mpr (h path hpath)]
    exact ⟨rfl, Session.failed_foldl_settle paths, Session.failures_foldl_settle paths⟩
  · rintro before path after rfl hbefore hends
    have hstops : stopsAt (before.foldl (Session.settle t) s).target t path = true := by
      rw [Session.target_foldl_settle, hs]
      exact stopsAt_iff_endsRun.mpr hends
    obtain ⟨p, hproblem, hstop⟩ := Session.generateOnto_cons_of_stopsAt
      (putOutputs (before.filterMap (outputAt? s.target t)) []) after hstops
    rw [Session.target_foldl_settle] at hproblem
    rw [Session.generate, Session.generateOnto_append [] (path :: after)
      fun q hq ↦ (hgoes q).mpr (hbefore q hq), hstop]
    refine ⟨⟨p, hproblem, rfl⟩, ?_, ?_⟩
    · exact Session.failed_foldl_settle before
    · rw [failures_note, Session.failures_foldl_settle]

/-- One file that is not JSON. -/
def brokenTree : FileTree := ⟨[(["b.json"], .file (asciiBytes "?".toList))], []⟩

theorem generate_contains_failures_broken :
    (∃ outputs, (typesSession.generate brokenTree ["a.json", "b.json"]).2 = .ok outputs) ∧
      (typesSession.generate brokenTree ["a.json", "b.json"]).1.failed = ["a.json", "b.json"] := by
  have hstops : ∀ path ∈ ["a.json", "b.json"],
      stopsAt typesSession.target brokenTree path = false := by
    decide +kernel
  have hends : ∀ path ∈ ["a.json", "b.json"], ¬ EndsRun brokenTree path := by
    intro path hpath hends
    cases (stopsAt_iff_endsRun.mpr hends).symm.trans (hstops path hpath)
  obtain ⟨hreturns, hall, _⟩ :=
    generate_contains_failures (s := typesSession) rfl brokenTree ["a.json", "b.json"]
  refine ⟨hreturns.mpr hends, (hall hends).2.1.trans ?_⟩
  decide +kernel

/-- The second file is never reached, and the first is not recorded. -/
theorem generate_stops_at_longTree :
    (¬ ∃ outputs, (typesSession.generate longTree ["a.json", "b.json"]).2 = .ok outputs) ∧
      (typesSession.generate longTree ["a.json", "b.json"]).1.failed = [] := by
  have hstops : stopsAt typesSession.target longTree "a.json" = true :=
    stopsAt_iff_endsRun.mpr endsRun_longTree
  obtain ⟨p, _, hrun⟩ := Session.generateOnto_cons_of_stopsAt [] ["b.json"] hstops
  rw [Session.generate, hrun]
  exact ⟨by simp, rfl⟩

end AbiTypings.Run
