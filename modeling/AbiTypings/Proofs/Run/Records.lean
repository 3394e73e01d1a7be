import AbiTypings.CommandLine.Run
import AbiTypings.Proofs.Run.Steps
import AbiTypings.Proofs.Text.Plain
import Mathlib.Data.List.TakeWhile

/-!
# The records of a session

A session records a failure twice: the path joins the files that failed, and a notice joins the
report. Runs over files, runs over directories and single files may be asked of it in any order,
over trees that change in between, and a run may end early. The two records go together all the
same, so that the status of the command can be read off either of them.
-/

namespace AbiTypings.Run

open Report

/-! ## Notices of errors -/

theorem severity_eq_error_iff {r : Remark} : r.severity = .error ↔ r.code = "E001" := by
  cases r <;> simp [Remark.severity, Remark.code]

theorem errors_eq_failures (notices : List Notice) : errors notices = failures notices := by
  refine List.filter_congr fun n _ ↦ ?_
  rw [Bool.eq_iff_iff, beq_iff_eq, beq_iff_eq]
  exact severity_eq_error_iff

theorem file_of_failureAt? {target : Target} {t : FileTree} {path : String} {n : Notice}
    (h : failureAt? target t path = some n) : n.file = path := by
  obtain ⟨p, _, rfl⟩ := Option.map_eq_some_iff.mp h
  rfl

theorem map_file_filterMap_failureAt? (target : Target) (t : FileTree) (paths : List String) :
    (paths.filterMap (failureAt? target t)).map (·.file) = paths.filter (failsAt target t) := by
  induction paths with
  | nil => rfl
  | cons path rest ih =>
      cases hproblem : problemAt? target t path with
      | none => simpa [failureAt?, failsAt, hproblem] using ih
      | some p => simpa [failureAt?, failsAt, hproblem] using ih

/-! ## What a run reaches -/

/-- The files in front of the first one that stops the run. -/
def reached (target : Target) (t : FileTree) (paths : List String) : List String :=
  paths.takeWhile (!stopsAt target t ·)

namespace Session

variable {s : Session} {t : FileTree}

/-- A run settles the files that it reaches; of one that stops it the remarks are kept. -/
theorem generate_reached (s : Session) (t : FileTree) (paths : List String) :
    (s.generate t paths).1 = (reached s.target t paths).foldl (settle t) s ∨
      ∃ path, (s.generate t paths).1 =
        ((reached s.target t paths).foldl (settle t) s).note path
          (yieldFile s.target t path).remarks := by
  have hgoes : ∀ path ∈ reached s.target t paths, stopsAt s.target t path = false := by
    intro path hpath
    simpa using List.mem_takeWhile_imp hpath
  have hparts : reached s.target t paths ++ paths.dropWhile (!stopsAt s.target t ·) = paths :=
    List.takeWhile_append_dropWhile
  have hrun := generateOnto_append [] (paths.dropWhile (!stopsAt s.target t ·)) hgoes
  rw [hparts] at hrun
  rw [generate, hrun]
  cases hrest : paths.dropWhile (!stopsAt s.target t ·) with
  | nil => exact Or.inl rfl
  | cons path rest =>
      have hstops : stopsAt s.target t path = true := by
        have hhead := List.head_dropWhile_not (!stopsAt s.target t ·) (hrest ▸ List.cons_ne_nil _ _)
        simpa [hrest] using hhead
      rw [← target_foldl_settle (t := t) (reached s.target t paths)] at hstops
      obtain ⟨_, _, hstop⟩ := generateOnto_cons_of_stopsAt
        (putOutputs ((reached s.target t paths).filterMap (outputAt? s.target t)) []) rest hstops
      rw [target_foldl_settle] at hstop
      exact Or.inr ⟨path, by rw [hstop]⟩

theorem target_generate (paths : List String) : (s.generate t paths).1.target = s.target := by
  rcases generate_reached s t paths with h | ⟨path, h⟩
  · rw [h, target_foldl_settle]
  · rw [h]
    exact target_foldl_settle _

theorem failed_generate (paths : List String) : (s.generate t paths).1.failed =
    s.failed ++ (reached s.target t paths).filter (failsAt s.target t) := by
  rcases generate_reached s t paths with h | ⟨path, h⟩
  · rw [h, failed_foldl_settle]
  · rw [h]
    exact failed_foldl_settle _

theorem errors_generate (paths : List String) : errors (s.generate t paths).1.notices =
    errors s.notices ++ (reached s.target t paths).filterMap (failureAt? s.target t) := by
  rw [errors_eq_failures, errors_eq_failures]
  rcases generate_reached s t paths with h | ⟨path, h⟩
  · rw [h, failures_foldl_settle]
  · rw [h, failures_note, failures_foldl_settle]

theorem notices_prefix_settle (path : String) : s.notices <+: (s.settle t path).notices := by
  unfold settle
  cases problemAt? s.target t path with
  | none => exact List.prefix_append _ _
  | some p => exact (List.prefix_append _ _).trans (List.prefix_append _ _)

theorem notices_prefix_foldl_settle (paths : List String) :
    s.notices <+: (paths.foldl (settle t) s).notices := by
  induction paths generalizing s with
  | nil => exact List.prefix_refl _
  | cons path rest ih => exact (notices_prefix_settle path).trans ih

theorem notices_prefix_generate (paths : List String) :
    s.notices <+: (s.generate t paths).1.notices := by
  rcases generate_reached s t paths with h | ⟨path, h⟩
  · rw [h]
    exact notices_prefix_foldl_settle _
  · rw [h]
    exact (notices_prefix_foldl_settle _).trans (List.prefix_append _ _)

end Session

/-! ## Requests -/

/-- One request to a session, and the tree that it finds. -/
inductive Request where
  | files (t : FileTree) (paths : List String)
  | directory (t : FileTree) (directory pattern : String)
  | file (t : FileTree) (path : String)

namespace Request

def tree : Request → FileTree
  | files t _ => t
  | directory t _ _ => t
  | file t _ => t

/-- The files that a request settles: of a search that fails none, and of a single file nothing
is settled, since its problem is handed back. -/
def settled (target : Target) : Request → List String
  | files t paths => reached target t paths
  | directory t d pattern =>
    match t.filesUnder (.ofText d) pattern with
    | .error _ => []
    | .ok paths => reached target t (orderPaths paths)
  | file _ _ => []

/-- The failures that a request has to record. -/
def failures (target : Target) (r : Request) : List Notice :=
  (r.settled target).filterMap (failureAt? target r.tree)

theorem problemAt?_of_mem_failures {target : Target} {r : Request} {n : Notice}
    (h : n ∈ r.failures target) : (problemAt? target r.tree n.file).isSome = true := by
  obtain ⟨path, _, hfailure⟩ := List.mem_filterMap.mp h
  rw [file_of_failureAt? hfailure]
  obtain ⟨p, hproblem, _⟩ := Option.map_eq_some_iff.mp hfailure
  simp [hproblem]

end Request

/-- The session after a request, whether or not it ended in a problem. -/
def Session.serve (s : Session) : Request → Session
  | .files t paths => (s.generate t paths).1
  | .directory t d pattern => (s.generateDirectory t d pattern).1
  | .file t path => (s.generateFile t path).1

namespace Session

variable {s : Session}

theorem serve_directory (s : Session) (t : FileTree) (d pattern : String) :
    s.serve (.directory t d pattern) = s ∧
        (Request.directory t d pattern).settled s.target = [] ∨
      ∃ paths, s.serve (.directory t d pattern) = s.serve (.files t paths) ∧
        (Request.directory t d pattern).settled s.target =
          (Request.files t paths).settled s.target := by
  cases hfound : t.filesUnder (.ofText d) pattern with
  | error fault => exact Or.inl (by simp [serve, generateDirectory, Request.settled, hfound])
  | ok paths =>
      refine Or.inr ⟨orderPaths paths, ?_⟩
      simp [serve, generateDirectory, Request.settled, hfound]

theorem target_serve (r : Request) : (s.serve r).target = s.target := by
  cases r with
  | files t paths => exact target_generate paths
  | directory t d pattern =>
      rcases serve_directory s t d pattern with ⟨h, _⟩ | ⟨paths, h, _⟩
      · rw [h]
      · rw [h]
        exact target_generate paths
  | file t path => rfl

theorem notices_prefix_serve (r : Request) : s.notices <+: (s.serve r).notices := by
  cases r with
  | files t paths => exact notices_prefix_generate paths
  | directory t d pattern =>
      rcases serve_directory s t d pattern with ⟨h, _⟩ | ⟨paths, h, _⟩
      · exact ⟨[], by rw [h, List.append_nil]⟩
      · rw [h]
        exact notices_prefix_generate paths
  | file t path => exact List.prefix_append _ _

/-- Both records gain the failures of the settled files, and nothing else. -/
theorem records_serve (r : Request) :
    errors (s.serve r).notices = errors s.notices ++ r.failures s.target ∧
      (s.serve r).failed = s.failed ++ (r.failures s.target).map (·.file) := by
  have hfiles (t : FileTree) (paths : List String) :
      errors (s.serve (.files t paths)).notices =
          errors s.notices ++ (Request.files t paths).failures s.target ∧
        (s.serve (.files t paths)).failed =
          s.failed ++ ((Request.files t paths).failures s.target).map (·.file) := by
    refine ⟨errors_generate paths, ?_⟩
    rw [Request.failures, map_file_filterMap_failureAt?]
    exact failed_generate paths
  cases r with
  | files t paths => exact hfiles t paths
  | directory t d pattern =>
      rcases serve_directory s t d pattern with ⟨h, hsettled⟩ | ⟨paths, h, hsettled⟩
      · rw [h, Request.failures, hsettled]
        simp
      · rw [h, Request.failures, hsettled]
        exact hfiles t paths
  | file t path =>
      refine ⟨?_, (List.append_nil _).symm⟩
      rw [errors_eq_failures, errors_eq_failures]
      exact (failures_note s s.target t path).trans (List.append_nil _).symm

/-- The errors that have been noted are on the files that have failed. -/
def InStep (s : Session) : Prop := (errors s.notices).map (·.file) = s.failed

theorem inStep_start (target : Target) : (start target).InStep := rfl

theorem inStep_serve (h : s.InStep) (r : Request) : (s.serve r).InStep := by
  obtain ⟨herrors, hfailed⟩ := records_serve (s := s) r
  rw [InStep, herrors, hfailed, List.map_append, h]

theorem inStep_foldl_serve (h : s.InStep) (requests : List Request) :
    (requests.foldl serve s).InStep := by
  induction requests generalizing s with
  | nil => exact h
  | cons r rest ih => exact ih (inStep_serve h r)

theorem target_foldl_serve (requests : List Request) :
    (requests.foldl serve s).target = s.target := by
  induction requests generalizing s with
  | nil => rfl
  | cons r rest ih => rw [List.foldl_cons, ih, target_serve]

/-- A new session that has served some requests. -/
def after (target : Target) (requests : List Request) : Session :=
  requests.foldl serve (start target)

end Session

end AbiTypings.Run

namespace AbiTypings.CommandLine

open Run Report

/-! ## The status of the command -/

/-- What the command has noted on the files that its inputs name. -/
def noticesOf (a : Arguments) (t : FileTree) : List Notice :=
  match resolveInputs t a.pattern a.inputs, sessionFor a with
  | .ok paths, .ok s => (s.generate t paths).1.notices
  | _, _ => []

theorem status_finish {a : Arguments} {s : Session} {stdout stderr : String}
    {outputs : List Output} {t : FileTree} {n : Nat}
    (h : (finish a s stdout stderr outputs t).status = .ok n) : n = exitStatus s := by
  unfold finish at h
  dsimp only at h
  split_ifs at h
  exact (Except.ok.inj h).symm

theorem status_runOn {a : Arguments} {t : FileTree} {paths : List String} {n : Nat}
    (h : (runOn a t paths).status = .ok n) :
    ∃ s, sessionFor a = .ok s ∧ n = exitStatus (s.generate t paths).1 := by
  unfold runOn at h
  split at h
  case h_1 => cases h
  case h_2 s hs =>
    refine ⟨s, hs, ?_⟩
    split at h
    case h_1 => cases h
    case h_2 after outputs hrun =>
      rw [hrun]
      split_ifs at h
      · exact status_finish h
      · unfold storeOutputs at h
        dsimp only at h
        split at h
        · cases h
        · exact status_finish h

theorem exitStatus_eq_one_iff {s : Session} (h : s.InStep) :
    exitStatus s = 1 ↔ errors s.notices ≠ [] := by
  rw [exitStatus, ← h]
  cases errors s.notices <;> simp

theorem inStep_of_sessionFor {a : Arguments} {s : Session} (h : sessionFor a = .ok s) :
    s.InStep := by
  unfold sessionFor at h
  split at h <;> cases h
  exact Session.inStep_start _

theorem status_runWith {a : Arguments} {t : FileTree} {n : Nat}
    (h : (runWith a t).status = .ok n) :
    (n = 0 ∨ n = 1) ∧
      (n = 1 ↔ resolveInputs t a.pattern a.inputs = .ok [] ∨ errors (noticesOf a t) ≠ []) := by
  unfold runWith at h
  split at h
  case h_1 => cases h
  case h_2 hnone =>
    obtain rfl := Except.ok.inj h
    simp [hnone]
  case h_3 paths hne hpaths =>
    obtain ⟨s, hs, rfl⟩ := status_runOn h
    have hstep : (s.generate t paths).1.InStep :=
      Session.inStep_serve (inStep_of_sessionFor hs) (.files t paths)
    have hsome : resolveInputs t a.pattern a.inputs ≠ .ok [] := by
      rw [hpaths]
      exact fun hnil ↦ hne (Except.ok.inj hnil)
    refine ⟨?_, ?_⟩
    · unfold exitStatus
      split_ifs <;> simp
    · rw [exitStatus_eq_one_iff hstep, or_iff_right hsome, noticesOf, hpaths, hs]

/-- Whatever has been asked of a session, the errors noted are those of the failed files, in
order; a request only ever adds notices, and its errors are on files with a problem. The command
ends with status one if no input matched or an error was noted, and with zero otherwise. -/
theorem failure_records_agree (target : Target) (requests : List Request) :
    (errors (Session.after target requests).notices).map (·.file) =
        (Session.after target requests).failed ∧
      (∀ r : Request,
        (Session.after target requests).notices <+:
            ((Session.after target requests).serve r).notices ∧
          errors ((Session.after target requests).serve r).notices =
            errors (Session.after target requests).notices ++ r.failures target ∧
          ∀ n ∈ r.failures target, (problemAt? target r.tree n.file).isSome = true) ∧
      ∀ (a : Arguments) (t : FileTree) (n : Nat), (runWith a t).status = .ok n →
        (n = 0 ∨ n = 1) ∧
          (n = 1 ↔ resolveInputs t a.pattern a.inputs = .ok [] ∨
            errors (noticesOf a t) ≠ []) := by
  refine ⟨Session.inStep_foldl_serve (Session.inStep_start target) requests, fun r ↦ ?_,
    fun a t n h ↦ status_runWith h⟩
  have htarget : (Session.after target requests).target = target :=
    Session.target_foldl_serve requests
  have herrors := (Session.records_serve (s := Session.after target requests) r).1
  rw [htarget] at herrors
  exact ⟨Session.notices_prefix_serve r, herrors, fun n ↦ Request.problemAt?_of_mem_failures⟩

/-- The first file gives a document and a remark, and the second one fails. -/
def faultyTree : FileTree where
  entries := [(["a.json"], .file (asciiBytes "[\x7b\x22type\x22:\x22fallback\x22\x7d]".toList)),
    (["b.json"], .file (asciiBytes "?".toList))]
  workDir := []

def printFaulty : Arguments := ⟨["b.json", "a.json"], some "types", some ".", "*", true, true⟩

theorem failure_records_agree_faulty :
    (runWith printFaulty faultyTree).status = .ok 1 ∧
      errors (noticesOf printFaulty faultyTree) ≠ [] ∧
      (errors (Session.after typesSession.target
        [.files faultyTree ["b.json", "a.json"], .file faultyTree "b.json"]).notices).map (·.file) =
          ["b.json"] := by
  have hmatch : (resolveInputs faultyTree "*" ["b.json", "a.json"]).toOption =
      some ["a.json", "b.json"] := by
    decide +kernel
  have hdone : (runWith printFaulty faultyTree).status.toOption = some 1 := by decide +kernel
  have hstatus : (runWith printFaulty faultyTree).status = .ok 1 := by
    cases hrun : (runWith printFaulty faultyTree).status with
    | error p => simp [hrun, Except.toOption] at hdone
    | ok n => simpa [hrun, Except.toOption] using hdone
  obtain ⟨hrecords, _, hcommand⟩ := failure_records_agree typesSession.target
    [.files faultyTree ["b.json", "a.json"], .file faultyTree "b.json"]
  obtain ⟨_, hone⟩ := hcommand printFaulty faultyTree 1 hstatus
  refine ⟨hstatus, (hone.mp rfl).resolve_left fun hnone ↦ ?_, hrecords.trans ?_⟩
  · have hresolved : resolveInputs faultyTree "*" ["b.json", "a.json"] = .ok [] := hnone
    simp [hresolved, Except.toOption] at hmatch
  · decide +kernel

end AbiTypings.CommandLine
