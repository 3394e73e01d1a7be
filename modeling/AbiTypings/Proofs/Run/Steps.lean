import AbiTypings.Run.Generate
import AbiTypings.Proofs.Abi.Partition

/-!
# A run, file by file

What a run does with a file follows from the target, the storage and the path alone: the file
may give an output, or fail, or stop the run. A run over files none of which stops it settles one
after the other, and every failure is reported once.
-/

namespace AbiTypings.Run

variable {σ : Type} [Storage σ]

/-! ## One file -/

/-- The problem with the file at a path, if there is one. -/
def problemAt? (target : Target) (t : σ) (path : String) : Option Problem :=
  match (yieldFile target t path).result with
  | .error p => some p
  | .ok _ => none

def outputAt? (target : Target) (t : σ) (path : String) : Option Output :=
  match (yieldFile target t path).result with
  | .error _ => none
  | .ok o => o

def failsAt (target : Target) (t : σ) (path : String) : Bool :=
  (problemAt? target t path).isSome

/-- Whether the file has a problem that is not contained. -/
def stopsAt (target : Target) (t : σ) (path : String) : Bool :=
  (problemAt? target t path).any (!·.isContained)

/-- The notice that the file at a path failed, if it did. -/
def failureAt? (target : Target) (t : σ) (path : String) : Option Notice :=
  (problemAt? target t path).map fun p ↦ ⟨.failure p.label p.message, path⟩

theorem stopsAt_iff {target : Target} {t : σ} {path : String} :
    stopsAt target t path = true ↔
      ∃ p, (yieldFile target t path).result = .error p ∧ p.isContained = false := by
  unfold stopsAt problemAt?
  cases (yieldFile target t path).result <;> simp

def putOutputs (made outputs : List Output) : List Output :=
  made.foldl (fun outs o ↦ putOutput o outs) outputs

theorem putOutputs_append (made more outputs : List Output) :
    putOutputs (made ++ more) outputs = putOutputs more (putOutputs made outputs) :=
  List.foldl_append

/-! ## Remarks that are no failures -/

/-- The notices of files that failed. -/
def failures (notices : List Notice) : List Notice := notices.filter (·.remark.code == "E001")

theorem failures_append (a b : List Notice) : failures (a ++ b) = failures a ++ failures b :=
  List.filter_append a b

theorem code_ne_of_remarkOn? {e : Json.Value} {r : Remark} (h : Abi.remarkOn? e = some r) :
    r.code ≠ "E001" := by
  unfold Abi.remarkOn? at h
  split_ifs at h <;> cases h <;> simp [Remark.code]

theorem code_ne_of_mem_readContract {abi : List Json.Value} {rawName : String} {r : Remark}
    (h : r ∈ (Abi.readContract abi rawName).1) : r.code ≠ "E001" := by
  obtain ⟨e, _, he⟩ := Abi.exists_of_mem_readContract h
  exact code_ne_of_remarkOn? he

theorem remarks_yieldContract (directory : Path) (path : String) (abi : List Json.Value) :
    (Target.yieldContract directory path abi).remarks =
      (Abi.readContract abi (contractName path)).1 := by
  unfold Target.yieldContract
  dsimp only
  split
  case h_1 remarks _ hread => rw [hread]
  case h_2 remarks _ hread =>
    rw [hread]
    split <;> rfl

theorem code_ne_of_mem_yieldFile {target : Target} {t : σ} {path : String} {r : Remark}
    (h : r ∈ (yieldFile target t path).remarks) : r.code ≠ "E001" := by
  unfold yieldFile at h
  split at h
  case h_1 => cases h
  case h_2 contents _ =>
    cases target with
    | unsupported => cases h
    | declarations directory =>
        simp only [Target.yield] at h
        split at h
        case h_1 => cases h
        case h_2 =>
          obtain rfl := List.mem_singleton.mp h
          simp [Remark.code]
        case h_3 =>
          rw [remarks_yieldContract] at h
          exact code_ne_of_mem_readContract h

theorem failures_note (s : Session) (target : Target) (t : σ) (path : String) :
    failures (s.note path (yieldFile target t path).remarks).notices = failures s.notices := by
  rw [Session.note, failures_append, List.append_right_eq_self, failures, List.filter_eq_nil_iff]
  intro n hn
  obtain ⟨r, hr, rfl⟩ := List.mem_map.mp hn
  simpa using code_ne_of_mem_yieldFile hr

/-! ## A session that goes on -/

namespace Session

/-- The session after a file that does not stop the run. -/
def settle (t : σ) (s : Session) (path : String) : Session :=
  let noted := s.note path (yieldFile s.target t path).remarks
  match problemAt? s.target t path with
  | some p => noted.fail path p
  | none => noted

variable {s : Session} {t : σ} {path : String}

@[simp] theorem target_settle (s : Session) (t : σ) (path : String) :
    (s.settle t path).target = s.target := by
  unfold settle
  cases problemAt? s.target t path <;> rfl

theorem failed_settle (s : Session) (t : σ) (path : String) :
    (s.settle t path).failed = s.failed ++ [path].filter (failsAt s.target t) := by
  unfold settle
  cases hproblem : problemAt? s.target t path with
  | none => simp [note, failsAt, hproblem]
  | some p => simp [note, fail, failsAt, hproblem]

theorem failures_settle (s : Session) (t : σ) (path : String) :
    failures (s.settle t path).notices =
      failures s.notices ++ (failureAt? s.target t path).toList := by
  have hnote := failures_note s s.target t path
  unfold settle failureAt?
  cases hproblem : problemAt? s.target t path with
  | none => simpa using hnote
  | some p =>
      simp only [fail, failures_append, hnote, Option.map_some, Option.toList_some]
      rfl

theorem target_foldl_settle (paths : List String) :
    (paths.foldl (settle t) s).target = s.target := by
  induction paths generalizing s with
  | nil => rfl
  | cons path rest ih => rw [List.foldl_cons, ih, target_settle]

theorem failed_foldl_settle (paths : List String) :
    (paths.foldl (settle t) s).failed = s.failed ++ paths.filter (failsAt s.target t) := by
  induction paths generalizing s with
  | nil => simp
  | cons path rest ih =>
      rw [List.foldl_cons, ih, failed_settle, target_settle, List.append_assoc,
        ← List.filter_append, List.singleton_append]

theorem failures_foldl_settle (paths : List String) :
    failures (paths.foldl (settle t) s).notices =
      failures s.notices ++ paths.filterMap (failureAt? s.target t) := by
  induction paths generalizing s with
  | nil => simp
  | cons path rest ih =>
      rw [List.foldl_cons, ih, failures_settle, target_settle, List.append_assoc]
      cases hfailure : failureAt? s.target t path <;> simp [hfailure]

/-! ## Steps and runs -/

theorem generateOnto_cons (outputs : List Output) (rest : List String)
    (h : stopsAt s.target t path = false) :
    s.generateOnto t outputs (path :: rest) =
      (s.settle t path).generateOnto t
        (putOutputs (outputAt? s.target t path).toList outputs) rest := by
  rw [generateOnto]
  unfold generateFile settle outputAt?
  unfold stopsAt at h
  cases hresult : (yieldFile s.target t path).result with
  | ok made => cases made <;> simp [problemAt?, hresult, putOutputs]
  | error p =>
      have hcontained : p.isContained = true := by simpa [problemAt?, hresult] using h
      simp [problemAt?, hresult, hcontained, putOutputs]

theorem generateOnto_cons_of_stopsAt (outputs : List Output) (rest : List String)
    (h : stopsAt s.target t path = true) :
    ∃ p, problemAt? s.target t path = some p ∧ s.generateOnto t outputs (path :: rest) =
      (s.note path (yieldFile s.target t path).remarks, .error p) := by
  obtain ⟨p, hresult, hcontained⟩ := stopsAt_iff.mp h
  refine ⟨p, by simp [problemAt?, hresult], ?_⟩
  rw [generateOnto]
  simp [generateFile, hresult, hcontained]

/-- A run settles the files before the first one that stops it. -/
theorem generateOnto_append (outputs : List Output) {before : List String} (rest : List String)
    (h : ∀ path ∈ before, stopsAt s.target t path = false) :
    s.generateOnto t outputs (before ++ rest) =
      (before.foldl (settle t) s).generateOnto t
        (putOutputs (before.filterMap (outputAt? s.target t)) outputs) rest := by
  induction before generalizing s outputs with
  | nil => rfl
  | cons path before ih =>
      have hbefore : ∀ p ∈ before, stopsAt (s.settle t path).target t p = false := by
        intro p hp
        rw [target_settle]
        exact h p (List.mem_cons_of_mem _ hp)
      rw [List.cons_append, generateOnto_cons _ _ (h path List.mem_cons_self), ih _ hbefore,
        target_settle, ← putOutputs_append, List.foldl_cons]
      cases houtput : outputAt? s.target t path <;> simp [houtput]

theorem generate_of_forall {paths : List String}
    (h : ∀ path ∈ paths, stopsAt s.target t path = false) :
    s.generate t paths = (paths.foldl (settle t) s, .ok (putOutputs s.target.closing
      (putOutputs (paths.filterMap (outputAt? s.target t)) []))) := by
  have hrun := generateOnto_append [] [] h
  rw [List.append_nil] at hrun
  rw [generate, hrun, generateOnto, target_foldl_settle]
  rfl

theorem exists_ok_generate_iff {paths : List String} :
    (∃ outputs, (s.generate t paths).2 = .ok outputs) ↔
      ∀ path ∈ paths, stopsAt s.target t path = false := by
  constructor
  · rintro ⟨outputs, hok⟩
    by_contra hstops
    push Not at hstops
    -- The first file that stops the run is reached, and its problem is the result.
    obtain ⟨path, hfirst⟩ : ∃ path, paths.find? (stopsAt s.target t) = some path := by
      rw [← Option.isSome_iff_exists, List.find?_isSome]
      simpa using hstops
    obtain ⟨hpath, before, after, rfl, hbefore⟩ := List.find?_eq_some_iff_append.mp hfirst
    have hgoes : ∀ p ∈ before, stopsAt s.target t p = false := by simpa using hbefore
    rw [← target_foldl_settle (t := t) before] at hpath
    obtain ⟨p, _, hstop⟩ := generateOnto_cons_of_stopsAt
      (putOutputs (before.filterMap (outputAt? s.target t)) []) after hpath
    rw [generate, generateOnto_append [] (path :: after) hgoes, hstop] at hok
    cases hok
  · intro h
    exact ⟨_, by rw [generate_of_forall h]⟩

end Session

/-- A session at its start. The documents go to the directory `types`. -/
def typesSession : Session := .start (.declarations ⟨.relative, ["types"]⟩)

end AbiTypings.Run
