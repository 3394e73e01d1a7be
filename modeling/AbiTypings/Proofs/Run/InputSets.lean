import AbiTypings.Proofs.Run.Discovery

/-!
# Inputs taken together

The paths that inputs name are those that each of them names, in increasing order, so neither the
order of the inputs nor their repetition matters. A run over a directory is the run over the files
that the directory names as an input: the one sorts what the search finds, the other the set of
it, but the search finds nothing twice.
-/

namespace AbiTypings.Run

open FileTree Outcome AbiTypings.Path

variable {t : FileTree} {pattern directory : String} {inputs others paths a b : List String}

/-! ## Sorting once and sorting all -/

theorem eq_of_mem_iff (ha : a.Pairwise (· < ·)) (hb : b.Pairwise (· < ·))
    (h : ∀ path, path ∈ a ↔ path ∈ b) : a = b :=
  ha.sortedLT.eq_of_mem_iff hb.sortedLT h

theorem pairwise_orderPaths (h : paths.Nodup) : (orderPaths paths).Pairwise (· < ·) := by
  have hle : (orderPaths paths).Pairwise (· ≤ ·) := by
    refine (List.pairwise_mergeSort ?_ ?_ paths).imp of_decide_eq_true
    · intro x y z hxy hyz
      exact decide_eq_true ((of_decide_eq_true hxy).trans (of_decide_eq_true hyz))
    · intro x y
      rw [Bool.or_eq_true, decide_eq_true_eq, decide_eq_true_eq]
      exact le_total x y
  have hnodup : (orderPaths paths).Nodup := (List.mergeSort_perm paths _).nodup_iff.mpr h
  exact (hle.and hnodup).imp fun ⟨hle, hne⟩ ↦ lt_of_le_of_ne hle hne

/-- Where nothing is repeated, there is nothing to take out. -/
theorem orderPaths_eq_sortPaths (h : paths.Nodup) : orderPaths paths = sortPaths paths := by
  refine eq_of_mem_iff (pairwise_orderPaths h) (pairwise_sortPaths paths) fun path ↦ ?_
  rw [orderPaths, List.mem_mergeSort, mem_sortPaths_iff]

/-! ## Sets of inputs -/

/-- The list has the paths of both lists, in increasing order. -/
structure IsSortedUnion (a b union : List String) : Prop where
  sorted : union.Pairwise (· < ·)
  mem_iff : ∀ path, path ∈ union ↔ path ∈ a ∨ path ∈ b

theorem exists_resolveInputs_append (ha : resolveInputs t pattern inputs = .ok a)
    (hb : resolveInputs t pattern others = .ok b) :
    ∃ union, resolveInputs t pattern (inputs ++ others) = .ok union ∧ IsSortedUnion a b union := by
  obtain ⟨union, hunion⟩ : ∃ union, resolveInputs t pattern (inputs ++ others) = .ok union := by
    refine exists_resolveInputs_eq_ok_iff.mpr fun input hinput ↦ ?_
    rcases List.mem_append.mp hinput with hinput | hinput
    · exact exists_resolveInputs_eq_ok_iff.mp ⟨a, ha⟩ input hinput
    · exact exists_resolveInputs_eq_ok_iff.mp ⟨b, hb⟩ input hinput
  refine ⟨union, hunion, pairwise_resolveInputs hunion, fun path ↦ ?_⟩
  rw [mem_resolveInputs_iff hunion, mem_resolveInputs_iff ha, mem_resolveInputs_iff hb]
  simp only [List.mem_append, or_and_right, exists_or]

/-- Inputs that are the same but for their order and repetition name the same paths. -/
theorem resolveInputs_congr (hsame : ∀ input, input ∈ inputs ↔ input ∈ others)
    (ha : resolveInputs t pattern inputs = .ok a) :
    resolveInputs t pattern others = .ok a := by
  obtain ⟨b, hb⟩ : ∃ b, resolveInputs t pattern others = .ok b :=
    exists_resolveInputs_eq_ok_iff.mpr fun input hinput ↦
      exists_resolveInputs_eq_ok_iff.mp ⟨a, ha⟩ input ((hsame input).mpr hinput)
  rw [hb, eq_of_mem_iff (pairwise_resolveInputs hb) (pairwise_resolveInputs ha) fun path ↦ ?_]
  rw [mem_resolveInputs_iff hb, mem_resolveInputs_iff ha]
  simp only [hsame]

/-! ## A directory as an input -/

theorem resolveInputs_singleton_of_isDirectory
    (hdir : t.isDirectory (ofText directory).text = .ok true) :
    resolveInputs t pattern [directory] =
      match t.filesUnder (ofText directory) pattern with
      | .error fault => .error (.ofSearchFault (ofText directory).text fault)
      | .ok found => .ok (sortPaths found) := by
  rw [resolveInputs, List.mapM_cons, filesOf_of_isDirectory hdir]
  cases t.filesUnder (ofText directory) pattern with
  | error fault => rfl
  | ok found => simp [Except.mapError, bind, Except.bind, pure, Except.pure]

/-- A run over the files that some inputs name. -/
def Session.generateInputs (s : Session) (t : FileTree) (pattern : String)
    (inputs : List String) : Session × Except Problem (List Output) :=
  match resolveInputs t pattern inputs with
  | .error p => (s, .error p)
  | .ok paths => s.generate t paths

theorem generateDirectory_eq_generateInputs (h : t.IsSound)
    (hdir : t.isDirectory (ofText directory).text = .ok true) (s : Session) :
    s.generateDirectory t directory pattern = s.generateInputs t pattern [directory] := by
  rw [Session.generateDirectory, Session.generateInputs,
    resolveInputs_singleton_of_isDirectory hdir]
  cases hfound : t.filesUnder (ofText directory) pattern with
  | error fault => rfl
  | ok found =>
      have hnodup := nodup_filesUnder h (isNormal_ofText directory) hfound
      simp only [orderPaths_eq_sortPaths hnodup]

/-- Inputs name a sorted set of paths: that of several lists of inputs is the union of theirs, and
order and repetition of inputs do not matter. A run over a directory, with what it gives and what
it leaves in the session, is the run over that directory as the only input. -/
theorem resolveInputs_unites (h : t.IsSound) (pattern : String) :
    (∀ inputs paths, resolveInputs t pattern inputs = .ok paths → paths.Pairwise (· < ·)) ∧
      (∀ inputs others a b, resolveInputs t pattern inputs = .ok a →
        resolveInputs t pattern others = .ok b →
          ∃ union, resolveInputs t pattern (inputs ++ others) = .ok union ∧
            IsSortedUnion a b union) ∧
      (∀ inputs others a, (∀ input, input ∈ inputs ↔ input ∈ others) →
        resolveInputs t pattern inputs = .ok a → resolveInputs t pattern others = .ok a) ∧
      ∀ directory, t.isDirectory (ofText directory).text = .ok true → ∀ s : Session,
        s.generateDirectory t directory pattern = s.generateInputs t pattern [directory] :=
  ⟨fun _ _ hpaths ↦ pairwise_resolveInputs hpaths,
    fun _ _ _ _ ha hb ↦ exists_resolveInputs_append ha hb,
    fun _ _ _ hsame ha ↦ resolveInputs_congr hsame ha,
    fun _ hdir s ↦ generateDirectory_eq_generateInputs h hdir s⟩

/-- A file that fails lies above one that says nothing. -/
def nestedTree : FileTree where
  entries := [(["abis"], .directory), (["abis", "v2"], .directory),
    (["abis", "v2", "Pool.json"], .file (asciiBytes "[]".toList)),
    (["abis", "Token.json"], .file (asciiBytes "?".toList))]
  workDir := []

theorem isSound_nestedTree : nestedTree.IsSound := by
  decide +kernel

/-- Two chains lead to the lower file in more than one way. -/
theorem resolveInputs_unites_nested :
    (∃ union, resolveInputs nestedTree "**/**/*.json"
        (["abis/v2"] ++ ["./abis/Token.json", "abis"]) = .ok union ∧
      IsSortedUnion ["abis/v2/Pool.json"] ["abis/Token.json", "abis/v2/Pool.json"] union) ∧
    typesSession.generateDirectory nestedTree "abis" "**/**/*.json" =
      typesSession.generateInputs nestedTree "**/**/*.json" ["abis"] ∧
    (typesSession.generateInputs nestedTree "**/**/*.json" ["abis"]).1.failed =
      ["abis/Token.json"] := by
  obtain ⟨_, hunion, _, hdirectory⟩ := resolveInputs_unites isSound_nestedTree "**/**/*.json"
  refine ⟨hunion ["abis/v2"] ["./abis/Token.json", "abis"] _ _ ?_ ?_,
    hdirectory "abis" ?_ typesSession, ?_⟩
  · exact toOption_eq_some_iff.mp (by decide +kernel)
  · exact toOption_eq_some_iff.mp (by decide +kernel)
  · exact toOption_eq_some_iff.mp (by decide +kernel)
  · decide +kernel

end AbiTypings.Run
