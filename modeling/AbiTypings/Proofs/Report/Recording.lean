import AbiTypings.Proofs.Abi.Collecting
import AbiTypings.Proofs.Report.Counts

/-!
# What the short summary tells of a record

A collector keeps one notice for each call that records something, in the order of the calls. The
short summary counts the errors and the warnings among them, each under one key. Information is
not counted, and the order of the calls leaves no trace.
-/

namespace AbiTypings

/-- What a fresh collector holds after some calls; each records one remark on one file. -/
def recorded (calls : List Notice) : Collector :=
  calls.foldl (fun d call ↦ d.note call.file [call.remark]) (some [])

theorem recorded_eq (calls : List Notice) : recorded calls = some calls := by
  have hfold (notices : List Notice) :
      calls.foldl (fun d call ↦ Collector.note d call.file [call.remark]) (some notices) =
        some (notices ++ calls) := by
    induction calls generalizing notices with
    | nil => simp
    | cons call rest ih =>
        rw [List.foldl_cons, Collector.note, Option.map_some, ih]
        simp
  exact hfold []

namespace Report

variable {notices others : List Notice}

/-! ## Counts of a record -/

theorem sum_counts (notices : List Notice) :
    ((counts notices).map Prod.snd).sum = (errors notices).length + (warnings notices).length := by
  rw [counts, sum_countKeys, List.length_map, List.length_append]

theorem mem_counts_iff {key : String} {n : Nat} :
    (key, n) ∈ counts notices ↔
      0 < n ∧ ((errors notices ++ warnings notices).filter (countedKey · == key)).length = n := by
  rw [counts, mem_countKeys_iff, List.count, List.countP_map, List.countP_eq_length_filter]
  rfl

theorem counts_eq_nil_iff : counts notices = [] ↔ errors notices = [] ∧ warnings notices = [] := by
  constructor
  · intro hnone
    have hsum := sum_counts notices
    rw [hnone, List.map_nil, List.sum_nil] at hsum
    exact ⟨List.length_eq_zero_iff.mp (by omega), List.length_eq_zero_iff.mp (by omega)⟩
  · rintro ⟨herrors, hwarnings⟩
    rw [counts, herrors, hwarnings]
    rfl

theorem counts_perm (h : notices.Perm others) : counts notices = counts others := by
  have hfound : (errors notices ++ warnings notices).Perm (errors others ++ warnings others) :=
    (h.filter _).append (h.filter _)
  exact countKeys_perm (hfound.map countedKey)

/-! ## The line that shows them -/

theorem shortSummary_of_counts_eq_nil (h : counts notices = []) :
    shortSummary notices = "No generator warnings." := by
  rw [shortSummary, h]

theorem shortSummary_of_counts_ne_nil (h : counts notices ≠ []) :
    shortSummary notices =
      "Generator diagnostics: " ++ ", ".intercalate ((counts notices).map countText) := by
  unfold shortSummary
  split
  case h_1 hnone => exact absurd hnone h
  case h_2 => rfl

theorem shortSummary_eq_none_iff :
    shortSummary notices = "No generator warnings." ↔ counts notices = [] := by
  refine ⟨fun hnone ↦ ?_, shortSummary_of_counts_eq_nil⟩
  by_contra hcounts
  rw [shortSummary_of_counts_ne_nil hcounts] at hnone
  -- The two lines differ in their first character.
  have hfirst := congrArg (fun line ↦ line.toList.head?) hnone
  simp [String.toList_append] at hfirst

theorem shortSummary_perm (h : notices.Perm others) :
    shortSummary notices = shortSummary others := by
  rw [shortSummary, shortSummary, counts_perm h]

/-- A line shows some counts of the errors and warnings: each key once, in increasing order, with
the number of those that have it, and all of them together. -/
structure ShowsCounts (notices : List Notice) (line : String) (parts : List Count) : Prop where
  line_eq : parts ≠ [] →
    line = "Generator diagnostics: " ++ ", ".intercalate (parts.map countText)
  increasing : (parts.map Prod.fst).Pairwise (· < ·)
  counted : ∀ key n, (key, n) ∈ parts ↔
    0 < n ∧ ((errors notices ++ warnings notices).filter (countedKey · == key)).length = n
  total : (parts.map Prod.snd).sum = (errors notices).length + (warnings notices).length

theorem showsCounts (notices : List Notice) :
    ShowsCounts notices (shortSummary notices) (counts notices) where
  line_eq := shortSummary_of_counts_ne_nil
  increasing := increasing_countKeys _
  counted _ _ := mem_counts_iff
  total := sum_counts notices

/-- Every call is kept. The short summary counts each error and each warning under its key, says so
if there are none, and does not depend on the order of the calls. -/
theorem shortSummary_counts_calls (calls : List Notice) :
    ∃ notices parts, recorded calls = some notices ∧ notices.length = calls.length ∧
      ShowsCounts notices (shortSummary notices) parts ∧
      (shortSummary notices = "No generator warnings." ↔
        errors notices = [] ∧ warnings notices = []) ∧
      ∀ others, calls.Perm others → ∃ notices', recorded others = some notices' ∧
        shortSummary notices' = shortSummary notices := by
  refine ⟨calls, counts calls, recorded_eq calls, rfl, showsCounts calls,
    shortSummary_eq_none_iff.trans counts_eq_nil_iff, fun others hperm ↦ ?_⟩
  exact ⟨others, recorded_eq others, shortSummary_perm hperm.symm⟩

/-- A number and a text that are shown alike, among notices of every severity. -/
def mixedCalls : List Notice :=
  [⟨.unsupportedEntry (.text "1"), "a.json"⟩, ⟨.failure "OSError" "lost", "b.json"⟩,
    ⟨.skippedEntry (.text "receive"), "a.json"⟩, ⟨.unsupportedEntry (.int 1), ""⟩,
    ⟨.anonymousEvent (.text "Paid"), "a.json"⟩]

theorem shortSummary_counts_mixedCalls :
    ∃ notices, recorded mixedCalls.reverse = some notices ∧ shortSummary notices =
      "Generator diagnostics: 1 error file, 2 warning 1, 1 warning event" := by
  obtain ⟨notices, _, hnotices, _, _, _, hperm⟩ := shortSummary_counts_calls mixedCalls
  obtain ⟨reversed, hreversed, hsame⟩ := hperm _ mixedCalls.reverse_perm.symm
  refine ⟨reversed, hreversed, hsame.trans ?_⟩
  obtain rfl := Option.some.inj ((recorded_eq mixedCalls).symm.trans hnotices)
  decide +kernel

end Report

end AbiTypings
