import AbiTypings.Report.Summary
import Mathlib.Algebra.Ring.Nat
import Mathlib.Data.List.Count
import Mathlib.Data.String.Basic

/-!
# Counting keys

Keys are counted into a list that is kept in their order. Whatever keys have come in, and in
whatever order, each of them stands in the list once, with the number of its occurrences.
-/

namespace AbiTypings.Report

/-! ## Counts in order -/

/-- The keys increase, so that none of them occurs twice, and every count is positive. -/
def IsTally (counts : List Count) : Prop :=
  counts.Pairwise (·.1 < ·.1) ∧ ∀ c ∈ counts, 0 < c.2

/-- The count kept under a key; zero if there is none. -/
def countOf (key : String) : List Count → Nat
  | [] => 0
  | (k, n) :: rest => if k = key then n else countOf key rest

theorem countOf_eq_zero {key : String} {counts : List Count} (h : ∀ c ∈ counts, key < c.1) :
    countOf key counts = 0 := by
  induction counts with
  | nil => rfl
  | cons c rest ih =>
      obtain ⟨hhead, hrest⟩ := List.forall_mem_cons.mp h
      rw [countOf, if_neg (ne_of_gt hhead), ih hrest]

theorem mem_iff_countOf {counts : List Count} (h : IsTally counts) {key : String} {n : Nat} :
    (key, n) ∈ counts ↔ 0 < n ∧ countOf key counts = n := by
  induction counts with
  | nil =>
      refine ⟨fun hmem ↦ absurd hmem List.not_mem_nil, ?_⟩
      rintro ⟨hpos, rfl⟩
      exact absurd hpos (Nat.lt_irrefl 0)
  | cons c rest ih =>
      obtain ⟨k, m⟩ := c
      obtain ⟨hsorted, hpos⟩ := h
      obtain ⟨hbelow, hsorted⟩ := List.pairwise_cons.mp hsorted
      obtain ⟨hm, hpos⟩ := List.forall_mem_cons.mp hpos
      rw [List.mem_cons, Prod.mk.injEq, ih ⟨hsorted, hpos⟩, countOf]
      by_cases hk : k = key
      · subst hk
        -- The key stands in front only.
        rw [countOf_eq_zero hbelow, if_pos rfl]
        refine ⟨?_, fun ⟨_, hn⟩ ↦ Or.inl ⟨rfl, hn.symm⟩⟩
        rintro (⟨-, rfl⟩ | ⟨hn, rfl⟩)
        · exact ⟨hm, rfl⟩
        · exact absurd hn (Nat.lt_irrefl 0)
      · rw [if_neg hk]
        exact or_iff_right fun hhead ↦ hk hhead.1.symm

/-! ## One more occurrence -/

theorem key_of_mem_countKey {key : String} {counts : List Count} {c : Count}
    (h : c ∈ countKey key counts) : c.1 = key ∨ ∃ d ∈ counts, d.1 = c.1 := by
  induction counts with
  | nil =>
      obtain rfl := List.mem_singleton.mp h
      exact Or.inl rfl
  | cons head rest ih =>
      obtain ⟨k, n⟩ := head
      unfold countKey at h
      split_ifs at h with hk hlt
      · rcases List.mem_cons.mp h with rfl | hrest
        · exact Or.inl hk
        · exact Or.inr ⟨c, List.mem_cons_of_mem _ hrest, rfl⟩
      · rcases List.mem_cons.mp h with rfl | hrest
        · exact Or.inl rfl
        · exact Or.inr ⟨c, hrest, rfl⟩
      · rcases List.mem_cons.mp h with rfl | hrest
        · exact Or.inr ⟨(k, n), List.mem_cons_self, rfl⟩
        · exact (ih hrest).imp_right fun ⟨d, hd, hkey⟩ ↦ ⟨d, List.mem_cons_of_mem _ hd, hkey⟩

theorem isTally_countKey {counts : List Count} (h : IsTally counts) (key : String) :
    IsTally (countKey key counts) := by
  induction counts with
  | nil => exact ⟨List.pairwise_singleton _ _, by simp [countKey]⟩
  | cons head rest ih =>
      obtain ⟨k, n⟩ := head
      obtain ⟨hbelow, hsorted⟩ := List.pairwise_cons.mp h.1
      obtain ⟨hn, hpos⟩ := List.forall_mem_cons.mp h.2
      unfold countKey
      split_ifs with hk hlt
      · exact ⟨List.pairwise_cons.mpr ⟨hbelow, hsorted⟩,
          List.forall_mem_cons.mpr ⟨Nat.succ_pos n, hpos⟩⟩
      · refine ⟨List.pairwise_cons.mpr ⟨fun d hd ↦ ?_, h.1⟩,
          List.forall_mem_cons.mpr ⟨Nat.one_pos, h.2⟩⟩
        rcases List.mem_cons.mp hd with rfl | hd
        · exact hlt
        · exact lt_trans hlt (hbelow d hd)
      · obtain ⟨hsorted', hpos'⟩ := ih ⟨hsorted, hpos⟩
        refine ⟨List.pairwise_cons.mpr ⟨fun d hd ↦ ?_, hsorted'⟩,
          List.forall_mem_cons.mpr ⟨hn, hpos'⟩⟩
        rcases key_of_mem_countKey hd with hkey | ⟨c, hc, hkey⟩
        · rw [hkey]
          exact lt_of_le_of_ne (not_lt.mp hlt) hk
        · rw [← hkey]
          exact hbelow c hc

theorem countOf_countKey {counts : List Count} (h : IsTally counts) (key other : String) :
    countOf other (countKey key counts) =
      countOf other counts + if key = other then 1 else 0 := by
  induction counts with
  | nil => by_cases hother : key = other <;> simp [countKey, countOf, hother]
  | cons head rest ih =>
      obtain ⟨k, n⟩ := head
      obtain ⟨hbelow, hsorted⟩ := List.pairwise_cons.mp h.1
      have hrest : IsTally rest := ⟨hsorted, fun c hc ↦ h.2 c (List.mem_cons_of_mem _ hc)⟩
      by_cases hk : k = key
      · subst hk
        rw [countKey, if_pos rfl, countOf, countOf]
        split_ifs <;> rfl
      · by_cases hlt : key < k
        · rw [countKey, if_neg hk, if_pos hlt, countOf]
          split_ifs with hother
          · subst hother
            rw [countOf, if_neg hk, countOf_eq_zero fun c hc ↦ lt_trans hlt (hbelow c hc)]
          · rfl
        · rw [countKey, if_neg hk, if_neg hlt, countOf, countOf, ih hrest]
          by_cases hother : k = other
          · rw [if_pos hother, if_pos hother, if_neg fun hkey ↦ hk (hother.trans hkey.symm),
              Nat.add_zero]
          · rw [if_neg hother, if_neg hother]

theorem foldl_countKey {counts : List Count} (h : IsTally counts) (keys : List String) :
    IsTally (keys.foldl (fun counts key ↦ countKey key counts) counts) ∧
      ∀ key, countOf key (keys.foldl (fun counts key ↦ countKey key counts) counts) =
        countOf key counts + keys.count key := by
  induction keys generalizing counts with
  | nil => exact ⟨h, fun key ↦ by simp⟩
  | cons first rest ih =>
      obtain ⟨htally, hcount⟩ := ih (isTally_countKey h first)
      refine ⟨htally, fun key ↦ ?_⟩
      rw [List.foldl_cons, hcount, countOf_countKey h, List.count_cons]
      simp only [beq_iff_eq]
      omega

theorem isTally_countKeys (keys : List String) : IsTally (countKeys keys) :=
  (foldl_countKey ⟨List.Pairwise.nil, by simp⟩ keys).1

/-- Every key stands in the list with the number of its occurrences. -/
theorem mem_countKeys_iff {keys : List String} {key : String} {n : Nat} :
    (key, n) ∈ countKeys keys ↔ 0 < n ∧ keys.count key = n := by
  rw [mem_iff_countOf (isTally_countKeys keys), countKeys,
    (foldl_countKey ⟨List.Pairwise.nil, by simp⟩ keys).2, countOf, Nat.zero_add]

theorem sum_countKey (key : String) (counts : List Count) :
    ((countKey key counts).map Prod.snd).sum = (counts.map Prod.snd).sum + 1 := by
  induction counts with
  | nil => rfl
  | cons head rest ih =>
      obtain ⟨k, n⟩ := head
      unfold countKey
      split_ifs
      · simp only [List.map_cons, List.sum_cons]
        omega
      · simp only [List.map_cons, List.sum_cons]
        omega
      · simp only [List.map_cons, List.sum_cons, ih]
        omega

/-- No occurrence is lost, and none is counted twice. -/
theorem sum_countKeys (keys : List String) : ((countKeys keys).map Prod.snd).sum = keys.length := by
  have hfold (counts : List Count) :
      ((keys.foldl (fun counts key ↦ countKey key counts) counts).map Prod.snd).sum =
        (counts.map Prod.snd).sum + keys.length := by
    induction keys generalizing counts with
    | nil => rfl
    | cons key rest ih =>
        rw [List.foldl_cons, ih, sum_countKey, List.length_cons]
        omega
  rw [countKeys, hfold, List.map_nil, List.sum_nil, Nat.zero_add]

theorem increasing_countKeys (keys : List String) :
    ((countKeys keys).map Prod.fst).Pairwise (· < ·) :=
  List.pairwise_map.mpr (isTally_countKeys keys).1

/-- The order in which the keys have come in leaves no trace. -/
theorem countKeys_perm {keys others : List String} (h : keys.Perm others) :
    countKeys keys = countKeys others := by
  have hnodup {counts : List Count} (htally : IsTally counts) : counts.Nodup :=
    htally.1.imp fun {c d} (hlt : c.1 < d.1) (heq : c = d) ↦ ne_of_lt hlt (congrArg Prod.fst heq)
  have hkeys := isTally_countKeys keys
  have hothers := isTally_countKeys others
  have hperm : (countKeys keys).Perm (countKeys others) := by
    refine (List.perm_ext_iff_of_nodup (hnodup hkeys) (hnodup hothers)).mpr ?_
    rintro ⟨key, n⟩
    rw [mem_countKeys_iff, mem_countKeys_iff, h.count_eq]
  exact hperm.eq_of_pairwise (fun _ _ _ _ hlt hgt ↦ absurd hlt (lt_asymm hgt)) hkeys.1 hothers.1

/-! ## Counting warnings -/

theorem countedKey_warning {n : Notice} (h : n.severity = .warning) :
    countedKey n = "warning " ++ n.group.display := by
  rw [countedKey, h]
  rfl

theorem countedKey_error_ne {n : Notice} (h : n.severity = .error) (text : String) :
    countedKey n ≠ "warning " ++ text := by
  intro heq
  rw [countedKey, h] at heq
  have hfirst := congrArg (fun s ↦ s.toList.head?) heq
  simp [Severity.label, String.toList_append] at hfirst

/-- How many of the warnings are on the thing shown by a text. -/
theorem mem_counts_warning_iff {notices : List Notice} {text : String} {n : Nat} :
    ("warning " ++ text, n) ∈ counts notices ↔
      0 < n ∧ ((warnings notices).filter (·.group.display == text)).length = n := by
  rw [counts, mem_countKeys_iff, List.map_append, List.count_append]
  have herrors : ((errors notices).map countedKey).count ("warning " ++ text) = 0 := by
    refine List.count_eq_zero.mpr fun hmem ↦ ?_
    obtain ⟨e, he, hkey⟩ := List.mem_map.mp hmem
    exact countedKey_error_ne (by simpa using (List.mem_filter.mp he).2) text hkey
  have hwarnings : ((warnings notices).map countedKey).count ("warning " ++ text) =
      ((warnings notices).filter (·.group.display == text)).length := by
    rw [List.count, List.countP_map, List.countP_eq_length_filter]
    refine congrArg List.length (List.filter_congr fun w hw ↦ ?_)
    have hseverity : w.severity = .warning := by simpa using (List.mem_filter.mp hw).2
    rw [Function.comp_apply, countedKey_warning hseverity, Bool.eq_iff_iff, beq_iff_eq, beq_iff_eq,
      String.append_right_inj]
  rw [herrors, hwarnings, Nat.zero_add]

end AbiTypings.Report
