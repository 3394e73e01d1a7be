import AbiTypings.Proofs.Abi.Partition
import AbiTypings.Proofs.Report.Groups

/-!
# Two summaries of the same warnings

The short summary counts warnings by the text that shows what they are about, the listing groups
them by the value itself. The listing is complete iff the values have one order. It then goes
with the short summary iff two warnings about the same value are shown by the same text and no
others are. Kinds that are texts, as those of an ABI should be, raise no difficulty.
-/

namespace AbiTypings.Report

open Json

variable {groups : List Group} {notices : List Notice}

/-! ## The listing -/

/-- The head of the warnings, if there are any. -/
def warningHead (notices : List Notice) : List String :=
  match warnings notices with
  | [] => []
  | found => sectionHead "Generator warnings" found.length

theorem listing_of_ordered? {verbose : Bool}
    (h : Group.ordered? (warnings notices) = some groups) :
    listing verbose notices =
      ⟨errorLines notices ++ warningHead notices ++ groups.flatMap (groupLines verbose) ++
        if verbose then infoLines notices else [], true⟩ := by
  unfold listing warningHead
  cases hfound : warnings notices with
  | nil =>
      rw [hfound] at h
      obtain rfl : [] = groups := Option.some.inj h
      simp
  | cons n rest =>
      rw [hfound] at h
      simp [h]

theorem complete_listing_of_ordered?_eq_none {verbose : Bool}
    (h : Group.ordered? (warnings notices) = none) :
    (listing verbose notices).complete = false := by
  unfold listing
  cases hfound : warnings notices with
  | nil =>
      rw [hfound] at h
      cases h
  | cons n rest =>
      rw [hfound] at h
      simp [h]

theorem complete_listing_iff (verbose : Bool) :
    (listing verbose notices).complete = true ↔ HaveOneOrder (warnings notices) := by
  rw [← Group.exists_ordered?_iff]
  cases hordered : Group.ordered? (warnings notices) with
  | none => simp [complete_listing_of_ordered?_eq_none hordered]
  | some groups => simp [listing_of_ordered? hordered]

/-! ## Groups and texts -/

/-- Warnings are about the same value iff they are shown by the same text. -/
def AgreeOnTexts (notices : List Notice) : Prop :=
  ∀ m ∈ notices, ∀ n ∈ notices, SameThing m n ↔ m.group.display = n.group.display

/-- One group alone is shown by the text and holds all warnings that the text shows; their number
is what the short summary counts. -/
def SumsUp (notices : List Notice) (groups : List Group) (text : String) : Prop :=
  ∃ g, groups.filter (·.shown.display == text) = [g] ∧
    g.members = (warnings notices).filter (·.group.display == text) ∧
      ∀ k, ("warning " ++ text, k) ∈ counts notices ↔ k = g.members.length

namespace AreGroupsOf

theorem exists_fits (h : AreGroupsOf groups notices) {g : Group} (hg : g ∈ groups) :
    ∃ n ∈ notices, n.group = g.shown ∧ g.fits n = true := by
  obtain ⟨n, hn, hshown, hkey⟩ := h.named g hg
  exact ⟨n, hn, hshown, Group.fits_iff.mpr ⟨g.key, hshown ▸ hkey, g.key.same_refl⟩⟩

/-- What fits the group of a notice is about the same value. -/
theorem fits_iff_sameThing (h : AreGroupsOf groups notices) {g : Group} (hg : g ∈ groups)
    {m n : Notice} (hm : g.fits m = true) : g.fits n = true ↔ SameThing m n := by
  obtain ⟨k, hk, hgk⟩ := Group.fits_iff.mp hm
  rw [Group.fits_iff]
  constructor
  · rintro ⟨l, hl, hgl⟩
    obtain ⟨_, _, _, hkey⟩ := h.named g hg
    exact ⟨k, l, hk, hl,
      GroupKey.same_trans (GroupKey.isProper_of_of? hkey) (GroupKey.same_symm hgk) hgl⟩
  · rintro ⟨k', l, hk', hl, hkl⟩
    obtain rfl : k = k' := Option.some.inj (hk.symm.trans hk')
    exact ⟨l, hl, GroupKey.same_trans (GroupKey.isProper_of_of? hk) hgk hkl⟩

/-- Where values and texts go together, the group of a notice is the only one that its text shows,
and holds what the text shows. -/
theorem sumsUp (h : AreGroupsOf groups (warnings notices))
    (hagree : AgreeOnTexts (warnings notices)) {n : Notice} (hn : n ∈ warnings notices) :
    SumsUp notices groups n.group.display := by
  obtain ⟨g, hg, hfits⟩ := h.covered n hn
  have hshows : ∀ w ∈ warnings notices,
      g.fits w = true ↔ w.group.display = n.group.display := by
    intro w hw
    rw [h.fits_iff_sameThing hg hfits, hagree n hn w hw, eq_comm]
  have hmembers : g.members = (warnings notices).filter (·.group.display == n.group.display) := by
    rw [h.members g hg]
    refine List.filter_congr fun w hw ↦ ?_
    rw [Bool.eq_iff_iff, hshows w hw, beq_iff_eq]
  refine ⟨g, ?_, hmembers, fun k ↦ ?_⟩
  · obtain ⟨front, back, rfl⟩ := List.append_of_mem hg
    have hother : ∀ k ∈ front ++ back, ¬(k.shown.display == n.group.display) = true := by
      intro k hk hshown
      have hmem : k ∈ front ++ g :: back :=
        List.perm_middle.mem_iff.mpr (List.mem_cons_of_mem g hk)
      obtain ⟨m, hm, hnamed, hkm⟩ := h.exists_fits hmem
      rw [beq_iff_eq, ← hnamed, ← hshows m hm] at hshown
      have hnot := fits_eq_false (h.same_eq_false_of_mem hk) hshown
      exact Bool.false_ne_true (hnot.symm.trans hkm)
    have hown : (g.shown.display == n.group.display) = true := by
      obtain ⟨m, hm, hnamed, hgm⟩ := h.exists_fits hg
      rw [beq_iff_eq, ← hnamed, ← hshows m hm]
      exact hgm
    rw [List.filter_append, List.filter_cons, if_pos hown,
      List.filter_eq_nil_iff.mpr fun k hk ↦ hother k (List.mem_append_left _ hk),
      List.filter_eq_nil_iff.mpr fun k hk ↦ hother k (List.mem_append_right _ hk),
      List.nil_append]
  · have hpos : 0 < g.members.length := by
      rw [h.members g hg]
      exact List.length_pos_of_mem (List.mem_filter.mpr ⟨hn, hfits⟩)
    rw [mem_counts_warning_iff, ← hmembers]
    refine ⟨fun hk ↦ hk.2.symm, fun hk ↦ ?_⟩
    rw [hk]
    exact ⟨hpos, rfl⟩

theorem sumsUp_iff (h : AreGroupsOf groups (warnings notices)) :
    (∀ n ∈ warnings notices, SumsUp notices groups n.group.display) ↔
      AgreeOnTexts (warnings notices) := by
  refine ⟨fun hsums m hm n hn ↦ ?_, fun hagree n hn ↦ h.sumsUp hagree hn⟩
  obtain ⟨g, hfilter, hmembers, _⟩ := hsums m hm
  have hg : g ∈ groups := by
    have hfirst : g ∈ groups.filter (·.shown.display == m.group.display) :=
      hfilter ▸ List.mem_cons_self
    exact List.mem_of_mem_filter hfirst
  have hshows : ∀ w ∈ warnings notices,
      g.fits w = true ↔ w.group.display = m.group.display := by
    intro w hw
    have hmem : w ∈ (warnings notices).filter g.fits ↔
        w ∈ (warnings notices).filter (·.group.display == m.group.display) := by
      rw [← h.members g hg, hmembers]
    simpa [List.mem_filter, hw] using hmem
  rw [← h.fits_iff_sameThing hg ((hshows m hm).mpr rfl), hshows n hn, eq_comm]

end AreGroupsOf

/-- Texts are shown as they are. -/
theorem agreeOnTexts_of_isText (h : ∀ n ∈ notices, IsText n.group) : AgreeOnTexts notices := by
  intro m hm n hn
  obtain ⟨s, hs⟩ := exists_text_of_isText (h m hm)
  obtain ⟨t, ht⟩ := exists_text_of_isText (h n hn)
  simp [SameThing, hs, ht, GroupKey.of?, GroupKey.same]

end AbiTypings.Report

namespace AbiTypings.Abi

open Json Report

/-! ## Reading ABIs one after the other -/

/-- One ABI to be read, with the name of its contract and its file. -/
structure Reading where
  abi : List Value
  rawName : String
  file : String

/-- What a fresh collector holds when some ABIs have been read with it. -/
def collected (readings : List Reading) : Collector :=
  readings.foldl (fun d r ↦ (collectContract d r.file r.abi r.rawName).1) (some [])

/-- The notices on one ABI, as far as it can be read. -/
def Reading.notices (r : Reading) : List Notice :=
  (readContract r.abi r.rawName).1.map (⟨·, r.file⟩)

theorem collected_eq (readings : List Reading) :
    collected readings = some (readings.flatMap Reading.notices) := by
  have hfold (notices : List Notice) :
      readings.foldl (fun d r ↦ (collectContract d r.file r.abi r.rawName).1) (some notices) =
        some (notices ++ readings.flatMap Reading.notices) := by
    induction readings generalizing notices with
    | nil => simp
    | cons r rest ih =>
        rw [List.foldl_cons, collectContract_eq, List.flatMap_cons, ← List.append_assoc]
        exact ih _
  exact hfold []

/-- The kind of the entry is a text, or as good as not given. -/
def HasPlainKind (e : Value) : Prop := (entryKind e).isVacant = true ∨ IsText (entryKind e)

theorem isText_orElse {v : Value} (h : v.isVacant = true ∨ IsText v) :
    IsText (v.orElse Remark.otherConstruct) := by
  by_cases hvacant : v.isVacant = true
  · rw [Value.orElse_of_isVacant hvacant]
    trivial
  · rw [Value.orElse_of_not_isVacant (Bool.not_eq_true _ ▸ hvacant)]
    exact h.resolve_left hvacant

theorem isText_of_remarkOn? {e : Value} {r : Remark} (hkind : HasPlainKind e)
    (h : remarkOn? e = some r) (hwarning : r.severity = .warning) (file : String) :
    IsText (Notice.group ⟨r, file⟩) := by
  refine isText_orElse (Or.inr ?_)
  unfold remarkOn? at h
  split_ifs at h <;> obtain rfl := Option.some.inj h
  · trivial
  · cases hwarning
  · exact isText_orElse hkind

theorem isText_of_mem_warnings {readings : List Reading}
    (hkinds : ∀ r ∈ readings, ∀ e ∈ r.abi, HasPlainKind e) {n : Notice}
    (hn : n ∈ warnings (readings.flatMap Reading.notices)) : IsText n.group := by
  obtain ⟨hn, hwarning⟩ := List.mem_filter.mp hn
  obtain ⟨reading, hreading, hn⟩ := List.mem_flatMap.mp hn
  obtain ⟨r, hr, rfl⟩ := List.mem_map.mp hn
  obtain ⟨e, he, hremark⟩ := exists_of_mem_readContract hr
  exact isText_of_remarkOn? (hkinds reading hreading e he) hremark (beq_iff_eq.mp hwarning) _

/-- Whatever ABIs have been read with a fresh collector, whether or not they could be read to
their end: the listing is complete iff the warnings have one order. It then goes with the short
summary, text by text, iff values and texts go together. Both hold if all kinds are texts. -/
theorem summaries_agree_iff (readings : List Reading) (verbose : Bool) :
    ∃ notices, collected readings = some notices ∧
      ((listing verbose notices).complete = true ↔ HaveOneOrder (warnings notices)) ∧
      (HaveOneOrder (warnings notices) → ∃ groups,
        (listing verbose notices).lines =
            errorLines notices ++ warningHead notices ++ groups.flatMap (groupLines verbose) ++
              (if verbose then infoLines notices else []) ∧
          (∀ g ∈ groups, ∃ n ∈ warnings notices, n.group = g.shown) ∧
          ((∀ n ∈ warnings notices, SumsUp notices groups n.group.display) ↔
            AgreeOnTexts (warnings notices))) ∧
      ((∀ r ∈ readings, ∀ e ∈ r.abi, HasPlainKind e) →
        HaveOneOrder (warnings notices) ∧ AgreeOnTexts (warnings notices)) := by
  refine ⟨_, collected_eq readings, complete_listing_iff verbose, fun horder ↦ ?_,
    fun hkinds ↦ ?_⟩
  · obtain ⟨groups, hordered⟩ := Group.exists_ordered?_iff.mpr horder
    have hgroups := (Group.ordered?_eq_some hordered).1
    refine ⟨groups, by rw [listing_of_ordered? hordered], fun g hg ↦ ?_, hgroups.sumsUp_iff⟩
    obtain ⟨n, hn, hshown, _⟩ := hgroups.named g hg
    exact ⟨n, hn, hshown⟩
  · have htexts : ∀ n ∈ warnings (readings.flatMap Reading.notices), IsText n.group :=
      fun n ↦ isText_of_mem_warnings hkinds
    exact ⟨Or.inl htexts, agreeOnTexts_of_isText htexts⟩

/-- The second ABI cannot be read to its end. -/
def plainReadings : List Reading :=
  [⟨[.object [("type", .text "library")], .object [("type", .text "")],
      .object [("type", .text "library")]], "Token", "Token.json"⟩,
    ⟨[.object [("type", .text "library")], .int 3], "Vault", "Vault.json"⟩]

theorem summaries_agree_iff_plain :
    ∃ notices groups, collected plainReadings = some notices ∧
      (listing true notices).complete = true ∧
      SumsUp notices groups "library" ∧ SumsUp notices groups "other" := by
  obtain ⟨notices, hnotices, hcomplete, hgroups, hkinds⟩ := summaries_agree_iff plainReadings true
  have hplain : ∀ r ∈ plainReadings, ∀ e ∈ r.abi, HasPlainKind e := by
    simp [plainReadings, HasPlainKind, IsText, entryKind, field?, fieldsOf]
  obtain ⟨horder, hagree⟩ := hkinds hplain
  obtain ⟨groups, _, _, hsums⟩ := hgroups horder
  have htexts : (warnings notices).map (·.group.display) =
      ["library", "other", "library", "library"] := by
    obtain rfl := Option.some.inj ((collected_eq plainReadings).symm.trans hnotices)
    decide +kernel
  have hsum {text : String} (htext : text ∈ (warnings notices).map (·.group.display)) :
      SumsUp notices groups text := by
    obtain ⟨n, hn, rfl⟩ := List.mem_map.mp htext
    exact hsums.mpr hagree n hn
  exact ⟨notices, groups, hnotices, hcomplete.mpr horder, hsum (by simp [htexts]),
    hsum (by simp [htexts])⟩

/-- Both summaries after one file with these contents has been read. -/
def summariesOf (contents : String) : Option (Listing × String) :=
  (ofText contents).toOption.bind fun abi ↦
    (collected [⟨abi, "Token", "Token.json"⟩]).map fun notices ↦
      (listing false notices, shortSummary notices)

/-- A number next to a text, or a list, breaks the listing off; one and true are taken together
in the listing only. -/
theorem summaries_disagree :
    summariesOf "[\x7b\x22type\x22:5\x7d,\x7b\x22type\x22:\x22x\x22\x7d]" =
        some (⟨["", "Generator warnings (2):"], false⟩,
          "Generator diagnostics: 1 warning 5, 1 warning x") ∧
      summariesOf "[\x7b\x22type\x22:[1]\x7d]" =
        some (⟨["", "Generator warnings (1):"], false⟩,
          "Generator diagnostics: 1 warning [1]") ∧
      summariesOf "[\x7b\x22type\x22:1\x7d,\x7b\x22type\x22:true\x7d]" =
        some (⟨["", "Generator warnings (2):", "  1: 2 occurrence(s)"], true⟩,
          "Generator diagnostics: 1 warning 1, 1 warning True") := by
  decide +kernel

end AbiTypings.Abi
