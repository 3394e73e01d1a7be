import AbiTypings.Proofs.Report.Agreement
import AbiTypings.Proofs.Report.Recording

/-!
# The listing as a regrouping of a record

Where all kinds are texts, the listing shows the errors first, then the warnings by what they are
about, with the names of the groups in increasing order, and then the information. Within each
part the notices keep the order in which they were recorded. A verbose listing so shows every
notice once; the other one leaves out all but the errors and the sizes of the groups.
-/

namespace AbiTypings.Report

open Json

variable {notices : List Notice} {groups : List Group} {names : List String}

/-! ## Groups in the order of their names -/

namespace Group

/-- The text that the group is shown under. -/
def name (g : Group) : String := g.shown.display

/-- The group is about a text. -/
def IsNamed (g : Group) : Prop := g.key = .text g.name

theorem before_iff_of_isNamed {g h : Group} (hg : g.IsNamed) (hh : h.IsNamed) :
    g.key.before h.key = true ↔ g.name < h.name := by
  rw [show g.key = .text g.name from hg, show h.key = .text h.name from hh]
  exact decide_eq_true_iff

theorem pairwise_insertReversed {g : Group} (hg : g.IsNamed) (hnamed : ∀ h ∈ groups, h.IsNamed)
    (h : groups.Pairwise (fun a b ↦ b.name ≤ a.name)) :
    (insertReversed g groups).Pairwise (fun a b ↦ b.name ≤ a.name) := by
  induction groups with
  | nil => exact List.pairwise_singleton _ _
  | cons first rest ih =>
      obtain ⟨hfirst, hrest⟩ := List.forall_mem_cons.mp hnamed
      obtain ⟨hbelow, hsorted⟩ := List.pairwise_cons.mp h
      unfold insertReversed
      split_ifs with hbefore
      · have hlt : g.name < first.name := (before_iff_of_isNamed hg hfirst).mp hbefore
        refine List.pairwise_cons.mpr ⟨fun k hk ↦ ?_, ih hrest hsorted⟩
        rcases List.mem_cons.mp ((insertReversed_perm g rest).mem_iff.mp hk) with rfl | hk
        · exact le_of_lt hlt
        · exact hbelow k hk
      · have hle : first.name ≤ g.name :=
          not_lt.mp fun hlt ↦ hbefore ((before_iff_of_isNamed hg hfirst).mpr hlt)
        refine List.pairwise_cons.mpr ⟨fun k hk ↦ ?_, h⟩
        rcases List.mem_cons.mp hk with rfl | hk
        · exact hle
        · exact (hbelow k hk).trans hle

theorem pairwise_foldl_insertReversed {sorted : List Group} (hnamed : ∀ g ∈ groups, g.IsNamed)
    (hsortedNamed : ∀ g ∈ sorted, g.IsNamed)
    (h : sorted.Pairwise (fun a b ↦ b.name ≤ a.name)) :
    (groups.foldl (fun sorted g ↦ insertReversed g sorted) sorted).Pairwise
      (fun a b ↦ b.name ≤ a.name) := by
  induction groups generalizing sorted with
  | nil => exact h
  | cons g rest ih =>
      obtain ⟨hg, hrest⟩ := List.forall_mem_cons.mp hnamed
      refine ih hrest (fun k hk ↦ ?_) (pairwise_insertReversed hg hsortedNamed h)
      rcases List.mem_cons.mp ((insertReversed_perm g sorted).mem_iff.mp hk) with rfl | hk
      · exact hg
      · exact hsortedNamed k hk

theorem pairwise_sort (hnamed : ∀ g ∈ groups, g.IsNamed) :
    (sort groups).Pairwise (fun a b ↦ a.name ≤ b.name) := by
  have hplaces : groups.all (·.key.hasPlace) = true := by
    refine List.all_eq_true.mpr fun g hg ↦ ?_
    rw [show g.key = .text g.name from hnamed g hg]
    rfl
  rw [sort, if_pos hplaces, List.pairwise_reverse]
  exact pairwise_foldl_insertReversed hnamed (by simp) List.Pairwise.nil

end Group

/-- The warnings about a text, in the order of recording. -/
def membersOf (notices : List Notice) (name : String) : List Notice :=
  (warnings notices).filter (·.group.display == name)

namespace AreGroupsOf

theorem isNamed (h : AreGroupsOf groups notices) (htexts : ∀ n ∈ notices, IsText n.group)
    {g : Group} (hg : g ∈ groups) : g.IsNamed := by
  obtain ⟨n, hn, hshown, hkey⟩ := h.named g hg
  obtain ⟨s, hs⟩ := exists_text_of_isText (htexts n hn)
  rw [← hshown, hs] at hkey
  rw [Group.IsNamed, Group.name, ← hshown, hs]
  exact (Option.some.inj hkey).symm

theorem fits_iff_display (h : AreGroupsOf groups notices) (htexts : ∀ n ∈ notices, IsText n.group)
    {g : Group} (hg : g ∈ groups) {n : Notice} (hn : n ∈ notices) :
    g.fits n = true ↔ n.group.display = g.name := by
  obtain ⟨s, hs⟩ := exists_text_of_isText (htexts n hn)
  have hkey : GroupKey.of? n.group = some (.text s) := by
    rw [hs]
    rfl
  rw [Group.fits_eq_same hkey, show g.key = .text g.name from h.isNamed htexts hg, hs]
  exact beq_iff_eq.trans eq_comm

/-- The groups that have been put in order have increasing names. -/
theorem pairwise_name_sort (h : AreGroupsOf groups notices)
    (htexts : ∀ n ∈ notices, IsText n.group) :
    ((Group.sort groups).map Group.name).Pairwise (· < ·) := by
  have hsorted := h.perm (Group.sort_perm groups)
  have hle := Group.pairwise_sort fun g hg ↦ h.isNamed htexts hg
  have hapart := List.pairwise_map.mp hsorted.apart
  refine List.pairwise_map.mpr ((hle.and hapart).imp_of_mem fun {g k} hg hk hboth ↦ ?_)
  obtain ⟨hle, hapart⟩ := hboth
  refine lt_of_le_of_ne hle fun heq ↦ ?_
  rw [show g.key = .text g.name from hsorted.isNamed htexts hg,
    show k.key = .text k.name from hsorted.isNamed htexts hk, heq, GroupKey.same_refl] at hapart
  cases hapart

end AreGroupsOf

/-! ## Nothing is lost -/

/-- Taken key by key, the items of a list come all, and each of them once. -/
theorem flatMap_filter_perm {α κ : Type} [DecidableEq κ] (f : α → κ) {keys : List κ}
    (hnodup : keys.Nodup) {xs : List α} (hcover : ∀ x ∈ xs, f x ∈ keys) :
    (keys.flatMap fun key ↦ xs.filter (f · == key)).Perm xs := by
  induction keys generalizing xs with
  | nil =>
      have hnone : xs = [] := List.eq_nil_iff_forall_not_mem.mpr fun x hx ↦
        absurd (hcover x hx) List.not_mem_nil
      rw [hnone]
      exact List.Perm.refl _
  | cons key rest ih =>
      obtain ⟨hfresh, hrest⟩ := List.nodup_cons.mp hnodup
      -- The items of the other keys are among those that are left without the first one.
      have hothers : (rest.flatMap fun other ↦ xs.filter (f · == other)) =
          rest.flatMap fun other ↦ (xs.filter (fun x ↦ !(f x == key))).filter (f · == other) := by
        refine List.flatMap_congr fun other hother ↦ ?_
        have hne : other ≠ key := fun heq ↦ hfresh (heq ▸ hother)
        rw [List.filter_filter]
        refine List.filter_congr fun x _ ↦ ?_
        by_cases hx : f x = other <;> simp [hx, hne]
      have hleft : ∀ x ∈ xs.filter (fun x ↦ !(f x == key)), f x ∈ rest := by
        intro x hx
        obtain ⟨hx, hne⟩ := List.mem_filter.mp hx
        exact (List.mem_cons.mp (hcover x hx)).resolve_left (by simpa using hne)
      rw [List.flatMap_cons, hothers]
      exact ((ih hrest hleft).append_left _).trans (List.filter_append_perm _ xs)

theorem severities_perm (notices : List Notice) :
    (errors notices ++ warnings notices ++ infos notices).Perm notices := by
  have hcover : ∀ n ∈ notices, n.severity ∈ [Severity.error, .warning, .info] := by
    intro n _
    cases n.severity <;> simp
  have hperm := flatMap_filter_perm Notice.severity (by decide) hcover
  simpa [errors, warnings, infos, ofSeverity] using hperm

/-! ## The lines -/

/-- A section of the listing, left out if it is about nothing. -/
def titled (title : String) (found : List Notice) (body : List String) : List String :=
  if found.isEmpty then [] else sectionHead title found.length ++ body

/-- The line of a group, and those of its members if the listing is verbose. -/
def groupBlock (verbose : Bool) (notices : List Notice) (name : String) : List String :=
  ("  " ++ name ++ ": " ++ toString (membersOf notices name).length ++ " occurrence(s)") ::
    if verbose then (membersOf notices name).map ("    " ++ ·.text) else []

/-- The lines that list some notices by groups with the given names. -/
def regroupedLines (verbose : Bool) (notices : List Notice) (names : List String) : List String :=
  titled "Generation errors" (errors notices) ((errors notices).map ("  " ++ ·.text)) ++
    titled "Generator warnings" (warnings notices) (names.flatMap (groupBlock verbose notices)) ++
      if verbose then
        titled "Generator info" (infos notices) ((infos notices).map ("  " ++ ·.text))
      else []

theorem errorLines_eq (notices : List Notice) :
    errorLines notices =
      titled "Generation errors" (errors notices) ((errors notices).map ("  " ++ ·.text)) := by
  unfold errorLines titled
  cases errors notices <;> rfl

theorem infoLines_eq (notices : List Notice) :
    infoLines notices =
      titled "Generator info" (infos notices) ((infos notices).map ("  " ++ ·.text)) := by
  unfold infoLines titled
  cases infos notices <;> rfl

/-- Names under which the warnings are regrouped: they increase, each of them has warnings, and
the notices regrouped by them are those that were recorded. -/
structure Regroups (notices : List Notice) (names : List String) : Prop where
  increasing : names.Pairwise (· < ·)
  mem_iff : ∀ name, name ∈ names ↔ ∃ w ∈ warnings notices, w.group = .text name
  whole : (errors notices ++ names.flatMap (membersOf notices) ++ infos notices).Perm notices
  total : (names.map fun name ↦ (membersOf notices name).length).sum = (warnings notices).length

theorem regroups_of_mem_iff (hincreasing : names.Pairwise (· < ·))
    (hmem : ∀ name, name ∈ names ↔ ∃ w ∈ warnings notices, w.group = .text name)
    (htexts : ∀ w ∈ warnings notices, IsText w.group) : Regroups notices names := by
  have hcover : ∀ w ∈ warnings notices, w.group.display ∈ names := by
    intro w hw
    obtain ⟨s, hs⟩ := exists_text_of_isText (htexts w hw)
    exact (hmem _).mpr ⟨w, hw, by rw [hs]; rfl⟩
  have hmembers : (names.flatMap (membersOf notices)).Perm (warnings notices) :=
    flatMap_filter_perm (fun w : Notice ↦ w.group.display) (hincreasing.imp ne_of_lt) hcover
  refine
    { increasing := hincreasing
      mem_iff := hmem
      whole := ?_
      total := ?_ }
  · exact ((hmembers.append_left _).append_right _).trans (severities_perm notices)
  · rw [← hmembers.length_eq, List.length_flatMap]

theorem AreGroupsOf.mem_names_iff (h : AreGroupsOf groups notices)
    (htexts : ∀ n ∈ notices, IsText n.group) (name : String) :
    name ∈ groups.map Group.name ↔ ∃ n ∈ notices, n.group = .text name := by
  constructor
  · intro hname
    obtain ⟨g, hg, rfl⟩ := List.mem_map.mp hname
    obtain ⟨n, hn, hshown, hfits⟩ := h.exists_fits hg
    obtain ⟨s, hs⟩ := exists_text_of_isText (htexts n hn)
    exact ⟨n, hn, by rw [Group.name, ← hshown, hs]; rfl⟩
  · rintro ⟨n, hn, hname⟩
    obtain ⟨g, hg, hfits⟩ := h.covered n hn
    rw [h.fits_iff_display htexts hg hn, hname] at hfits
    exact List.mem_map.mpr ⟨g, hg, hfits.symm⟩

theorem AreGroupsOf.flatMap_groupLines (h : AreGroupsOf groups (warnings notices))
    (htexts : ∀ w ∈ warnings notices, IsText w.group) (verbose : Bool) :
    groups.flatMap (groupLines verbose) =
      (groups.map Group.name).flatMap (groupBlock verbose notices) := by
  rw [List.flatMap_map]
  refine List.flatMap_congr fun g hg ↦ ?_
  have hmembers : g.members = membersOf notices g.name := by
    rw [h.members g hg]
    refine List.filter_congr fun w hw ↦ ?_
    rw [Bool.eq_iff_iff, h.fits_iff_display htexts hg hw, beq_iff_eq]
  rw [groupLines, hmembers]
  rfl

theorem titled_warnings_eq (h : Regroups notices names) (verbose : Bool) :
    titled "Generator warnings" (warnings notices) (names.flatMap (groupBlock verbose notices)) =
      warningHead notices ++ names.flatMap (groupBlock verbose notices) := by
  unfold titled warningHead
  cases hfound : warnings notices with
  | nil =>
      have hnone : names = [] := by
        refine List.eq_nil_iff_forall_not_mem.mpr fun name hname ↦ ?_
        obtain ⟨w, hw, _⟩ := (h.mem_iff name).mp hname
        rw [hfound] at hw
        exact List.not_mem_nil hw
      rw [hnone]
      rfl
  | cons w rest => rfl

/-- A listing of warnings about texts is complete, and has the lines of a regrouping. -/
theorem exists_regroups (htexts : ∀ w ∈ warnings notices, IsText w.group) (verbose : Bool) :
    ∃ names, Regroups notices names ∧
      listing verbose notices = ⟨regroupedLines verbose notices names, true⟩ := by
  obtain ⟨found, hgroups, hordered⟩ := Group.exists_ordered?_eq_sort (Or.inl htexts)
  have hsorted := hgroups.perm (Group.sort_perm found)
  have hregroups : Regroups notices ((Group.sort found).map Group.name) :=
    regroups_of_mem_iff (hgroups.pairwise_name_sort htexts) (hsorted.mem_names_iff htexts) htexts
  refine ⟨_, hregroups, ?_⟩
  rw [listing_of_ordered? hordered, hsorted.flatMap_groupLines htexts, regroupedLines,
    titled_warnings_eq hregroups, errorLines_eq, infoLines_eq, List.append_assoc (titled _ _ _)]

/-! ## Records with texts for kinds -/

/-- The kind of entry that the remark names, if it names one. -/
def kind? : Remark → Option Value
  | .unsupportedEntry kind => some kind
  | .skippedEntry kind => some kind
  | _ => none

theorem isText_group_of_kind {w : Notice} (hw : w.severity = .warning)
    (hkind : ∀ kind, kind? w.remark = some kind → IsText kind) : IsText w.group := by
  obtain ⟨remark, file⟩ := w
  refine Abi.isText_orElse (Or.inr ?_)
  cases remark with
  | anonymousEvent name => trivial
  | unsupportedEntry kind => exact Abi.isText_orElse (Or.inr (hkind kind rfl))
  | skippedEntry kind => cases hw
  | emptyAbi => cases hw
  | failure label message => cases hw

/-- Whatever has been recorded, if only the kinds are texts: the listing is complete and shows the
record regrouped, every notice in a verbose listing, the errors and the sizes of the groups of
warnings in the other one. -/
theorem listing_regroups_calls {calls : List Notice}
    (hkinds : ∀ call ∈ calls, ∀ kind, kind? call.remark = some kind → IsText kind)
    (verbose : Bool) :
    ∃ notices names, recorded calls = some notices ∧ notices.length = calls.length ∧
      Regroups notices names ∧
      listing verbose notices = ⟨regroupedLines verbose notices names, true⟩ := by
  have htexts : ∀ w ∈ warnings calls, IsText w.group := by
    intro w hw
    obtain ⟨hw, hseverity⟩ := List.mem_filter.mp hw
    exact isText_group_of_kind (beq_iff_eq.mp hseverity) (hkinds w hw)
  obtain ⟨names, hregroups, hlisting⟩ := exists_regroups htexts verbose
  exact ⟨calls, names, recorded_eq calls, rfl, hregroups, hlisting⟩

/-- One kind comes twice and one is empty; what is about them stands among other notices. -/
def interleavedCalls : List Notice :=
  [⟨.unsupportedEntry (.text "struct"), "a.json"⟩, ⟨.failure "OSError" "lost", "b.json"⟩,
    ⟨.skippedEntry (.text "receive"), "c.json"⟩, ⟨.unsupportedEntry (.text ""), "c.json"⟩,
    ⟨.emptyAbi, "d.json"⟩, ⟨.anonymousEvent (.int 5), "e.json"⟩,
    ⟨.unsupportedEntry (.text "struct"), "e.json"⟩]

theorem listing_regroups_interleavedCalls :
    ∃ notices names, recorded interleavedCalls = some notices ∧ Regroups notices names ∧
      "other" ∈ names ∧ "struct" ∈ names ∧
      listing true notices = ⟨regroupedLines true notices names, true⟩ := by
  have hkinds : ∀ call ∈ interleavedCalls, ∀ kind, kind? call.remark = some kind →
      IsText kind := by
    simp [interleavedCalls, kind?, IsText]
  obtain ⟨notices, names, hnotices, _, hregroups, hlisting⟩ := listing_regroups_calls hkinds true
  obtain rfl := Option.some.inj ((recorded_eq interleavedCalls).symm.trans hnotices)
  have hname {name : String} (w : Notice) (hw : w ∈ warnings interleavedCalls)
      (hgroup : w.group = .text name) : name ∈ names :=
    (hregroups.mem_iff name).mpr ⟨w, hw, hgroup⟩
  refine ⟨interleavedCalls, names, hnotices, hregroups, ?_, ?_, hlisting⟩
  · exact hname ⟨.unsupportedEntry (.text ""), "c.json"⟩ (.tail _ (.head _)) rfl
  · exact hname ⟨.unsupportedEntry (.text "struct"), "a.json"⟩ (.head _) rfl

end AbiTypings.Report
