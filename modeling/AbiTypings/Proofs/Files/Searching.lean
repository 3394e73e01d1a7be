import AbiTypings.Files.Search
import AbiTypings.Proofs.Files.Trees

/-!
# What a search below a directory finds

Whatever is found is made of names in the tree and of parts of the pattern, so it is spelled as
paths are. A search for the names that a wildcard matches, along any chain of directories, finds
all files with such names and nothing else. It fails if a directory on its way, or what has such a
name, is at a path that is too long to be used, and only then.
-/

namespace AbiTypings.FileTree

open Outcome AbiTypings.Path

variable {t : FileTree} {p q : Path} {path name : String} {dir loc : Location}
  {names : List String} {directories : Bool}

/-! ## Listed names -/

theorem place?_eq_some_iff : t.place? path = some loc ↔ t.locate path = .ok loc := by
  unfold place?
  split <;> simp_all

theorem mem_list_iff (h : t.IsSound) : name ∈ t.list path directories ↔
    ∃ loc, t.locate path = .ok loc ∧ (t.entryAt (loc ++ [name])).isSome = true ∧
      (directories = true → t.isDirectoryAt (loc ++ [name]) = true) := by
  unfold list
  split
  case h_1 hplace =>
    simp only [← place?_eq_some_iff, hplace, List.not_mem_nil, reduceCtorEq, false_and,
      exists_false]
  case h_2 loc hplace =>
    simp only [← place?_eq_some_iff, hplace, Option.some.injEq, exists_eq_left']
    split_ifs with hdir
    · rw [List.mem_filter, h.mem_namesIn_iff]
      cases directories <;> simp
    · refine iff_of_false List.not_mem_nil fun ⟨hsome, _⟩ ↦ hdir ?_
      exact h.isDirectoryAt_of_append (List.cons_ne_nil name []) hsome

theorem mem_descend_iff (h : t.IsSound) : names ∈ t.descend path directories ↔
    names ≠ [] ∧ ∃ loc, t.locate path = .ok loc ∧ (t.entryAt (loc ++ names)).isSome = true ∧
      (directories = true → t.isDirectoryAt (loc ++ names) = true) := by
  unfold descend
  split
  case h_1 hplace =>
    simp only [← place?_eq_some_iff, hplace, List.not_mem_nil, reduceCtorEq, false_and,
      exists_false, and_false]
  case h_2 loc hplace =>
    simp only [← place?_eq_some_iff, hplace, Option.some.injEq, exists_eq_left']
    by_cases hdir : t.isDirectoryAt loc = true
    · rw [if_pos hdir, List.mem_filterMap]
      constructor
      · rintro ⟨⟨way, e⟩, hbelow, hkept⟩
        obtain ⟨hne, hentry⟩ := h.mem_below_iff.mp hbelow
        have hsome : (t.entryAt (loc ++ way)).isSome = true := by rw [hentry]; rfl
        cases e with
        | directory =>
            obtain rfl := Option.some.inj hkept
            exact ⟨hne, hsome, fun _ ↦ isDirectoryAt_iff.mpr hentry⟩
        | file bytes =>
            cases directories with
            | true => cases hkept
            | false =>
                obtain rfl := Option.some.inj hkept
                exact ⟨hne, hsome, fun hdirs ↦ absurd hdirs Bool.false_ne_true⟩
      · rintro ⟨hne, hsome, hdirs⟩
        obtain ⟨e, hentry⟩ := Option.isSome_iff_exists.mp hsome
        refine ⟨(names, e), h.mem_below_iff.mpr ⟨hne, hentry⟩, ?_⟩
        rw [isDirectoryAt_iff, hentry] at hdirs
        cases e with
        | directory => rfl
        | file bytes =>
            cases directories with
            | true => cases hdirs rfl
            | false => rfl
    · rw [if_neg hdir]
      exact iff_of_false List.not_mem_nil fun ⟨hne, hsome, _⟩ ↦
        hdir (h.isDirectoryAt_of_append hne hsome)

theorem isEntryName_of_mem_list (h : t.IsSound) (hname : name ∈ t.list path directories) :
    IsEntryName name := by
  obtain ⟨_, _, hsome, _⟩ := (mem_list_iff h).mp hname
  exact h.isEntryName hsome (by simp)

theorem isEntryName_of_mem_descend (h : t.IsSound) (hnames : names ∈ t.descend path directories)
    (hname : name ∈ names) : IsEntryName name := by
  obtain ⟨_, _, _, hsome, _⟩ := (mem_descend_iff h).mp hnames
  exact h.isEntryName hsome (List.mem_append_right _ hname)

/-! ## Paths that are found -/

theorem opened_eq_ok_iff : t.opened p = .ok q ↔ (∃ e, t.status p.text = .ok e) ∧ q = p := by
  rw [opened, map_eq_ok_iff]
  exact ⟨fun ⟨e, he, hq⟩ ↦ ⟨⟨e, he⟩, hq.symm⟩, fun ⟨⟨e, he⟩, hq⟩ ↦ ⟨e, he, hq.symm⟩⟩

theorem mapM_opened_eq_ok_iff {paths found : List Path} : paths.mapM t.opened = .ok found ↔
    (∀ q ∈ paths, ∃ e, t.status q.text = .ok e) ∧ found = paths := by
  refine (mapM_eq_ok_iff_map fun _ _ ↦ opened_eq_ok_iff).trans ?_
  rw [List.map_id']

theorem mem_chainFrom_iff : q ∈ t.chainFrom p ↔
    q = p ∨ ∃ names ∈ t.descend p.text true, q = p.below names := by
  rw [chainFrom, List.map_cons, List.mem_cons, List.mem_map]
  refine or_congr ?_ (exists_congr fun names ↦ and_congr_right fun _ ↦ eq_comm)
  simp

/-- The names that a part of a pattern asks for can be parts of a path. -/
def NamesProper (parts : List PatternPart) : Prop := ∀ s, .name s ∈ parts → IsProper s

theorem eq_of_ofText_eq_name {part s : String} (h : PatternPart.ofText part = .ok (.name s)) :
    part = s := by
  unfold PatternPart.ofText at h
  split_ifs at h
  · cases h
  · cases h
  · exact PatternPart.name.inj (Except.ok.inj h)

theorem namesProper_patternParts {pattern : String} {parts : List PatternPart}
    (h : patternParts pattern = .ok parts) : NamesProper parts := by
  unfold patternParts at h
  dsimp only at h
  split_ifs at h
  all_goals
    obtain ⟨read, hread, hparts⟩ := bind_eq_ok_iff.mp h
    obtain rfl := Except.ok.inj hparts
    intro s hs
    have hmem : .name s ∈ read := by simpa using hs
    obtain ⟨part, hpart, hname⟩ := exists_mem_of_forall₂ (mapM_eq_ok_iff.mp hread) hmem
    exact eq_of_ofText_eq_name hname ▸ isNormal_ofText pattern part hpart

theorem isNormal_selectPart (h : t.IsSound) (hp : p.IsNormal) {part : PatternPart}
    (hpart : NamesProper [part]) {last : Bool} {found : List Path}
    (hfound : t.selectPart p part last = .ok found) (hq : q ∈ found) : q.IsNormal := by
  cases part with
  | directoryMark =>
      obtain rfl := Except.ok.inj hfound
      exact List.mem_singleton.mp hq ▸ hp
  | name s =>
      have hchild : q = p.child s := by
        rw [selectPart] at hfound
        split_ifs at hfound
        all_goals
          obtain ⟨isThere, _, hlisted⟩ := bind_eq_ok_iff.mp hfound
          obtain rfl := Except.ok.inj hlisted
          cases isThere
          · cases hq
          · exact List.mem_singleton.mp hq
      exact hchild ▸ isNormal_child hp (hpart s List.mem_cons_self)
  | wildcard s =>
      obtain ⟨p', hopened, hlisted⟩ := bind_eq_ok_iff.mp hfound
      obtain ⟨_, rfl⟩ := opened_eq_ok_iff.mp hopened
      obtain rfl := Except.ok.inj hlisted
      obtain ⟨name, hname, rfl⟩ := List.mem_map.mp hq
      have hentry := isEntryName_of_mem_list h (List.mem_of_mem_filter hname)
      exact isNormal_child hp hentry.proper
  | chain =>
      obtain ⟨_, rfl⟩ := mapM_opened_eq_ok_iff.mp hfound
      rcases mem_chainFrom_iff.mp hq with rfl | ⟨names, hnames, rfl⟩
      · exact hp
      · exact isNormal_below hp fun name hname ↦ (isEntryName_of_mem_descend h hnames hname).proper

theorem select_cons_eq_ok_iff {paths found : List Path} {part : PatternPart}
    {rest : List PatternPart} : t.select paths (part :: rest) = .ok found ↔
      ∃ lists, List.Forall₂ (fun p l ↦ t.selectPart p part rest.isEmpty = .ok l) paths lists ∧
        t.select lists.flatten.eraseDups rest = .ok found := by
  rw [select, bind_eq_ok_iff]
  simp only [mapM_eq_ok_iff]

theorem isNormal_select (h : t.IsSound) {paths found : List Path} {parts : List PatternPart}
    (hparts : NamesProper parts) (hpaths : ∀ p ∈ paths, p.IsNormal)
    (hfound : t.select paths parts = .ok found) : ∀ q ∈ found, q.IsNormal := by
  induction parts generalizing paths with
  | nil => exact Except.ok.inj hfound ▸ hpaths
  | cons part rest ih =>
      obtain ⟨lists, hlists, hrest⟩ := select_cons_eq_ok_iff.mp hfound
      refine ih (fun s hs ↦ hparts s (List.mem_cons_of_mem part hs)) (fun q hq ↦ ?_) hrest
      obtain ⟨l, hl, hql⟩ := List.mem_flatten.mp (List.mem_eraseDups.mp hq)
      obtain ⟨p, hp, hselect⟩ := exists_mem_of_forall₂ hlists hl
      refine isNormal_selectPart h (hpaths p hp) (fun s hs ↦ hparts s ?_) hselect hql
      exact List.mem_singleton.mp hs ▸ List.mem_cons_self

/-- A search selects paths and keeps those of files, unless it starts at no directory. -/
theorem exists_select_of_filesUnder {pattern : String} {found : List String}
    (hfound : t.filesUnder p pattern = .ok found) :
    found = [] ∨ ∃ parts selected, patternParts pattern = .ok parts ∧
      t.select [p] parts = .ok selected ∧
        found = passing (fun path ↦ (t.isFile path).mapError SearchFault.file)
          (selected.map Path.text) := by
  obtain ⟨parts, hparts, hsearch⟩ := bind_eq_ok_iff.mp hfound
  obtain ⟨isDirectory, _, hsearch⟩ := bind_eq_ok_iff.mp hsearch
  cases isDirectory with
  | false => exact Or.inl (Except.ok.inj hsearch).symm
  | true =>
      obtain ⟨selected, hselect, hfilter⟩ := bind_eq_ok_iff.mp hsearch
      rw [mapError_eq_ok_iff] at hparts hselect
      exact Or.inr ⟨parts, selected, hparts, hselect, (filterM_eq_ok_iff.mp hfilter).2⟩

theorem isNormal_of_mem_selected (h : t.IsSound) (hp : p.IsNormal) {pattern : String}
    {parts : List PatternPart} {selected : List Path} (hparts : patternParts pattern = .ok parts)
    (hselect : t.select [p] parts = .ok selected) : ∀ q ∈ selected, q.IsNormal :=
  isNormal_select h (namesProper_patternParts hparts)
    (fun _ hq ↦ List.mem_singleton.mp hq ▸ hp) hselect

/-- What a search below a directory finds is spelled as paths are, and is a file. -/
theorem exists_of_mem_filesUnder (h : t.IsSound) (hp : p.IsNormal) {pattern : String}
    {found : List String} (hfound : t.filesUnder p pattern = .ok found) (hpath : path ∈ found) :
    ∃ q : Path, q.IsNormal ∧ path = q.text := by
  rcases exists_select_of_filesUnder hfound with rfl | ⟨parts, selected, hparts, hselect, rfl⟩
  · cases hpath
  · obtain ⟨q, hq, rfl⟩ := List.mem_map.mp (mem_passing.mp hpath).1
    exact ⟨q, isNormal_of_mem_selected h hp hparts hselect q hq, rfl⟩

/-! ## Paths that are found once -/

theorem nodup_eraseDups (paths : List Path) : paths.eraseDups.Nodup := by
  cases paths with
  | nil => exact .nil
  | cons p rest =>
      rw [List.eraseDups_cons, List.nodup_cons, List.mem_eraseDups]
      exact ⟨by simp, nodup_eraseDups (rest.filter fun q ↦ !q == p)⟩
termination_by paths.length
decreasing_by
  exact Nat.lt_succ_of_le (List.length_filter_le _ _)

theorem nodup_select {paths found : List Path} {parts : List PatternPart} (hpaths : paths.Nodup)
    (hfound : t.select paths parts = .ok found) : found.Nodup := by
  induction parts generalizing paths with
  | nil => exact Except.ok.inj hfound ▸ hpaths
  | cons part rest ih =>
      obtain ⟨_, _, hrest⟩ := select_cons_eq_ok_iff.mp hfound
      exact ih (nodup_eraseDups _) hrest

/-- Two paths that are found have different texts, so no text is found twice. -/
theorem nodup_filesUnder (h : t.IsSound) (hp : p.IsNormal) {pattern : String}
    {found : List String} (hfound : t.filesUnder p pattern = .ok found) : found.Nodup := by
  rcases exists_select_of_filesUnder hfound with rfl | ⟨parts, selected, hparts, hselect, rfl⟩
  · exact .nil
  · have hnormal := isNormal_of_mem_selected h hp hparts hselect
    have hselected := nodup_select (List.nodup_singleton p) hselect
    exact (hselected.map_on fun q hq r hr ↦
      Path.eq_of_text_eq (hnormal q hq) (hnormal r hr)).filter _

/-! ## A wildcard along a chain of directories -/

/-- What the wildcard matches in a directory. -/
def matchesIn (t : FileTree) (w : String) (q : Path) : List Path :=
  ((t.list q.text false).filter (wildcardMatches w)).map q.child

def matchesAlong (t : FileTree) (w : String) (p : Path) : List Path :=
  ((t.chainFrom p).eraseDups.flatMap (t.matchesIn w)).eraseDups

variable {w : String}

theorem selectPart_wildcard_eq_ok_iff {found : List Path} :
    t.selectPart q (.wildcard w) true = .ok found ↔
      (∃ e, t.status q.text = .ok e) ∧ found = t.matchesIn w q := by
  rw [selectPart, bind_eq_ok_iff]
  simp only [opened_eq_ok_iff]
  constructor
  · rintro ⟨q', ⟨hstatus, rfl⟩, hfound⟩
    exact ⟨hstatus, (Except.ok.inj hfound).symm⟩
  · rintro ⟨hstatus, rfl⟩
    exact ⟨q, ⟨hstatus, rfl⟩, rfl⟩

/-- A step of which the paths are known, if it gives any. -/
theorem select_cons_eq_ok_iff_flatMap {part : PatternPart} {rest : List PatternPart}
    {P : Path → Prop} {g : Path → List Path}
    (h : ∀ q l, t.selectPart q part rest.isEmpty = .ok l ↔ P q ∧ l = g q)
    {paths found : List Path} : t.select paths (part :: rest) = .ok found ↔
      (∀ q ∈ paths, P q) ∧ t.select (paths.flatMap g).eraseDups rest = .ok found := by
  rw [select, bind_eq_ok_iff]
  simp only [mapM_eq_ok_iff_map h]
  constructor
  · rintro ⟨lists, ⟨hP, rfl⟩, hrest⟩
    exact ⟨hP, hrest⟩
  · rintro ⟨hP, hrest⟩
    exact ⟨_, ⟨hP, rfl⟩, hrest⟩

theorem select_chain_wildcard_eq_ok_iff {found : List Path} :
    t.select [p] [.chain, .wildcard w] = .ok found ↔
      (∀ q ∈ t.chainFrom p, ∃ e, t.status q.text = .ok e) ∧ found = t.matchesAlong w p := by
  have hchain (q : Path) (l : List Path) : t.selectPart q .chain false = .ok l ↔
      (∀ r ∈ t.chainFrom q, ∃ e, t.status r.text = .ok e) ∧ l = t.chainFrom q :=
    mapM_opened_eq_ok_iff
  rw [select_cons_eq_ok_iff_flatMap hchain,
    select_cons_eq_ok_iff_flatMap fun q l ↦ selectPart_wildcard_eq_ok_iff, select]
  simp only [List.forall_mem_singleton, List.flatMap_singleton, Except.ok.injEq,
    List.mem_eraseDups]
  constructor
  · rintro ⟨hstatus, _, rfl⟩
    exact ⟨hstatus, rfl⟩
  · rintro ⟨hstatus, rfl⟩
    exact ⟨hstatus, hstatus, rfl⟩

section

variable {pattern : String} (hpattern : patternParts pattern = .ok [.chain, .wildcard w])
  (hisDirectory : t.isDirectory p.text = .ok true)

include hpattern hisDirectory

theorem filesUnder_eq_ok_iff {found : List String} :
    t.filesUnder p pattern = .ok found ↔
      (∀ q ∈ t.chainFrom p, ∃ e, t.status q.text = .ok e) ∧
        (∀ q ∈ t.matchesAlong w p, ∃ b, t.isFile q.text = .ok b) ∧
          found = passing (fun path ↦ (t.isFile path).mapError SearchFault.file)
            ((t.matchesAlong w p).map Path.text) := by
  have hsearch : t.filesUnder p pattern = (do
      let found ← (t.select [p] [.chain, .wildcard w]).mapError .file
      (found.map Path.text).filterM fun path ↦ (t.isFile path).mapError .file) := by
    rw [filesUnder, hpattern, hisDirectory]
    rfl
  rw [hsearch, bind_eq_ok_iff]
  simp only [mapError_eq_ok_iff, select_chain_wildcard_eq_ok_iff, filterM_eq_ok_iff,
    List.forall_mem_map]
  constructor
  · rintro ⟨selected, ⟨hstatus, rfl⟩, hfiles, rfl⟩
    exact ⟨hstatus, hfiles, rfl⟩
  · rintro ⟨hstatus, hfiles, rfl⟩
    exact ⟨_, ⟨hstatus, rfl⟩, hfiles, rfl⟩

end

/-! ## What is found -/

/-- A directory below another one is at a path that is too long to be used. -/
def HasOverlongDirectory (t : FileTree) (p : Path) : Prop :=
  ∃ names ∈ t.descend p.text true, IsOverlong (p.below names)

instance (t : FileTree) (p : Path) : Decidable (t.HasOverlongDirectory p) :=
  inferInstanceAs (Decidable (∃ names ∈ t.descend p.text true, IsOverlong (p.below names)))

/-- The names lead to a file with a name that the wildcard matches. -/
def IsMatchBelow (t : FileTree) (w : String) (dir : Location) (names : List String) : Prop :=
  t.isFileAt (dir ++ names) = true ∧ ∃ name, names.getLast? = some name ∧
    wildcardMatches w name = true

section Found

variable (h : t.IsSound) (hp : p.IsNormal) (hlocate : t.locate p.text = .ok dir)
  (hdir : t.isDirectoryAt dir = true)

include h hp hlocate hdir

omit hp in
theorem mem_chainFrom_iff_isDirectoryAt : q ∈ t.chainFrom p ↔
    ∃ names, t.isDirectoryAt (dir ++ names) = true ∧ q = p.below names := by
  rw [mem_chainFrom_iff]
  constructor
  · rintro (rfl | ⟨names, hnames, rfl⟩)
    · exact ⟨[], by rwa [List.append_nil], (below_nil q).symm⟩
    · obtain ⟨_, loc, hloc, _, hdirs⟩ := (mem_descend_iff h).mp hnames
      obtain rfl := Except.ok.inj (hlocate.symm.trans hloc)
      exact ⟨names, hdirs rfl, rfl⟩
  · rintro ⟨names, hnames, rfl⟩
    by_cases hne : names = []
    · subst hne
      exact Or.inl (below_nil p)
    · have hsome := isSome_of_isDirectoryAt hnames
      exact Or.inr ⟨names, (mem_descend_iff h).mpr ⟨hne, dir, hlocate, hsome, fun _ ↦ hnames⟩, rfl⟩

theorem forall_chainFrom_iff : (∀ q ∈ t.chainFrom p, ∃ e, t.status q.text = .ok e) ↔
    ¬ t.HasOverlongDirectory p := by
  have hstatus {names : List String} (hnames : t.isDirectoryAt (dir ++ names) = true) :
      (∃ e, t.status (p.below names).text = .ok e) ↔ ¬ IsOverlong (p.below names) := by
    rw [status_below hp hlocate h (isSome_of_isDirectoryAt hnames)]
    split_ifs <;> simp_all
  constructor
  · rintro hall ⟨names, hnames, hlong⟩
    obtain ⟨_, loc, hloc, _, hdirs⟩ := (mem_descend_iff h).mp hnames
    obtain rfl := Except.ok.inj (hlocate.symm.trans hloc)
    refine (hstatus (hdirs rfl)).mp (hall _ ?_) hlong
    exact mem_chainFrom_iff.mpr (Or.inr ⟨names, hnames, rfl⟩)
  · intro hshort q hq
    obtain ⟨names, hnames, rfl⟩ := (mem_chainFrom_iff_isDirectoryAt h hlocate hdir).mp hq
    refine (hstatus hnames).mpr fun hlong ↦ ?_
    rcases mem_chainFrom_iff.mp hq with heq | ⟨names', hnames', heq⟩
    · exact not_isOverlong_of_locate hlocate (heq ▸ hlong)
    · exact hshort ⟨names', hnames', heq ▸ hlong⟩

theorem mem_matchesAlong_iff (hshort : ¬ t.HasOverlongDirectory p) :
    q ∈ t.matchesAlong w p ↔ ∃ front name, wildcardMatches w name = true ∧
      (t.entryAt (dir ++ (front ++ [name]))).isSome = true ∧ q = p.below (front ++ [name]) := by
  have hstatus := (forall_chainFrom_iff h hp hlocate hdir).mpr hshort
  have hchain {q : Path} := mem_chainFrom_iff_isDirectoryAt (q := q) h hlocate hdir
  have hplace {front : List String} (hfront : t.isDirectoryAt (dir ++ front) = true) :
      t.locate (p.below front).text = .ok (dir ++ front) := by
    have hsome := isSome_of_isDirectoryAt hfront
    have hshort' := hstatus _ (hchain.mpr ⟨front, hfront, rfl⟩)
    rw [status_below hp hlocate h hsome] at hshort'
    rw [locate_below hp hlocate h hsome]
    split_ifs at hshort' ⊢
    · cases hshort'.choose_spec
    · rfl
  simp only [matchesAlong, matchesIn, List.mem_eraseDups, List.mem_flatMap, List.mem_map,
    List.mem_filter, mem_list_iff h]
  constructor
  · rintro ⟨_, hq, name, ⟨⟨loc, hloc, hsome, _⟩, hmatch⟩, rfl⟩
    obtain ⟨front, hfront, rfl⟩ := hchain.mp hq
    obtain rfl := Except.ok.inj ((hplace hfront).symm.trans hloc)
    exact ⟨front, name, hmatch, by rwa [← List.append_assoc], (below_concat p front name).symm⟩
  · rintro ⟨front, name, hmatch, hsome, rfl⟩
    rw [← List.append_assoc] at hsome
    have hfront := h.isDirectoryAt_of_append (List.cons_ne_nil name []) hsome
    refine ⟨p.below front, hchain.mpr ⟨front, hfront, rfl⟩, name, ⟨⟨_, hplace hfront, hsome, ?_⟩,
      hmatch⟩, (below_concat p front name).symm⟩
    exact fun hdirs ↦ absurd hdirs Bool.false_ne_true

variable {pattern : String} (hpattern : patternParts pattern = .ok [.chain, .wildcard w])

include hpattern

/-- The search comes to its end if no directory and no file that it looks for is too far down. -/
theorem exists_filesUnder_eq_ok_iff : (∃ found, t.filesUnder p pattern = .ok found) ↔
    ¬ t.HasOverlongDirectory p ∧
      ∀ names, t.IsMatchBelow w dir names → ¬ IsOverlong (p.below names) := by
  have hisDirectory := isDirectory_eq_ok_true_iff.mpr ⟨dir, hlocate, hdir⟩
  have hchain := forall_chainFrom_iff h hp hlocate hdir
  simp only [filesUnder_eq_ok_iff hpattern hisDirectory, hchain, exists_and_left]
  refine and_congr_right fun hshort ↦ ?_
  simp only [exists_eq, and_true, mem_matchesAlong_iff h hp hlocate hdir hshort]
  constructor
  · rintro hall names ⟨hfile, name, hlast, hmatch⟩ hlong
    obtain ⟨front, rfl⟩ := List.getLast?_eq_some_iff.mp hlast
    have hsome := isSome_of_isFileAt hfile
    obtain ⟨b, hb⟩ := hall _ ⟨front, name, hmatch, hsome, rfl⟩
    rw [isFile_below hp hlocate h hsome, if_pos hlong] at hb
    cases hb
  · rintro hall _ ⟨front, name, hmatch, hsome, rfl⟩
    rw [isFile_below hp hlocate h hsome]
    obtain ⟨e, hentry⟩ := Option.isSome_iff_exists.mp hsome
    refine ⟨_, if_neg fun hlong ↦ ?_⟩
    cases e with
    | directory =>
        refine hshort ⟨_, (mem_descend_iff h).mpr ⟨by simp, dir, hlocate, hsome, fun _ ↦ ?_⟩, hlong⟩
        exact isDirectoryAt_iff.mpr hentry
    | file bytes =>
        refine hall _ ⟨?_, name, List.getLast?_concat, hmatch⟩ hlong
        rw [isFileAt, hentry]

theorem mem_filesUnder_iff {found : List String} (hfound : t.filesUnder p pattern = .ok found) :
    path ∈ found ↔ ∃ names, t.IsMatchBelow w dir names ∧ path = (p.below names).text := by
  have hisDirectory := isDirectory_eq_ok_true_iff.mpr ⟨dir, hlocate, hdir⟩
  have hends := (exists_filesUnder_eq_ok_iff h hp hlocate hdir hpattern).mp ⟨found, hfound⟩
  obtain ⟨hshort, hfiles⟩ := hends
  obtain ⟨_, _, rfl⟩ := (filesUnder_eq_ok_iff hpattern hisDirectory).mp hfound
  rw [mem_passing, List.mem_map, mapError_eq_ok_iff]
  simp only [mem_matchesAlong_iff h hp hlocate hdir hshort]
  constructor
  · rintro ⟨⟨_, ⟨front, name, hmatch, hsome, rfl⟩, rfl⟩, hfile⟩
    rw [isFile_below hp hlocate h hsome] at hfile
    split_ifs at hfile
    have hfileAt := Except.ok.inj hfile
    exact ⟨_, ⟨hfileAt, name, List.getLast?_concat, hmatch⟩, rfl⟩
  · rintro ⟨names, hmatchBelow, rfl⟩
    obtain ⟨hfile, name, hlast, hmatch⟩ := id hmatchBelow
    obtain ⟨front, rfl⟩ := List.getLast?_eq_some_iff.mp hlast
    have hsome := isSome_of_isFileAt hfile
    refine ⟨⟨_, ⟨front, name, hmatch, hsome, rfl⟩, rfl⟩, ?_⟩
    rw [isFile_below hp hlocate h hsome, if_neg (hfiles _ hmatchBelow), hfile]

end Found

/-! ## How a search fails -/

theorem eq_nameTooLong_of_status {fault : FileFault} (h : t.status path = .error fault) :
    fault = .nameTooLong := by
  unfold status at h
  split at h <;> simp_all

theorem eq_nameTooLong_of_selectPart {part : PatternPart} {last : Bool} {fault : FileFault}
    (h : t.selectPart p part last = .error fault) : fault = .nameTooLong := by
  have hopened {q : Path} (hq : t.opened q = .error fault) : fault = .nameTooLong :=
    eq_nameTooLong_of_status (map_eq_error_iff.mp hq)
  cases part with
  | directoryMark => cases h
  | name s =>
      rw [selectPart] at h
      split_ifs at h
      all_goals
        rcases bind_eq_error_iff.mp h with h | ⟨_, _, hpure⟩
        · exact eq_nameTooLong_of_status (map_eq_error_iff.mp h)
        · cases hpure
  | wildcard s =>
      rcases bind_eq_error_iff.mp h with h | ⟨_, _, hpure⟩
      · exact hopened h
      · cases hpure
  | chain =>
      obtain ⟨q, _, hq⟩ := exists_mem_of_mapM_eq_error h
      exact hopened hq

theorem eq_nameTooLong_of_select {paths : List Path} {parts : List PatternPart}
    {fault : FileFault} (h : t.select paths parts = .error fault) : fault = .nameTooLong := by
  induction parts generalizing paths with
  | nil => cases h
  | cons part rest ih =>
      rcases bind_eq_error_iff.mp h with h | ⟨_, _, hrest⟩
      · obtain ⟨p, _, hp⟩ := exists_mem_of_mapM_eq_error h
        exact eq_nameTooLong_of_selectPart hp
      · exact ih hrest

/-- With a pattern that is in order, a search fails only at a path that is too long. -/
theorem eq_nameTooLong_of_filesUnder {pattern : String} {parts : List PatternPart}
    (hpattern : patternParts pattern = .ok parts) {fault : SearchFault}
    (h : t.filesUnder p pattern = .error fault) : fault = .file .nameTooLong := by
  have hfile {α : Type} {x : Except FileFault α} (hx : x.mapError .file = .error fault)
      (hstatus : ∀ f, x = .error f → f = .nameTooLong) : fault = .file .nameTooLong := by
    obtain ⟨f, hf, rfl⟩ := mapError_eq_error_iff.mp hx
    rw [hstatus f hf]
  rw [filesUnder, hpattern] at h
  rcases bind_eq_error_iff.mp h with h | ⟨_, _, h⟩
  · cases h
  rcases bind_eq_error_iff.mp h with h | ⟨isDirectory, _, h⟩
  · exact hfile h fun f hf ↦ eq_nameTooLong_of_status (map_eq_error_iff.mp hf)
  cases isDirectory with
  | false => cases h
  | true =>
      rcases bind_eq_error_iff.mp h with h | ⟨_, _, h⟩
      · exact hfile h fun f hf ↦ eq_nameTooLong_of_select hf
      · obtain ⟨path, _, hpath⟩ := exists_mem_of_filterM_eq_error h
        exact hfile hpath fun f hf ↦ eq_nameTooLong_of_status (map_eq_error_iff.mp hf)

theorem filesUnder_of_hasOverlongDirectory (h : t.IsSound) (hp : p.IsNormal)
    (hdir : t.isDirectory p.text = .ok true) {pattern : String}
    (hpattern : patternParts pattern = .ok [.chain, .wildcard w])
    (hlong : t.HasOverlongDirectory p) :
    t.filesUnder p pattern = .error (.file .nameTooLong) := by
  obtain ⟨dir, hlocate, hplace⟩ := isDirectory_eq_ok_true_iff.mp hdir
  cases hsearch : t.filesUnder p pattern with
  | ok found =>
      have hends := (exists_filesUnder_eq_ok_iff h hp hlocate hplace hpattern).mp ⟨found, hsearch⟩
      exact absurd hlong hends.1
  | error fault => rw [eq_nameTooLong_of_filesUnder hpattern hsearch]

end AbiTypings.FileTree
