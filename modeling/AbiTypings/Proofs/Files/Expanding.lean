import AbiTypings.Proofs.Files.Searching

/-!
# How the answers to a pattern text are spelled

The answers to a pattern keep its spelling. If the pattern itself is spelled as paths are, each
answer is put together from the front: a text is a front if a name can be put behind it as behind
a directory, and putting names or chains of names behind a front gives a front again. Only a
pattern that ends in a chain has answers that end in a slash.
-/

namespace AbiTypings.FileTree

open Outcome AbiTypings.Path

variable {t : FileTree} {p : Path} {path name s : String} {names : List String}
  {directories : Bool}

/-! ## Fronts -/

/-- Names that are put behind the text stand there as in the text of a path. -/
def IsFront (s : String) : Prop :=
  ∃ p : Path, p.IsNormal ∧ ∀ name, IsProper name → attach s name = (p.child name).text

theorem getLast?_text_child (p : Path) (hname : IsProper name) :
    (p.child name).text ≠ "" ∧ (p.child name).text.toList.getLast? ≠ some '/' := by
  obtain ⟨c, cs, hcs, _⟩ := hname.exists_cons
  have hlast : name.toList.getLast? ≠ some '/' := fun hslash ↦
    hname.2 (List.mem_of_getLast? hslash)
  have hne : name.toList ≠ [] := by simp [hcs]
  have hbehind (front : String) : front ++ name ≠ "" ∧
      (front ++ name).toList.getLast? ≠ some '/' := by
    refine ⟨fun hempty ↦ hne ?_, ?_⟩
    · have hnil := congrArg String.toList hempty
      rw [String.toList_append] at hnil
      exact (List.append_eq_nil_iff.mp hnil).2
    · rwa [String.toList_append, List.getLast?_append_of_ne_nil _ hne]
  rw [text_child]
  split_ifs <;> exact hbehind _

theorem attach_of_ne (hs : s ≠ "") (hlast : s.toList.getLast? ≠ some '/') (name : String) :
    attach s name = s ++ "/" ++ name := by
  rw [attach, if_neg]
  simp [hs, hlast]

theorem attach_of_slash (hs : s = "" ∨ s.toList.getLast? = some '/') (name : String) :
    attach s name = s ++ name := by
  rw [attach, if_pos]
  simpa using hs

theorem attach_text_child (p : Path) (hname : IsProper name) (next : String) :
    attach (p.child name).text next = ((p.child name).child next).text := by
  obtain ⟨hne, hlast⟩ := getLast?_text_child p hname
  rw [attach_of_ne hne hlast, text_child (p.child name), if_neg (by simp [child])]

theorem isFront_text_child (hp : p.IsNormal) (hname : IsProper name) :
    IsFront (p.child name).text :=
  ⟨p.child name, isNormal_child hp hname, fun next _ ↦ attach_text_child p hname next⟩

theorem isFront_anchor (anchor : Anchor) : IsFront anchor.text := by
  refine ⟨⟨anchor, []⟩, fun s hs ↦ absurd hs List.not_mem_nil, fun name _ ↦ ?_⟩
  rw [text_child, if_pos rfl, attach_of_slash]
  cases anchor with
  | relative => exact Or.inl rfl
  | root => exact Or.inr rfl
  | doubleRoot => exact Or.inr rfl

theorem IsFront.attach (h : IsFront s) (hname : IsProper name) : IsFront (attach s name) := by
  obtain ⟨p, hp, hattach⟩ := h
  rw [hattach name hname]
  exact isFront_text_child hp hname

/-- A slash at the end changes nothing for the names behind it. -/
theorem IsFront.attach_empty (h : IsFront s) : IsFront (FileTree.attach s "") := by
  by_cases hs : s = "" ∨ s.toList.getLast? = some '/'
  · rwa [attach_of_slash hs, String.append_empty]
  · obtain ⟨p, hp, hattach⟩ := h
    obtain ⟨hne, hlast⟩ := not_or.mp hs
    refine ⟨p, hp, fun name hname ↦ ?_⟩
    have hslash : (s ++ "/").toList.getLast? = some '/' := by simp
    rw [attach_of_ne hne hlast, String.append_empty, attach_of_slash (Or.inr hslash),
      ← attach_of_ne hne hlast, hattach name hname]

theorem IsFront.attach_chain (h : IsFront s) (hne : names ≠ [])
    (hnames : ∀ name ∈ names, IsProper name) :
    IsFront (FileTree.attach s ("/".intercalate names)) := by
  induction names generalizing s with
  | nil => exact absurd rfl hne
  | cons name rest ih =>
      obtain ⟨hname, hrest⟩ := List.forall_mem_cons.mp hnames
      cases rest with
      | nil => simpa using h.attach hname
      | cons next more =>
          have hstep : FileTree.attach s ("/".intercalate (name :: next :: more)) =
              FileTree.attach (FileTree.attach s name) ("/".intercalate (next :: more)) := by
            obtain ⟨p, _, hattach⟩ := h
            obtain ⟨hempty, hlast⟩ := getLast?_text_child p hname
            rw [hattach name hname, attach_of_ne hempty hlast, ← hattach name hname,
              String.intercalate_cons_cons]
            unfold FileTree.attach
            split_ifs <;> simp [String.append_assoc]
          rw [hstep]
          exact ih (h.attach hname) (List.cons_ne_nil next more) hrest

/-! ## One part of a pattern -/

theorem isProper_of_mem_matchLast (h : t.IsSound) {last : String} (hlast : IsProper last)
    (hchain : last ≠ "**") {front : String} (hname : name ∈ t.matchLast front last directories) :
    IsProper name := by
  have hempty : last.isEmpty = false := by
    obtain ⟨c, cs, hcs, _⟩ := hlast.exists_cons
    rw [Bool.eq_false_iff, ne_eq, String.isEmpty_iff]
    rintro rfl
    cases hcs
  unfold matchLast at hname
  dsimp only at hname
  rw [if_neg hchain, if_neg (ne_of_eq_of_ne hempty Bool.false_ne_true)] at hname
  split_ifs at hname
  · exact (isEntryName_of_mem_list h (List.mem_of_mem_filter hname)).proper
  · exact List.mem_singleton.mp hname ▸ hlast
  · cases hname

theorem isFront_of_mem_matchLast (h : t.IsSound) {last : String} (hlast : IsProper last)
    {front : String} (hfront : IsFront front) (hname : name ∈ t.matchLast front last directories) :
    IsFront (attach front name) := by
  by_cases hchain : last = "**"
  · unfold matchLast at hname
    dsimp only at hname
    rw [if_pos hchain] at hname
    rcases List.mem_cons.mp hname with rfl | hname
    · exact hfront.attach_empty
    · obtain ⟨names, hnames, rfl⟩ := List.mem_map.mp hname
      have hdescend := List.mem_of_mem_filter hnames
      obtain ⟨hne, _⟩ := (mem_descend_iff h).mp hdescend
      exact hfront.attach_chain hne fun name hname ↦
        (isEntryName_of_mem_descend h hdescend hname).proper
  · exact hfront.attach (isProper_of_mem_matchLast h hlast hchain hname)

/-! ## Whole patterns -/

/-- What stands in front of the names in a directory. -/
def frontOf (p : Path) : String := if p.parts = [] then p.anchor.text else p.text

theorem isFront_frontOf (hp : p.IsNormal) : IsFront (frontOf p) := by
  unfold frontOf
  split_ifs with hne
  · exact isFront_anchor p.anchor
  · have hfront := isFront_text_child (isNormal_parent hp) (isProper_name hp hne)
    rwa [child_parent hne] at hfront

theorem splitLast_of_notMem {last : List Char} (h : '/' ∉ last) : splitLast last = ([], last) := by
  have hkept : ∀ c ∈ last.reverse, (c != '/') = true := by
    intro c hc
    rw [bne_iff_ne]
    rintro rfl
    exact h (List.mem_reverse.mp hc)
  unfold splitLast
  rw [← List.append_nil last.reverse, List.takeWhile_append_of_pos hkept,
    List.dropWhile_append_of_pos hkept]
  simp

theorem splitLast_append {front last : List Char} (h : '/' ∉ last) :
    splitLast (front ++ '/' :: last) =
      (if (front.reverse.dropWhile (· == '/')).isEmpty then front ++ ['/']
        else (front.reverse.dropWhile (· == '/')).reverse, last) := by
  have hkept : ∀ c ∈ last.reverse, (c != '/') = true := by
    intro c hc
    rw [bne_iff_ne]
    rintro rfl
    exact h (List.mem_reverse.mp hc)
  unfold splitLast
  have hreverse : (front ++ '/' :: last).reverse = last.reverse ++ '/' :: front.reverse := by simp
  rw [hreverse, List.takeWhile_append_of_pos hkept, List.dropWhile_append_of_pos hkept]
  simp

theorem splitLast_text_child (hp : p.IsNormal) (hname : IsProper name) :
    splitLast (p.child name).text.toList = ((frontOf p).toList, name.toList) := by
  have hslash : "/".toList = ['/'] := rfl
  rw [text_child, frontOf]
  split_ifs with hne
  · obtain ⟨anchor, parts⟩ := p
    cases anchor with
    | relative => simpa [Anchor.text] using splitLast_of_notMem hname.2
    | root =>
        have hroot : Anchor.root.text.toList = [] ++ ['/'] := rfl
        rw [String.toList_append, hroot, List.append_assoc]
        exact splitLast_append hname.2
    | doubleRoot =>
        have hroot : Anchor.doubleRoot.text.toList = ['/'] ++ ['/'] := rfl
        rw [String.toList_append, hroot, List.append_assoc]
        exact splitLast_append hname.2
  · obtain ⟨hempty, hlast⟩ := getLast?_text_child p.parent (isProper_name hp hne)
    rw [child_parent hne] at hempty hlast
    have htrimmed : p.text.toList.reverse.dropWhile (· == '/') = p.text.toList.reverse := by
      rw [← List.head?_reverse] at hlast
      cases hback : p.text.toList.reverse with
      | nil => rfl
      | cons c rest =>
          rw [hback] at hlast
          exact List.dropWhile_cons_of_neg (by simpa using hlast)
    rw [String.toList_append, String.toList_append, hslash, List.append_assoc,
      List.singleton_append, splitLast_append hname.2, htrimmed]
    simp [hempty]

/-- The fronts that the names of the last part are put behind. -/
def frontsFor (t : FileTree) (fuel : Nat) (front pattern : String) : List String :=
  match fuel with
  | 0 => [front]
  | fuel + 1 =>
    if Wildcard.isMagic front && front != pattern then t.expand fuel front true else [front]

theorem eq_of_mem_expand {fuel : Nat} {pattern : String}
    (hliteral : Wildcard.isMagic pattern = false)
    (hpath : path ∈ t.expand fuel pattern directories) : path = pattern := by
  rw [expand.eq_def] at hpath
  dsimp only at hpath
  rw [hliteral, Bool.not_false, if_pos rfl] at hpath
  split_ifs at hpath
  · split at hpath
    · split_ifs at hpath
      · exact List.mem_singleton.mp hpath
      · cases hpath
    · cases hpath
  · exact List.mem_singleton.mp hpath
  · cases hpath

theorem mem_expand_text_child (hp : p.IsNormal) (hname : IsProper name) {fuel : Nat}
    (hpath : path ∈ t.expand fuel (p.child name).text directories) :
    path = (p.child name).text ∨
      ∃ front ∈ t.frontsFor fuel (frontOf p) (p.child name).text,
        ∃ found ∈ t.matchLast front name directories, path = attach front found := by
  cases hmagic : Wildcard.isMagic (p.child name).text with
  | false => exact Or.inl (eq_of_mem_expand hmagic hpath)
  | true =>
      rw [expand.eq_def, splitLast_text_child hp hname] at hpath
      dsimp only at hpath
      rw [String.ofList_toList, String.ofList_toList, hmagic, Bool.not_true,
        if_neg Bool.false_ne_true] at hpath
      obtain ⟨front, hfront, hmem⟩ := List.mem_flatMap.mp (List.mem_eraseDups.mp hpath)
      obtain ⟨found, hfound, rfl⟩ := List.mem_map.mp hmem
      exact Or.inr ⟨front, hfront, found, hfound, rfl⟩

/-- With a pattern that is spelled as paths are, every front is one. -/
theorem isFront_of_mem_frontsFor (h : t.IsSound) (hp : p.IsNormal) {fuel : Nat}
    {front pattern : String} (hfront : front ∈ t.frontsFor fuel (frontOf p) pattern) :
    IsFront front := by
  induction fuel generalizing p front pattern with
  | zero => exact List.mem_singleton.mp hfront ▸ isFront_frontOf hp
  | succ fuel ih =>
      rw [frontsFor] at hfront
      split_ifs at hfront with hmagic
      · have hne : p.parts ≠ [] := by
          intro hne
          rw [frontOf, if_pos hne] at hmagic
          have hliteral : Wildcard.isMagic p.anchor.text = false := by cases p.anchor <;> decide
          simp [hliteral] at hmagic
        rw [frontOf, if_neg hne, ← child_parent hne] at hfront
        have hname := isProper_name hp hne
        rcases mem_expand_text_child (isNormal_parent hp) hname hfront with
          rfl | ⟨above, habove, found, hfound, rfl⟩
        · exact isFront_text_child (isNormal_parent hp) hname
        · exact isFront_of_mem_matchLast h hname (ih (isNormal_parent hp) habove) hfound
      · exact List.mem_singleton.mp hfront ▸ isFront_frontOf hp

/-- The answers to a pattern that is spelled as paths are, and does not end in a chain, are
spelled as paths are. -/
theorem exists_of_mem_filesNamed (h : t.IsSound) {pattern : String}
    (hpattern : (ofText pattern).text = pattern) (hchain : (ofText pattern).name ≠ "**")
    {found : List String} (hfound : t.filesNamed pattern = .ok found) (hpath : path ∈ found) :
    ∃ q : Path, q.IsNormal ∧ path = q.text := by
  have hp := isNormal_ofText pattern
  have hmem : path ∈ t.expand pattern.length pattern false := by
    unfold filesNamed at hfound
    split_ifs at hfound
    obtain ⟨_, rfl⟩ := filterM_eq_ok_iff.mp hfound
    exact (mem_passing.mp hpath).1
  by_cases hne : (ofText pattern).parts = []
  · have hliteral : Wildcard.isMagic pattern = false := by
      rw [← hpattern, text, hne]
      cases (ofText pattern).anchor <;> decide
    exact ⟨ofText pattern, hp, by rw [hpattern, eq_of_mem_expand hliteral hmem]⟩
  · have hname := isProper_name hp hne
    have htext : ((ofText pattern).parent.child (ofText pattern).name).text = pattern := by
      rw [child_parent hne, hpattern]
    rw [← htext] at hmem
    rcases mem_expand_text_child (isNormal_parent hp) hname hmem with
      rfl | ⟨front, hfront, found, hfound, rfl⟩
    · exact ⟨_, isNormal_child (isNormal_parent hp) hname, rfl⟩
    · obtain ⟨q, hq, hattach⟩ := isFront_of_mem_frontsFor h (isNormal_parent hp) hfront
      have hproper := isProper_of_mem_matchLast h hname hchain hfound
      exact ⟨q.child found, isNormal_child hq hproper, hattach found hproper⟩

end AbiTypings.FileTree
