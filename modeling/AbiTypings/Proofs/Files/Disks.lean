import AbiTypings.Files.Disk
import AbiTypings.Proofs.Files.Writing

/-!
# What writing leaves alone on a disk

Writing to a path changes the contents of the file that the path leads to, or makes a new file
there; making directories adds directories. Names that are there keep what they stand for, and no
link is made, so a path that can be followed before can be followed afterwards, and leads to the
same place. A name in a directory leads out of it only through a link that stands under the name.
-/

namespace AbiTypings.Disk

open Outcome AbiTypings.Path

variable {d d' d'' : Disk} {p : Path} {name path : String} {loc place : Location}
  {number links : Nat} {bytes : ByteArray}

/-! ## Places and files -/

theorem nodeAt_put_self (hne : loc ≠ []) (node : Node) :
    (d.put loc node).nodeAt loc = some node := by
  rw [nodeAt, if_neg hne, put, FileTree.lookup_replace_self]

theorem nodeAt_put_ne {other : Location} (h : other ≠ loc) (node : Node) :
    (d.put loc node).nodeAt other = d.nodeAt other := by
  simp [nodeAt, put, FileTree.lookup_replace_ne h]

@[simp] theorem contents_setContents_self : (d.setContents number bytes).contents number = bytes :=
  if_pos rfl

/-- No name leads to the file. -/
def IsNew (d : Disk) (number : Nat) : Prop := ∀ loc, d.nodeAt loc ≠ some (.file number)

theorem lt_nextNumber {nodes : List (Location × Node)}
    (h : FileTree.lookup loc nodes = some (.file number)) : number < nextNumber nodes := by
  induction nodes with
  | nil => cases h
  | cons first rest ih =>
      obtain ⟨l, node⟩ := first
      rw [FileTree.lookup] at h
      split_ifs at h
      · obtain rfl := Option.some.inj h
        rw [nextNumber]
        omega
      · have hrest := ih h
        cases node <;> rw [nextNumber]
        case file => omega
        all_goals first | exact hrest | simp

theorem isNew_nextNumber (d : Disk) : d.IsNew (nextNumber d.nodes) := by
  intro loc h
  unfold nodeAt at h
  split at h
  · cases h
  · exact Nat.lt_irrefl _ (lt_nextNumber h)

/-! ## Following a path -/

/-- A piece of a path that is followed to a place of this name. -/
structure IsName (piece : String) : Prop where
  isPart : isPart piece = true
  ne_up : piece ≠ ".."
  size_le : piece.utf8ByteSize ≤ FileTree.maxNameBytes

/-- The pieces lead from one place to another, through no more than so many links. -/
inductive Follows (d : Disk) : Nat → Location → List String → Location → Prop
  | done {links : Nat} {loc : Location} : Follows d links loc [] loc
  | stay {links : Nat} {loc place : Location} {piece : String} {rest : List String}
      (hdir : d.nodeAt loc = some .directory) (hpiece : isPart piece = false)
      (hrest : Follows d links loc rest place) : Follows d links loc (piece :: rest) place
  | up {links : Nat} {loc place : Location} {rest : List String}
      (hdir : d.nodeAt loc = some .directory) (hrest : Follows d links loc.dropLast rest place) :
      Follows d links loc (".." :: rest) place
  | enter {links : Nat} {loc place : Location} {piece : String} {rest : List String} {node : Node}
      (hdir : d.nodeAt loc = some .directory) (hname : IsName piece)
      (hnode : d.nodeAt (loc ++ [piece]) = some node) (hnolink : ∀ target, node ≠ .link target)
      (hrest : Follows d links (loc ++ [piece]) rest place) :
      Follows d links loc (piece :: rest) place
  | link {links : Nat} {loc place : Location} {piece target : String} {rest : List String}
      (hdir : d.nodeAt loc = some .directory) (hname : IsName piece)
      (hlink : d.nodeAt (loc ++ [piece]) = some (.link target))
      (hrest : Follows d links (startAt loc target) (pieces target ++ rest) place) :
      Follows d (links + 1) loc (piece :: rest) place
  | new {links : Nat} {loc : Location} {piece : String}
      (hdir : d.nodeAt loc = some .directory) (hname : IsName piece)
      (hnone : d.nodeAt (loc ++ [piece]) = none) : Follows d links loc [piece] (loc ++ [piece])

theorem follows_of_walk {onLink : Location → List String → Except FileFault Location}
    (honLink : ∀ {loc pieces place}, onLink loc pieces = .ok place →
      ∃ m, links = m + 1 ∧ d.Follows m loc pieces place)
    {pieces : List String} (h : d.walk onLink loc pieces = .ok place) :
    d.Follows links loc pieces place := by
  induction pieces generalizing loc with
  | nil =>
      obtain rfl := Except.ok.inj h
      exact .done
  | cons piece rest ih =>
      unfold walk at h
      split at h
      case isTrue => cases h
      case isFalse hdir =>
        have hdir := not_not.mp hdir
        split at h
        case isTrue hstay => exact .stay hdir (by simpa using hstay) (ih h)
        case isFalse hpart =>
          split at h
          case isTrue hup =>
            subst hup
            exact .up hdir (ih h)
          case isFalse hup =>
            split at h
            case isTrue => cases h
            case isFalse hlong =>
              have hname : IsName piece := ⟨by simpa using hpart, hup, Nat.not_lt.mp hlong⟩
              split at h
              case h_1 target hlink =>
                obtain ⟨m, rfl, hrest⟩ := honLink h
                exact .link hdir hname hlink hrest
              case h_2 node hnolink hnode => exact .enter hdir hname hnode hnolink (ih h)
              case h_3 hnone =>
                obtain rfl := Except.ok.inj h
                exact .new hdir hname hnone
              case h_4 => cases h

theorem resolve_eq_ok_iff {pieces : List String} :
    d.resolve links loc pieces = .ok place ↔ d.Follows links loc pieces place := by
  constructor
  · intro h
    induction links generalizing loc pieces place with
    | zero => exact follows_of_walk (fun hlink ↦ by cases hlink) h
    | succ links ih => exact follows_of_walk (fun hlink ↦ ⟨links, rfl, ih hlink⟩) h
  · intro h
    induction h with
    | @done links => cases links <;> rfl
    | @stay links _ _ _ _ hdir hpiece _ ih => cases links <;> simpa [resolve, walk, hdir, hpiece]
    | @up links _ _ _ hdir _ ih =>
        have hpart : isPart ".." = true := by decide
        cases links <;> simpa [resolve, walk, hdir, hpart]
    | @enter links _ _ _ _ node hdir hname hnode hnolink _ ih =>
        cases node with
        | link target => exact absurd rfl (hnolink target)
        | _ =>
            cases links <;>
              simpa [resolve, walk, hdir, hname.isPart, hname.ne_up, Nat.not_lt.mpr hname.size_le,
                hnode]
    | link hdir hname hlink _ ih =>
        simpa [resolve, walk, hdir, hname.isPart, hname.ne_up, Nat.not_lt.mpr hname.size_le, hlink]
    | @new links _ _ hdir hname hnone =>
        cases links <;>
          simp [resolve, walk, hdir, hname.isPart, hname.ne_up, Nat.not_lt.mpr hname.size_le, hnone]

/-! ## Disks that lose nothing -/

/-- Names that are there keep what they stand for, and no link is added. -/
structure Grows (d d' : Disk) : Prop where
  workDir : d'.workDir = d.workDir
  nodes : ∀ loc node, d.nodeAt loc = some node → d'.nodeAt loc = some node
  links : ∀ loc target, d'.nodeAt loc = some (.link target) → d.nodeAt loc = some (.link target)

theorem Grows.follows (h : d.Grows d') {pieces : List String}
    (hfollows : d.Follows links loc pieces place) : d'.Follows links loc pieces place := by
  induction hfollows with
  | done => exact .done
  | stay hdir hpiece _ ih => exact .stay (h.nodes _ _ hdir) hpiece ih
  | up hdir _ ih => exact .up (h.nodes _ _ hdir) ih
  | enter hdir hname hnode hnolink _ ih =>
      exact .enter (h.nodes _ _ hdir) hname (h.nodes _ _ hnode) hnolink ih
  | link hdir hname hlink _ ih => exact .link (h.nodes _ _ hdir) hname (h.nodes _ _ hlink) ih
  | @new _ loc piece hdir hname hnone =>
      -- A file or a directory may have been put where the path ends, but no link.
      cases hnew : d'.nodeAt (loc ++ [piece]) with
      | none => exact .new (h.nodes _ _ hdir) hname hnew
      | some node =>
          refine .enter (h.nodes _ _ hdir) hname hnew ?_ .done
          rintro target rfl
          rw [h.links _ _ hnew] at hnone
          cases hnone

theorem locate_eq_ok_iff : d.locate path = .ok place ↔ FileTree.checkPath path = .ok () ∧
    d.Follows maxLinks (startAt d.workDir path) (pieces path) place := by
  rw [locate, bind_eq_ok_iff]
  simp only [mapError_eq_ok_iff, resolve_eq_ok_iff]
  exact ⟨fun ⟨_, h⟩ ↦ h, fun h ↦ ⟨_, h⟩⟩

theorem Grows.locate_eq_ok (h : d.Grows d') (hlocate : d.locate path = .ok place) :
    d'.locate path = .ok place := by
  obtain ⟨hcheck, hfollows⟩ := locate_eq_ok_iff.mp hlocate
  rw [← h.workDir] at hfollows
  exact locate_eq_ok_iff.mpr ⟨hcheck, h.follows hfollows⟩

/-- The file that a path leads to. -/
def LeadsTo (d : Disk) (path : String) (number : Nat) : Prop :=
  ∃ loc, d.locate path = .ok loc ∧ d.nodeAt loc = some (.file number)

instance (d : Disk) (path : String) (number : Nat) : Decidable (d.LeadsTo path number) :=
  decidable_of_iff ((d.locate path).toOption.any (d.nodeAt · = some (.file number))) <| by
    simp [Option.any_eq_true, toOption_eq_some_iff, LeadsTo]

theorem LeadsTo.unique {other : Nat} (h : d.LeadsTo path number) (h' : d.LeadsTo path other) :
    number = other := by
  obtain ⟨loc, hlocate, hnode⟩ := h
  obtain ⟨loc', hlocate', hnode'⟩ := h'
  obtain rfl := Except.ok.inj (hlocate.symm.trans hlocate')
  simpa using hnode.symm.trans hnode'

theorem Grows.leadsTo (h : d.Grows d') (hleads : d.LeadsTo path number) :
    d'.LeadsTo path number := by
  obtain ⟨loc, hlocate, hnode⟩ := hleads
  exact ⟨loc, h.locate_eq_ok hlocate, h.nodes loc _ hnode⟩

theorem readFile_of_leadsTo (h : d.LeadsTo path number) :
    d.readFile path = .ok (d.contents number) := by
  obtain ⟨loc, hlocate, hnode⟩ := h
  refine bind_eq_ok_iff.mpr ⟨loc, hlocate, ?_⟩
  rw [hnode]
  rfl

/-! ## Disks that differ in some files -/

/-- Each name stands for what it stood for before, or is a new one: of a directory, or, if the
place is one of those that are allowed, of a new file that has no other name. Files have the
contents that they had, but for those that may be changed. -/
structure DiffersAt (allowed : Location → Prop) (changed : Nat → Prop) (d d' : Disk) : Prop where
  workDir : d'.workDir = d.workDir
  nodes : ∀ loc, d'.nodeAt loc = d.nodeAt loc ∨ (d.nodeAt loc = none ∧
    (d'.nodeAt loc = some .directory ∨
      allowed loc ∧ ∃ number, d.IsNew number ∧ d'.nodeAt loc = some (.file number)))
  apart : ∀ loc loc' number, d'.nodeAt loc = some (.file number) →
    d'.nodeAt loc' = some (.file number) → loc = loc' ∨ d.nodeAt loc = some (.file number)
  contents : ∀ number, d'.contents number = d.contents number ∨ changed number

section DiffersAt

variable {allowed more : Location → Prop} {changed others : Nat → Prop}

theorem DiffersAt.refl (d : Disk) : d.DiffersAt allowed changed d where
  workDir := rfl
  nodes _ := Or.inl rfl
  apart _ _ _ hfile _ := Or.inr hfile
  contents _ := Or.inl rfl

theorem DiffersAt.mono (h : d.DiffersAt allowed changed d') (hmore : ∀ loc, allowed loc → more loc)
    (hothers : ∀ number, changed number → others number) : d.DiffersAt more others d' where
  workDir := h.workDir
  nodes loc := (h.nodes loc).imp_right <| And.imp_right <| Or.imp_right <|
    And.imp_left (hmore loc)
  apart := h.apart
  contents number := (h.contents number).imp_right (hothers number)

theorem DiffersAt.grows (h : d.DiffersAt allowed changed d') : d.Grows d' where
  workDir := h.workDir
  nodes loc node hnode := by
    rcases h.nodes loc with hsame | ⟨hnone, _⟩
    · rw [hsame, hnode]
    · rw [hnone] at hnode
      cases hnode
  links loc target hlink := by
    rcases h.nodes loc with hsame | ⟨_, hdir | ⟨_, _, _, hfile⟩⟩
    · rwa [← hsame]
    · rw [hdir] at hlink
      cases hlink
    · rw [hfile] at hlink
      cases hlink

theorem Grows.isNew (h : d.Grows d') (hnew : d'.IsNew number) : d.IsNew number :=
  fun loc hnode ↦ hnew loc (h.nodes loc _ hnode)

theorem DiffersAt.trans (h : d.DiffersAt allowed changed d')
    (h' : d'.DiffersAt allowed changed d'') : d.DiffersAt allowed changed d'' where
  workDir := h'.workDir.trans h.workDir
  nodes loc := by
    rcases h'.nodes loc with hsame | ⟨hnone, hnew⟩
    · rw [hsame]
      exact h.nodes loc
    · have hnone' : d.nodeAt loc = none := by
        by_contra hsome
        obtain ⟨node, hnode⟩ := Option.ne_none_iff_exists'.mp hsome
        rw [h.grows.nodes loc node hnode] at hnone
        cases hnone
      refine Or.inr ⟨hnone', hnew.imp_right ?_⟩
      rintro ⟨hallowed, number, hnumber, hfile⟩
      exact ⟨hallowed, number, h.grows.isNew hnumber, hfile⟩
  apart loc loc' number hfile hfile' := by
    rcases h'.apart loc loc' number hfile hfile' with heq | hloc
    · exact Or.inl heq
    · rcases h'.apart loc' loc number hfile' hfile with heq | hloc'
      · exact Or.inl heq.symm
      · exact h.apart loc loc' number hloc hloc'
  contents number := by
    rcases h'.contents number with hsame | hchanged
    · rw [hsame]
      exact h.contents number
    · exact Or.inr hchanged

/-- A directory or a new file is put where nothing was. -/
theorem differsAt_put (hne : loc ≠ []) (hnone : d.nodeAt loc = none) {node : Node}
    (hnode : node = .directory ∨
      allowed loc ∧ ∃ number, d.IsNew number ∧ node = .file number) :
    d.DiffersAt allowed changed (d.put loc node) where
  workDir := rfl
  nodes other := by
    by_cases hother : other = loc
    · subst hother
      rw [nodeAt_put_self hne]
      refine Or.inr ⟨hnone, hnode.imp (congrArg some) ?_⟩
      rintro ⟨hallowed, number, hnew, rfl⟩
      exact ⟨hallowed, number, hnew, rfl⟩
    · exact Or.inl (nodeAt_put_ne hother node)
  apart a b number ha hb := by
    by_cases haloc : a = loc
    · subst haloc
      rw [nodeAt_put_self hne] at ha
      obtain rfl := Option.some.inj ha
      obtain ⟨_, _, hnew, hnumber⟩ := hnode.resolve_left (by simp)
      obtain rfl := Node.file.inj hnumber
      refine Or.inl (Classical.byContradiction fun hab ↦ hnew b ?_)
      rwa [nodeAt_put_ne (Ne.symm hab)] at hb
    · exact Or.inr (nodeAt_put_ne haloc node ▸ ha)
  contents _ := Or.inl rfl

theorem differsAt_setContents (bytes : ByteArray) (hchanged : changed number) :
    d.DiffersAt allowed changed (d.setContents number bytes) where
  workDir := rfl
  nodes _ := Or.inl rfl
  apart _ _ _ hfile _ := Or.inr hfile
  contents n := by
    by_cases hn : n = number
    · exact Or.inr (hn ▸ hchanged)
    · exact Or.inl (if_neg hn)

/-- These names in a directory are no links, and no two of them are names of one file. -/
structure AreApart (d : Disk) (dir : Location) (names : List String) : Prop where
  noLink : ∀ name ∈ names, ∀ target, d.nodeAt (dir ++ [name]) ≠ some (.link target)
  oneName : ∀ name ∈ names, ∀ name' ∈ names, ∀ number,
    d.nodeAt (dir ++ [name]) = some (.file number) →
    d.nodeAt (dir ++ [name']) = some (.file number) → name = name'

theorem DiffersAt.areApart (h : d.DiffersAt allowed changed d') {dir : Location}
    {names : List String} (hd : d.AreApart dir names) : d'.AreApart dir names where
  noLink name hname target hlink := hd.noLink name hname target (h.grows.links _ target hlink)
  oneName name hname name' hname' number hfile hfile' := by
    rcases h.apart _ _ number hfile hfile' with heq | hold
    · exact List.singleton_inj.mp (List.append_cancel_left heq)
    · rcases h.apart _ _ number hfile' hfile with heq | hold'
      · exact (List.singleton_inj.mp (List.append_cancel_left heq)).symm
      · exact hd.oneName name hname name' hname' number hold hold'

/-! ## Making directories -/

theorem differsAt_makeDirectory (h : d.makeDirectory p = .ok d') :
    d.DiffersAt allowed changed d' := by
  obtain ⟨parent, _, hmake⟩ := bind_eq_ok_iff.mp h
  dsimp only at hmake
  split_ifs at hmake with _ _ hsome
  obtain rfl := Except.ok.inj hmake
  exact differsAt_put (by simp) (by simpa using hsome) (Or.inl rfl)

theorem differsAt_makeDirectories (d : Disk) (anchor : Anchor) (parts : List String) :
    d.DiffersAt allowed changed (Storage.makeDirectories d anchor parts).1 :=
  Storage.makeDirectories_of_makeDirectory
    (fun _ hmake h ↦ h.trans (differsAt_makeDirectory hmake)) (.refl d)

end DiffersAt

/-! ## Writing a file -/

/-- What is written to a path is the contents of the file that the path leads to afterwards: one
that it led to before, or a new one. -/
theorem writeFile_eq_ok (h : d.writeFile p bytes = .ok d') :
    ∃ loc number, d'.locate p.text = .ok loc ∧ d'.nodeAt loc = some (.file number) ∧
      d'.contents number = bytes ∧ d.DiffersAt (· = loc) (· = number) d' := by
  obtain ⟨loc, hlocate, hwrite⟩ := bind_eq_ok_iff.mp h
  split at hwrite
  case h_1 number hnode =>
    obtain rfl := Except.ok.inj hwrite
    have hdiffers : d.DiffersAt (· = loc) (· = number) (d.setContents number bytes) :=
      differsAt_setContents bytes rfl
    exact ⟨loc, number, hdiffers.grows.locate_eq_ok hlocate, hnode, contents_setContents_self,
      hdiffers⟩
  case h_2 => cases hwrite
  case h_3 => cases hwrite
  case h_4 hnone =>
    obtain rfl := Except.ok.inj hwrite
    have hne : loc ≠ [] := by
      rintro rfl
      simp [nodeAt] at hnone
    have hput : d.DiffersAt (· = loc) (· = nextNumber d.nodes)
        (d.put loc (.file (nextNumber d.nodes))) :=
      differsAt_put hne hnone (Or.inr ⟨rfl, _, isNew_nextNumber d, rfl⟩)
    have hdiffers := hput.trans (differsAt_setContents bytes rfl)
    exact ⟨loc, _, hdiffers.grows.locate_eq_ok hlocate, nodeAt_put_self hne _,
      contents_setContents_self, hdiffers⟩

/-! ## Names in a directory -/

/-- A name is followed from a directory: to its own place there, unless it is that of a link. -/
def EndsAt (d : Disk) (dir : Location) (name : String) (place : Location) : Prop :=
  d.nodeAt dir = some .directory ∧
    (place = dir ++ [name] ∨ ∃ target, d.nodeAt (dir ++ [name]) = some (.link target))

theorem Follows.of_append {a b : List String} (hb : b ≠ [])
    (h : d.Follows links loc (a ++ b) place) :
    ∃ mid left, d.Follows links loc a mid ∧ d.Follows left mid b place := by
  generalize hpieces : a ++ b = pieces at h
  induction h generalizing a with
  | done => exact absurd (List.append_eq_nil_iff.mp hpieces).2 hb
  | stay hdir hpiece hrest ih =>
      obtain ⟨rfl, rfl⟩ | ⟨a, rfl, ha⟩ := List.append_eq_cons_iff.mp hpieces
      · exact ⟨_, _, .done, .stay hdir hpiece hrest⟩
      · obtain ⟨mid, left, hfront, hback⟩ := ih ha.symm
        exact ⟨mid, left, .stay hdir hpiece hfront, hback⟩
  | up hdir hrest ih =>
      obtain ⟨rfl, rfl⟩ | ⟨a, rfl, ha⟩ := List.append_eq_cons_iff.mp hpieces
      · exact ⟨_, _, .done, .up hdir hrest⟩
      · obtain ⟨mid, left, hfront, hback⟩ := ih ha.symm
        exact ⟨mid, left, .up hdir hfront, hback⟩
  | enter hdir hname hnode hnolink hrest ih =>
      obtain ⟨rfl, rfl⟩ | ⟨a, rfl, ha⟩ := List.append_eq_cons_iff.mp hpieces
      · exact ⟨_, _, .done, .enter hdir hname hnode hnolink hrest⟩
      · obtain ⟨mid, left, hfront, hback⟩ := ih ha.symm
        exact ⟨mid, left, .enter hdir hname hnode hnolink hfront, hback⟩
  | link hdir hname hlink hrest ih =>
      obtain ⟨rfl, rfl⟩ | ⟨a, rfl, rfl⟩ := List.append_eq_cons_iff.mp hpieces
      · exact ⟨_, _, .done, .link hdir hname hlink hrest⟩
      · obtain ⟨mid, left, hfront, hback⟩ := ih (List.append_assoc _ _ _)
        exact ⟨mid, left, .link hdir hname hlink hfront, hback⟩
  | new hdir hname hnone =>
      obtain ⟨rfl, rfl⟩ | ⟨a, rfl, ha⟩ := List.append_eq_cons_iff.mp hpieces
      · exact ⟨_, 0, .done, .new hdir hname hnone⟩
      · exact absurd (List.append_eq_nil_iff.mp ha.symm).2 hb

theorem Follows.endsAt (hname : isPart name = true) (hup : name ≠ "..")
    (h : d.Follows links loc [name] place) : d.EndsAt loc name place := by
  cases h with
  | stay hdir hpiece =>
      rw [hname] at hpiece
      cases hpiece
  | up => exact absurd rfl hup
  | enter hdir _ _ _ hrest =>
      cases hrest
      exact ⟨hdir, Or.inl rfl⟩
  | link hdir _ hlink => exact ⟨hdir, Or.inr ⟨_, hlink⟩⟩
  | new hdir => exact ⟨hdir, Or.inl rfl⟩

/-- Empty pieces and dots stay in a directory. -/
theorem follows_of_forall {a : List String} (ha : ∀ s ∈ a, isPart s = false)
    (h : d.nodeAt loc = some .directory) : d.Follows links loc a loc := by
  induction a with
  | nil => exact .done
  | cons piece rest ih =>
      obtain ⟨hpiece, hrest⟩ := List.forall_mem_cons.mp ha
      exact .stay h hpiece (ih hrest)

theorem Follows.eq_of_forall {a : List String} (ha : ∀ s ∈ a, isPart s = false)
    (h : d.Follows links loc a place) : place = loc := by
  induction h with
  | done => rfl
  | stay _ _ _ ih => exact ih fun s hs ↦ ha s (List.mem_cons_of_mem _ hs)
  | up => exact absurd (ha ".." List.mem_cons_self) (by decide)
  | enter _ hname => exact absurd (ha _ List.mem_cons_self) (by simp [hname.isPart])
  | link _ hname => exact absurd (ha _ List.mem_cons_self) (by simp [hname.isPart])
  | new _ hname => exact absurd (ha _ List.mem_cons_self) (by simp [hname.isPart])

theorem startAt_text (hp : p.IsNormal) (cwd : Location) :
    startAt cwd p.text = if p.anchor = .relative then cwd else [] :=
  FileTree.startOf_text ⟨[], cwd⟩ hp

/-- The path of a child leads to a place in the directory that the path leads to, or to where a
link under the name of the child points. -/
theorem exists_locate_of_locate_child (hp : p.IsNormal) (hname : IsProper name) (hup : name ≠ "..")
    (h : d.locate (p.child name).text = .ok place) :
    ∃ dir, d.locate p.text = .ok dir ∧ d.EndsAt dir name place := by
  obtain ⟨hcheck, hfollows⟩ := locate_eq_ok_iff.mp h
  have hchild := isNormal_child hp hname
  have hparts : (p.child name).parts = p.parts ++ [name] := rfl
  rw [pieces_text hchild (by simp [hparts]), hparts, ← List.append_assoc,
    startAt_text hchild] at hfollows
  obtain ⟨dir, _, hdir, hlast⟩ := hfollows.of_append (List.cons_ne_nil name [])
  have hends := hlast.endsAt hname.1 hup
  refine ⟨dir, locate_eq_ok_iff.mpr ⟨FileTree.checkPath_text_of_child hp hcheck, ?_⟩, hends⟩
  rw [startAt_text hp]
  by_cases hne : p.parts = []
  · rw [hne, List.append_nil] at hdir
    obtain rfl := hdir.eq_of_forall fun s hs ↦ by rw [List.eq_of_mem_replicate hs]; decide
    refine follows_of_forall ?_ hends.1
    have hnone : (ofText p.text).parts = [] := by rw [ofText_text hp, hne]
    simpa [ofText, List.filter_eq_nil_iff] using hnone
  · rw [pieces_text hp hne]
    exact hdir

end AbiTypings.Disk
