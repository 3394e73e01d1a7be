import AbiTypings.Proofs.Report.Counts
import AbiTypings.Proofs.Sorting.Permutation

/-!
# What the groups of warnings hold

Warnings can be grouped and put in order iff all of them name texts or all of them name numbers.
The groups then hold every warning once, those of one group naming the same thing. The sort only
rearranges the groups.
-/

namespace AbiTypings.Report

open Json

/-! ## When two keys are the same -/

namespace Quantity

/-- The number can be compared by its value: a ratio does not divide by zero. -/
def IsProper : Quantity → Prop
  | ratio _ den => 0 < den
  | _ => True

theorem isProper_ofInt (n : Int) : (ofInt n).IsProper := Nat.one_pos

theorem isProper_ofFloat (x : Decimal.Binary64) : (ofFloat x).IsProper := by
  cases x with
  | nan => trivial
  | infinite negative => trivial
  | finite negative m e =>
      simp only [ofFloat, Decimal.Binary64.ratio?, IsProper, Decimal.scaleDown]
      split_ifs
      · exact Nat.mul_pos Nat.one_pos (Nat.pow_pos Nat.two_pos)
      · exact Nat.one_pos

theorem same_refl (p : Quantity) : p.same p = true := by
  cases p <;> simp [same]

theorem same_symm {p q : Quantity} (h : p.same q = true) : q.same p = true := by
  cases p <;> cases q <;> simp_all [same]

theorem same_trans {p q r : Quantity} (hq : q.IsProper) (hpq : p.same q = true)
    (hqr : q.same r = true) : p.same r = true := by
  cases p <;> cases q <;> cases r
  case ratio.ratio.ratio a b c d e f =>
    have hab : a * d = c * b := beq_iff_eq.mp hpq
    have hef : c * f = e * d := beq_iff_eq.mp hqr
    have hd : (d : Int) ≠ 0 := Int.natCast_ne_zero.mpr (Nat.pos_iff_ne_zero.mp hq)
    refine beq_iff_eq.mpr (Int.eq_of_mul_eq_mul_right hd ?_)
    calc a * f * d = a * d * f := Int.mul_right_comm a f d
      _ = c * f * b := by rw [hab, Int.mul_right_comm]
      _ = e * b * d := by rw [hef, Int.mul_right_comm]
  all_goals simp_all [same]

end Quantity

namespace GroupKey

def IsProper : GroupKey → Prop
  | text _ => True
  | number q => q.IsProper

theorem isProper_of_of? {v : Value} {key : GroupKey} (h : of? v = some key) : key.IsProper := by
  cases v <;> cases h
  case bool b => exact Quantity.isProper_ofInt (if b then 1 else 0)
  case int n => exact Quantity.isProper_ofInt n
  case float x => exact Quantity.isProper_ofFloat x
  case text s => trivial

theorem same_refl (k : GroupKey) : k.same k = true := by
  cases k with
  | text s => exact beq_self_eq_true s
  | number q => exact q.same_refl

theorem same_symm {k l : GroupKey} (h : k.same l = true) : l.same k = true := by
  cases k <;> cases l
  case text.text s t => exact beq_iff_eq.mpr (beq_iff_eq.mp h).symm
  case number.number p q => exact Quantity.same_symm h
  all_goals cases h

theorem same_eq_false_symm {k l : GroupKey} (h : k.same l = false) : l.same k = false := by
  rw [Bool.eq_false_iff] at h ⊢
  exact fun hlk ↦ h (same_symm hlk)

theorem same_trans {k l m : GroupKey} (hl : l.IsProper) (hkl : k.same l = true)
    (hlm : l.same m = true) : k.same m = true := by
  cases k <;> cases l <;> cases m
  case text.text.text s t u =>
    exact beq_iff_eq.mpr ((beq_iff_eq.mp hkl).trans (beq_iff_eq.mp hlm))
  case number.number.number p q r => exact Quantity.same_trans hl hkl hlm
  all_goals first | cases hkl | cases hlm

theorem isText_of_same {k l : GroupKey} (h : k.same l = true) : k.isText = l.isText := by
  cases k <;> cases l
  all_goals first | rfl | cases h

end GroupKey

/-! ## Values that name groups -/

def IsText : Value → Prop
  | .text _ => True
  | _ => False

theorem exists_text_of_isText {v : Value} (h : IsText v) : ∃ s, v = .text s := by
  cases v with
  | text s => exact ⟨s, rfl⟩
  | _ => exact h.elim

/-- Truth values count among the numbers. -/
def IsNumber : Value → Prop
  | .bool _ => True
  | .int _ => True
  | .float _ => True
  | _ => False

namespace GroupKey

theorem exists_isText_iff {v : Value} :
    (∃ key, of? v = some key ∧ key.isText = true) ↔ IsText v := by
  cases v <;> simp [of?, isText, IsText]

theorem exists_isNumber_iff {v : Value} :
    (∃ key, of? v = some key ∧ key.isText = false) ↔ IsNumber v := by
  cases v <;> simp [of?, isText, IsNumber]

end GroupKey

/-- Two notices name the same thing. -/
def SameThing (m n : Notice) : Prop :=
  ∃ k l, GroupKey.of? m.group = some k ∧ GroupKey.of? n.group = some l ∧ k.same l = true

/-! ## Collecting the groups -/

namespace Group

/-- Whether a notice is about what the group is about. -/
def fits (g : Group) (n : Notice) : Bool := (GroupKey.of? n.group).any g.key.same

theorem fits_iff {g : Group} {n : Notice} :
    g.fits n = true ↔ ∃ key, GroupKey.of? n.group = some key ∧ g.key.same key = true :=
  Option.any_eq_true ..

theorem fits_eq_same {g : Group} {n : Notice} {key : GroupKey}
    (h : GroupKey.of? n.group = some key) : g.fits n = g.key.same key := by
  rw [fits, h, Option.any_some]

/-- Either a new group is put behind the others, or one of them gets one more member. -/
theorem add_cases (key : GroupKey) (shown : Value) (n : Notice) (groups : List Group) :
    (∀ g ∈ groups, g.key.same key = false) ∧
        add key shown n groups = groups ++ [⟨key, shown, [n]⟩] ∨
      ∃ front g back, groups = front ++ g :: back ∧ g.key.same key = true ∧
        add key shown n groups = front ++ ⟨g.key, g.shown, g.members ++ [n]⟩ :: back := by
  induction groups with
  | nil => exact Or.inl ⟨by simp, rfl⟩
  | cons g rest ih =>
      by_cases hsame : g.key.same key = true
      · exact Or.inr ⟨[], g, rest, rfl, hsame, by simp [add, hsame]⟩
      · rw [Bool.not_eq_true] at hsame
        rcases ih with ⟨hother, hnew⟩ | ⟨front, h, back, rfl, hfound, hadded⟩
        · exact Or.inl ⟨List.forall_mem_cons.mpr ⟨hsame, hother⟩, by simp [add, hsame, hnew]⟩
        · exact Or.inr ⟨g :: front, h, back, rfl, hfound, by simp [add, hsame, hadded]⟩

end Group

/-- The groups of some notices: each is named by one of them and holds those that fit it, in
order. -/
structure AreGroupsOf (groups : List Group) (notices : List Notice) : Prop where
  members : ∀ g ∈ groups, g.members = notices.filter g.fits
  named : ∀ g ∈ groups, ∃ n ∈ notices, n.group = g.shown ∧ GroupKey.of? g.shown = some g.key
  covered : ∀ n ∈ notices, ∃ g ∈ groups, g.fits n = true
  apart : (groups.map Group.key).Pairwise (fun k l ↦ k.same l = false)

namespace AreGroupsOf

variable {groups : List Group} {notices : List Notice}

theorem nil : AreGroupsOf [] [] where
  members := by simp
  named := by simp
  covered := by simp
  apart := List.Pairwise.nil

/-- A notice does not fit two groups with different keys. -/
theorem fits_eq_false {g h : Group} {n : Notice} (hapart : g.key.same h.key = false)
    (hfits : h.fits n = true) : g.fits n = false := by
  obtain ⟨key, hkey, hh⟩ := Group.fits_iff.mp hfits
  rw [Group.fits_eq_same hkey, Bool.eq_false_iff]
  intro hg
  have hsame := GroupKey.same_trans (GroupKey.isProper_of_of? hkey) hg (GroupKey.same_symm hh)
  exact Bool.false_ne_true (hapart.symm.trans hsame)

/-- A notice that fits no group makes one of its own. -/
theorem found (h : AreGroupsOf groups notices) {n : Notice} {key : GroupKey}
    (hkey : GroupKey.of? n.group = some key) (hother : ∀ g ∈ groups, g.key.same key = false) :
    AreGroupsOf (groups ++ [⟨key, n.group, [n]⟩]) (notices ++ [n]) := by
  have hnone : notices.filter (Group.fits ⟨key, n.group, [n]⟩) = [] := by
    refine List.filter_eq_nil_iff.mpr fun m hm ↦ ?_
    obtain ⟨g, hg, hfits⟩ := h.covered m hm
    rw [fits_eq_false (GroupKey.same_eq_false_symm (hother g hg)) hfits]
    exact Bool.false_ne_true
  have hown : Group.fits ⟨key, n.group, [n]⟩ n = true :=
    (Group.fits_eq_same hkey).trans key.same_refl
  refine
    { members := fun g hg ↦ ?_
      named := fun g hg ↦ ?_
      covered := fun m hm ↦ ?_
      apart := ?_ }
  · rw [List.filter_append, List.filter_singleton]
    rcases List.mem_append.mp hg with hg | hg
    · have hnot : g.fits n = false := (Group.fits_eq_same hkey).trans (hother g hg)
      rw [hnot, ← h.members g hg]
      exact (List.append_nil _).symm
    · obtain rfl := List.mem_singleton.mp hg
      rw [hnone, hown]
      rfl
  · rcases List.mem_append.mp hg with hg | hg
    · obtain ⟨m, hm, hnamed⟩ := h.named g hg
      exact ⟨m, List.mem_append_left _ hm, hnamed⟩
    · obtain rfl := List.mem_singleton.mp hg
      exact ⟨n, List.mem_append_right _ List.mem_cons_self, rfl, hkey⟩
  · rcases List.mem_append.mp hm with hm | hm
    · obtain ⟨g, hg, hfits⟩ := h.covered m hm
      exact ⟨g, List.mem_append_left _ hg, hfits⟩
    · obtain rfl := List.mem_singleton.mp hm
      exact ⟨_, List.mem_append_right _ List.mem_cons_self, hown⟩
  · rw [List.map_append, List.pairwise_append]
    refine ⟨h.apart, List.pairwise_singleton _ _, fun k hk l hl ↦ ?_⟩
    obtain ⟨g, hg, rfl⟩ := List.mem_map.mp hk
    obtain rfl := List.mem_singleton.mp hl
    exact hother g hg

theorem same_eq_false_of_mem {front back : List Group} {g k : Group}
    (h : AreGroupsOf (front ++ g :: back) notices) (hk : k ∈ front ++ back) :
    k.key.same g.key = false := by
  have hapart := h.apart
  rw [List.map_append, List.map_cons, List.pairwise_append, List.pairwise_cons] at hapart
  obtain ⟨_, ⟨hback, _⟩, hfront⟩ := hapart
  rcases List.mem_append.mp hk with hk | hk
  · exact hfront k.key (List.mem_map_of_mem hk) g.key List.mem_cons_self
  · exact GroupKey.same_eq_false_symm (hback k.key (List.mem_map_of_mem hk))

/-- A notice that fits a group joins its members, and no other group. -/
theorem join {front back : List Group} {g : Group} (h : AreGroupsOf (front ++ g :: back) notices)
    {n : Notice} (hfits : g.fits n = true) :
    AreGroupsOf (front ++ ⟨g.key, g.shown, g.members ++ [n]⟩ :: back) (notices ++ [n]) := by
  have hmem {k l : Group} : k ∈ front ++ l :: back ↔ k = l ∨ k ∈ front ++ back :=
    List.perm_middle.mem_iff.trans List.mem_cons
  have hg : g ∈ front ++ g :: back := hmem.mpr (Or.inl rfl)
  refine
    { members := fun k hk ↦ ?_
      named := fun k hk ↦ ?_
      covered := fun m hm ↦ ?_
      apart := ?_ }
  · rw [List.filter_append, List.filter_singleton]
    rcases hmem.mp hk with rfl | hk
    · have hown : Group.fits ⟨g.key, g.shown, g.members ++ [n]⟩ n = true := hfits
      rw [hown, h.members g hg]
      rfl
    · rw [fits_eq_false (h.same_eq_false_of_mem hk) hfits, ← h.members k (hmem.mpr (Or.inr hk))]
      exact (List.append_nil _).symm
  · obtain ⟨m, hm, hnamed⟩ : ∃ m ∈ notices, m.group = k.shown ∧
        GroupKey.of? k.shown = some k.key := by
      rcases hmem.mp hk with rfl | hk
      · exact h.named g hg
      · exact h.named k (hmem.mpr (Or.inr hk))
    exact ⟨m, List.mem_append_left _ hm, hnamed⟩
  · have hold : ∃ k ∈ front ++ g :: back, k.fits m = true := by
      rcases List.mem_append.mp hm with hm | hm
      · exact h.covered m hm
      · obtain rfl := List.mem_singleton.mp hm
        exact ⟨g, hg, hfits⟩
    obtain ⟨k, hk, hkm⟩ := hold
    rcases hmem.mp hk with rfl | hk
    · exact ⟨_, hmem.mpr (Or.inl rfl), hkm⟩
    · exact ⟨k, hmem.mpr (Or.inr hk), hkm⟩
  · simpa only [List.map_append, List.map_cons] using h.apart

theorem add (h : AreGroupsOf groups notices) {n : Notice} {key : GroupKey}
    (hkey : GroupKey.of? n.group = some key) :
    AreGroupsOf (Group.add key n.group n groups) (notices ++ [n]) := by
  rcases Group.add_cases key n.group n groups with
    ⟨hother, hadd⟩ | ⟨front, g, back, rfl, hsame, hadd⟩
  · rw [hadd]
    exact h.found hkey hother
  · rw [hadd]
    exact h.join ((Group.fits_eq_same hkey).trans hsame)

theorem perm (h : AreGroupsOf groups notices) {sorted : List Group} (hperm : sorted.Perm groups) :
    AreGroupsOf sorted notices where
  members g hg := h.members g (hperm.mem_iff.mp hg)
  named g hg := h.named g (hperm.mem_iff.mp hg)
  covered n hn := by
    obtain ⟨g, hg, hfits⟩ := h.covered n hn
    exact ⟨g, hperm.mem_iff.mpr hg, hfits⟩
  apart := ((hperm.map _).pairwise_iff GroupKey.same_eq_false_symm).mpr h.apart

end AreGroupsOf

namespace Group

theorem collectOnto_spec {groups : List Group} {seen notices : List Notice}
    (h : AreGroupsOf groups seen)
    (hkeys : ∀ n ∈ notices, ∃ key, GroupKey.of? n.group = some key) :
    ∃ groups', collectOnto groups notices = some groups' ∧
      AreGroupsOf groups' (seen ++ notices) := by
  induction notices generalizing groups seen with
  | nil => exact ⟨groups, rfl, by simpa using h⟩
  | cons n rest ih =>
      obtain ⟨⟨key, hkey⟩, hrest⟩ := List.forall_mem_cons.mp hkeys
      obtain ⟨groups', hcollect, hgroups⟩ := ih (h.add hkey) hrest
      refine ⟨groups', by rw [collectOnto, hkey]; exact hcollect, ?_⟩
      rwa [List.append_assoc, List.singleton_append] at hgroups

theorem exists_key_of_collectOnto {groups groups' : List Group} {notices : List Notice}
    (h : collectOnto groups notices = some groups') :
    ∀ n ∈ notices, ∃ key, GroupKey.of? n.group = some key := by
  induction notices generalizing groups with
  | nil => exact fun n hn ↦ absurd hn List.not_mem_nil
  | cons n rest ih =>
      cases hkey : GroupKey.of? n.group with
      | none => simp [collectOnto, hkey] at h
      | some key =>
          rw [collectOnto, hkey] at h
          exact List.forall_mem_cons.mpr ⟨⟨key, hkey⟩, ih h⟩

/-! ## Putting them in order -/

theorem insertReversed_perm (g : Group) (groups : List Group) :
    (insertReversed g groups).Perm (g :: groups) := by
  induction groups with
  | nil => exact List.Perm.refl _
  | cons h rest ih =>
      unfold insertReversed
      split_ifs
      · exact (ih.cons h).trans (List.Perm.swap g h rest)
      · exact List.Perm.refl _

theorem foldl_insertReversed_perm (sorted groups : List Group) :
    (groups.foldl (fun sorted g ↦ insertReversed g sorted) sorted).Perm (groups ++ sorted) := by
  induction groups generalizing sorted with
  | nil => exact List.Perm.refl _
  | cons g rest ih =>
      exact (ih _).trans (((insertReversed_perm g sorted).append_left rest).trans
        List.perm_middle)

theorem sort_perm (groups : List Group) : (sort groups).Perm groups := by
  unfold sort
  split_ifs
  · refine (List.reverse_perm _).trans ((foldl_insertReversed_perm [] groups).trans ?_)
    rw [List.append_nil]
  · exact Sorting.runSort_perm _ groups

end Group

/-- Warnings that can be put in one order: all of them name texts, or all of them numbers. -/
def HaveOneOrder (notices : List Notice) : Prop :=
  (∀ n ∈ notices, IsText n.group) ∨ ∀ n ∈ notices, IsNumber n.group

namespace AreGroupsOf

variable {groups : List Group} {notices : List Notice}

theorem forall_isText_iff (h : AreGroupsOf groups notices) (b : Bool) :
    (∀ g ∈ groups, g.key.isText = b) ↔
      ∀ n ∈ notices, ∃ key, GroupKey.of? n.group = some key ∧ key.isText = b := by
  constructor
  · intro hgroups n hn
    obtain ⟨g, hg, hfits⟩ := h.covered n hn
    obtain ⟨key, hkey, hsame⟩ := Group.fits_iff.mp hfits
    exact ⟨key, hkey, (GroupKey.isText_of_same hsame).symm.trans (hgroups g hg)⟩
  · intro hnotices g hg
    obtain ⟨n, hn, hshown, hkey⟩ := h.named g hg
    obtain ⟨key, hkey', hb⟩ := hnotices n hn
    rw [hshown, hkey] at hkey'
    obtain rfl := Option.some.inj hkey'
    exact hb

theorem areComparable_iff (h : AreGroupsOf groups notices) :
    Group.areComparable groups = true ↔ HaveOneOrder notices := by
  have htexts := h.forall_isText_iff true
  have hnumbers := h.forall_isText_iff false
  simp only [GroupKey.exists_isText_iff] at htexts
  simp only [GroupKey.exists_isNumber_iff] at hnumbers
  rw [Group.areComparable, Bool.or_eq_true, List.all_eq_true, List.all_eq_true, HaveOneOrder,
    ← htexts, ← hnumbers]
  simp only [Bool.not_eq_true']

end AreGroupsOf

theorem HaveOneOrder.exists_key {notices : List Notice} (h : HaveOneOrder notices) :
    ∀ n ∈ notices, ∃ key, GroupKey.of? n.group = some key := by
  intro n hn
  rcases h with htexts | hnumbers
  · obtain ⟨key, hkey, _⟩ := GroupKey.exists_isText_iff.mpr (htexts n hn)
    exact ⟨key, hkey⟩
  · obtain ⟨key, hkey, _⟩ := GroupKey.exists_isNumber_iff.mpr (hnumbers n hn)
    exact ⟨key, hkey⟩

namespace Group

variable {notices : List Notice}

theorem areGroupsOf_collect {groups : List Group} (h : collect notices = some groups) :
    AreGroupsOf groups notices := by
  obtain ⟨groups', hcollect, hgroups⟩ :=
    collectOnto_spec AreGroupsOf.nil (exists_key_of_collectOnto h)
  rw [show collectOnto [] notices = some groups from h] at hcollect
  obtain rfl := Option.some.inj hcollect
  exact hgroups

theorem ordered?_eq_some {groups : List Group} (h : ordered? notices = some groups) :
    AreGroupsOf groups notices ∧ HaveOneOrder notices := by
  unfold ordered? at h
  split at h
  case h_1 found hfound =>
    have hgroups := areGroupsOf_collect hfound
    split_ifs at h with hcomparable
    obtain rfl := Option.some.inj h
    exact ⟨hgroups.perm (sort_perm found), hgroups.areComparable_iff.mp hcomparable⟩
  case h_2 => cases h

/-- One order is all that it takes. -/
theorem exists_ordered?_eq_sort (h : HaveOneOrder notices) :
    ∃ groups, AreGroupsOf groups notices ∧ ordered? notices = some (sort groups) := by
  obtain ⟨groups, hcollect, hgroups⟩ := collectOnto_spec AreGroupsOf.nil h.exists_key
  have hcomparable := hgroups.areComparable_iff.mpr h
  refine ⟨groups, hgroups, ?_⟩
  rw [ordered?, show collect notices = some groups from hcollect]
  exact if_pos hcomparable

theorem exists_ordered?_iff :
    (∃ groups, ordered? notices = some groups) ↔ HaveOneOrder notices := by
  refine ⟨fun ⟨groups, h⟩ ↦ (ordered?_eq_some h).2, fun h ↦ ?_⟩
  obtain ⟨groups, _, hordered⟩ := exists_ordered?_eq_sort h
  exact ⟨sort groups, hordered⟩

end Group

end AbiTypings.Report
