import AbiTypings.Sorting.RunSort
import Mathlib.Data.List.Perm.Basic

/-!
# Sorting keeps every element

Merging runs rearranges a list and neither drops nor doubles an element, however `before` compares
them: nothing is asked of it, so this covers elements that have no place in the order. It is
shown for the steps of a merge, for merges, for the cutting into runs and for the stack of runs
that wait.
-/

namespace AbiTypings.Sorting

variable {α : Type}

/-! ## Steps of a merge -/

namespace Merging

theorem finish_takeOne (m : Merging α) (n : Nat) : (m.takeOne n).finish = m.finish := by
  simp only [takeOne, finish, List.reverse_append, List.reverse_reverse, List.append_assoc]
  rw [← List.append_assoc (m.one.take n), List.take_append_drop]

theorem finish_takeTwo_perm (m : Merging α) (n : Nat) :
    (m.takeTwo n).finish.Perm m.finish := by
  simp only [takeTwo, finish, List.reverse_append, List.reverse_reverse, List.append_assoc]
  refine List.Perm.append_left _ ?_
  have hpast : (m.two.take n ++ m.one ++ m.two.drop n).Perm
      (m.one ++ m.two.take n ++ m.two.drop n) :=
    List.perm_append_comm.append_right _
  rwa [List.append_assoc, List.append_assoc, List.take_append_drop] at hpast

theorem finish_nextIfOpen_perm {f : Merging α → Merging α}
    (hf : ∀ m, (f m).finish.Perm m.finish) (m : Merging α) :
    (m.nextIfOpen f).finish.Perm m.finish := by
  unfold nextIfOpen
  split_ifs
  · exact List.Perm.refl _
  · exact hf m

theorem finish_stretchOne_perm (mode : Mode α) (m : Merging α) :
    (m.stretchOne mode).1.finish.Perm m.finish := by
  unfold stretchOne
  cases m.two with
  | nil => exact List.Perm.refl _
  | cons y rest =>
      refine (finish_nextIfOpen_perm (fun m ↦ m.finish_takeTwo_perm 1) _).trans ?_
      rw [finish_takeOne]

theorem finish_stretchTwo_perm (mode : Mode α) (m : Merging α) :
    (m.stretchTwo mode).1.finish.Perm m.finish := by
  unfold stretchTwo
  cases m.one with
  | nil => exact List.Perm.refl _
  | cons x rest =>
      refine (finish_nextIfOpen_perm (fun m ↦ .of_eq (m.finish_takeOne 1)) _).trans ?_
      exact m.finish_takeTwo_perm _

theorem finish_stretchBoth_perm (mode : Mode α) (m : Merging α) :
    (m.stretchBoth mode).1.finish.Perm m.finish := by
  unfold stretchBoth
  cases mode.oneFirst with
  | false =>
      simp only [Bool.false_eq_true, if_false]
      split_ifs
      · exact finish_stretchTwo_perm mode m
      · exact (finish_stretchOne_perm mode _).trans (finish_stretchTwo_perm mode m)
  | true =>
      simp only [if_true]
      split_ifs
      · exact finish_stretchOne_perm mode m
      · exact (finish_stretchTwo_perm mode _).trans (finish_stretchOne_perm mode m)

end Merging

/-! ## Merges -/

open Merging

/-- One by one or in stretches, each round hands on what the steps have kept. -/
theorem mergeSingly_mergeStretches_perm (mode : Mode α) (fuel : Nat) :
    (∀ patience won lost m, (mergeSingly mode fuel patience won lost m).1.Perm m.finish) ∧
      ∀ patience m, (mergeStretches mode fuel patience m).1.Perm m.finish := by
  induction fuel with
  | zero =>
      refine ⟨fun patience won lost m ↦ ?_, fun patience m ↦ ?_⟩
      · rw [mergeSingly]
      · rw [mergeStretches]
  | succ fuel ih =>
      obtain ⟨hsingly, hstretches⟩ := ih
      refine ⟨fun patience won lost m ↦ ?_, fun patience m ↦ ?_⟩
      · rw [mergeSingly]
        split
        case h_1 =>
          dsimp only
          split_ifs
          · exact .of_eq (m.finish_takeOne 1)
          · exact (hstretches _ _).trans (.of_eq (m.finish_takeOne 1))
          · exact (hsingly _ _ _ _).trans (.of_eq (m.finish_takeOne 1))
          · exact m.finish_takeTwo_perm 1
          · exact (hstretches _ _).trans (m.finish_takeTwo_perm 1)
          · exact (hsingly _ _ _ _).trans (m.finish_takeTwo_perm 1)
        case h_2 => exact List.Perm.refl _
      · rw [mergeStretches]
        have hround := finish_stretchBoth_perm mode m
        generalize (if 1 < patience then patience - 1 else patience) = less
        dsimp only
        split_ifs
        · exact hround
        · exact (hstretches _ _).trans hround
        · exact (hsingly _ _ _ _).trans hround

theorem mergeFrom_perm (mode : Mode α) (patience : Nat) (m : Merging α) :
    (mergeFrom mode patience m).1.Perm m.finish := by
  unfold mergeFrom
  dsimp only
  split_ifs
  · exact .of_eq (m.finish_takeOne 1)
  · exact ((mergeSingly_mergeStretches_perm mode _).1 _ _ _ _).trans (.of_eq (m.finish_takeOne 1))

/-- What is merged lies between the elements that are in place. -/
theorem perm_between {merged a b : List α} {n : Nat} (h : merged.Perm (a ++ b.take n))
    (front : List α) : (front ++ merged ++ b.drop n).Perm (front ++ a ++ b) := by
  have hall := (h.append_left front).append_right (b.drop n)
  rwa [← List.append_assoc front, List.append_assoc (front ++ a), List.take_append_drop] at hall

theorem mergeRuns_perm (before : α → α → Bool) (patience : Nat) (a b : List α) :
    (mergeRuns before patience a b).1.Perm (a ++ b) := by
  unfold mergeRuns
  cases b with
  | nil => simp
  | cons y tail =>
      dsimp only
      generalize countFront (fun x ↦ !before y x) a = k
      generalize y :: tail = b
      conv_rhs => rw [← List.take_append_drop k a]
      generalize a.drop k = right
      cases hright : right.reverse with
      | nil =>
          obtain rfl : right = [] := List.reverse_eq_nil_iff.mp hright
          simp
      | cons x rest =>
          dsimp only
          generalize b.length - countBack (fun y ↦ before y x) b.reverse = n
          split_ifs with hnone hshort
          · subst hnone
            simp
          · refine perm_between ((mergeFrom_perm _ _ _).trans ?_) _
            exact List.perm_append_comm
          · refine perm_between ((List.reverse_perm _).trans ((mergeFrom_perm _ _ _).trans ?_)) _
            exact ((hright ▸ List.reverse_perm right).append (List.reverse_perm _))

/-! ## Runs -/

theorem runOnto_append (before : α → α → Bool) (down : Bool) (run : List α) (previous : α)
    (xs : List α) : (runOnto before down run previous xs).1.reverse ++
      (runOnto before down run previous xs).2 = run.reverse ++ xs := by
  induction xs generalizing run previous with
  | nil => rfl
  | cons x rest ih =>
      unfold runOnto
      split_ifs
      · rw [ih, List.reverse_cons, List.append_assoc, List.singleton_append]
      · rfl

theorem takeRun_perm (before : α → α → Bool) (xs : List α) :
    ((takeRun before xs).1 ++ (takeRun before xs).2).Perm xs := by
  match xs with
  | [] => exact List.Perm.refl _
  | [x] => exact List.Perm.refl _
  | x :: y :: rest =>
      have hall := runOnto_append before (before y x) [y, x] y rest
      unfold takeRun
      dsimp only
      split_ifs
      · refine ((List.reverse_perm _).symm.append_right _).trans ?_
        exact .of_eq hall
      · exact .of_eq hall

theorem length_runOnto_le (before : α → α → Bool) (down : Bool) (run : List α) (previous : α)
    (xs : List α) : (runOnto before down run previous xs).2.length ≤ xs.length := by
  induction xs generalizing run previous with
  | nil => exact Nat.le_refl _
  | cons x rest ih =>
      unfold runOnto
      split_ifs
      · exact Nat.le_succ_of_le (ih _ _)
      · exact Nat.le_refl _

/-- A run takes at least the first element. -/
theorem length_takeRun_le (before : α → α → Bool) (x : α) (xs : List α) :
    (takeRun before (x :: xs)).2.length ≤ xs.length := by
  cases xs with
  | nil => exact Nat.le_refl _
  | cons y rest => exact Nat.le_succ_of_le (length_runOnto_le _ _ _ _ _)

theorem insertInRun_perm (before : α → α → Bool) (run : List α) (x : α) :
    (insertInRun before run x).Perm (run ++ [x]) := by
  unfold insertInRun
  dsimp only
  generalize halve _ _ _ _ = k
  refine List.perm_middle.trans ?_
  rw [List.take_append_drop]
  exact (List.perm_append_singleton x run).symm

theorem foldl_insertInRun_perm (before : α → α → Bool) (run xs : List α) :
    (xs.foldl (insertInRun before) run).Perm (run ++ xs) := by
  induction xs generalizing run with
  | nil => simp
  | cons x rest ih =>
      refine (ih _).trans (((insertInRun_perm before run x).append_right rest).trans ?_)
      rw [List.append_assoc, List.singleton_append]

theorem flatten_cutRuns_perm (before : α → α → Bool) (least : Nat) {fuel : Nat} {xs : List α}
    (h : xs.length ≤ fuel) : (cutRuns before least fuel xs).flatten.Perm xs := by
  induction fuel generalizing xs with
  | zero =>
      obtain rfl : xs = [] := List.length_eq_zero_iff.mp (Nat.le_zero.mp h)
      exact List.Perm.refl _
  | succ fuel ih =>
      cases xs with
      | nil => exact List.Perm.refl _
      | cons x xs =>
          have hshorter := length_takeRun_le before x xs
          have hrun := takeRun_perm before (x :: xs)
          rw [cutRuns]
          · dsimp only
            generalize (takeRun before (x :: xs)).1 = run at hrun ⊢
            generalize (takeRun before (x :: xs)).2 = rest at hrun hshorter ⊢
            have hlength : (rest.drop (least - run.length)).length ≤ fuel := by
              rw [List.length_drop]
              rw [List.length_cons] at h
              omega
            rw [List.flatten_cons]
            refine ((foldl_insertInRun_perm before run _).append (ih hlength)).trans ?_
            rwa [List.append_assoc, List.take_append_drop]
          · exact List.cons_ne_nil x xs

/-! ## The stack of runs -/

/-- The elements of the runs that wait. -/
def Stack.elements (s : Stack α) : List α := s.waiting.flatMap Waiting.run

theorem mergeTwo_perm (before : α → α → Bool) (patience : Nat) (a b : Waiting α) :
    (mergeTwo before patience a b).1.run.Perm (b.run ++ a.run) :=
  (mergeRuns_perm before patience a.run b.run).trans List.perm_append_comm

namespace Stack

theorem elements_mergeAbove_perm (before : α → α → Bool) (power fuel : Nat) (s : Stack α) :
    (s.mergeAbove before power fuel).elements.Perm s.elements := by
  induction fuel generalizing s with
  | zero => exact List.Perm.refl _
  | succ fuel ih =>
      unfold mergeAbove
      split
      case h_1 b a rest hwaiting =>
        dsimp only
        split_ifs
        · refine (ih _).trans ?_
          have hmerged := (mergeTwo_perm before s.patience a b).append_right
            (rest.flatMap Waiting.run)
          simpa [elements, hwaiting, List.append_assoc] using hmerged
        · exact List.Perm.refl _
      case h_2 => exact List.Perm.refl _

theorem elements_push_perm (before : α → α → Bool) (n : Nat) (s : Stack α) (run : List α) :
    (s.push before n run).elements.Perm (run ++ s.elements) := by
  unfold push
  split
  case h_1 hwaiting => simp [elements, hwaiting]
  case h_2 top below hwaiting =>
    dsimp only
    generalize powerOf _ _ _ _ _ = power
    have hmerged := elements_mergeAbove_perm before power n s
    generalize s.mergeAbove before power n = merged at hmerged ⊢
    refine .trans ?_ (hmerged.append_left run)
    cases hrest : merged.waiting <;> simp [elements, hrest]

theorem elements_foldl_push_perm (before : α → α → Bool) (n : Nat) (s : Stack α)
    (runs : List (List α)) :
    (runs.foldl (push before n) s).elements.Perm (runs.flatten ++ s.elements) := by
  induction runs generalizing s with
  | nil => exact List.Perm.refl _
  | cons run rest ih =>
      refine (ih _).trans (((elements_push_perm before n s run).append_left _).trans ?_)
      rw [List.flatten_cons, ← List.append_assoc]
      exact List.perm_append_comm.append_right _

theorem collapse_perm (before : α → α → Bool) (fuel : Nat) (s : Stack α) :
    (s.collapse before fuel).Perm s.elements := by
  induction fuel generalizing s with
  | zero => exact (List.reverse_perm _).flatMap_right _
  | succ fuel ih =>
      unfold collapse
      split
      case h_1 hwaiting => simp [elements, hwaiting]
      case h_2 w hwaiting => simp [elements, hwaiting]
      case h_3 c b a rest hwaiting =>
        dsimp only
        split_ifs
        · refine (ih _).trans ?_
          have hmerged := ((mergeTwo_perm before s.patience a b).append_right
            (rest.flatMap Waiting.run)).append_left c.run
          simpa [elements, hwaiting, List.append_assoc] using hmerged
        · refine (ih _).trans ?_
          have hmerged := (mergeTwo_perm before s.patience b c).append_right
            (a.run ++ rest.flatMap Waiting.run)
          simpa [elements, hwaiting, List.append_assoc] using hmerged
      case h_4 b a hwaiting =>
        dsimp only
        refine (ih _).trans ?_
        have hmerged := mergeTwo_perm before s.patience a b
        simpa [elements, hwaiting] using hmerged

end Stack

theorem runSort_perm (before : α → α → Bool) (xs : List α) : (runSort before xs).Perm xs := by
  refine (Stack.collapse_perm before _ _).trans ?_
  refine (Stack.elements_foldl_push_perm before _ _ _).trans ?_
  refine List.Perm.trans (.of_eq (List.append_nil _)) ?_
  exact flatten_cutRuns_perm before _ (Nat.le_refl _)

end AbiTypings.Sorting
