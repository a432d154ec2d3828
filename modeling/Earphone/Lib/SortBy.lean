import Mathlib.Order.Lattice

/-!
This module contains the stable sort by insertion.
-/

namespace SortBy

open List

variable {α κ : Type} [LinearOrder κ]

def insert (key : α → κ) (x : α) : List α → List α
  | [] => [x]
  | y :: l => if key x < key y then x :: y :: l else y :: insert key x l

def sortInto (key : α → κ) : List α → List α → List α
  | sorted, [] => sorted
  | sorted, x :: l => sortInto key (insert key x sorted) l

def sort (key : α → κ) (l : List α) : List α := sortInto key [] l

def Sorted (key : α → κ) (l : List α) : Prop := l.Pairwise (key · ≤ key ·)

structure StableSort (key : α → κ) (l l' : List α) : Prop where
  perm : l'.Perm l
  sorted : Sorted key l'
  stable : ∀ k, l'.filter (key · = k) = l.filter (key · = k)

section

variable {key : α → κ} {x : α} {l : List α}

theorem insert_perm : (insert key x l).Perm (x :: l) := by
  induction l with
  | nil => exact .refl _
  | cons y l ih =>
    unfold insert
    split
    . exact .refl _
    . exact (ih.cons y).trans (.swap x y l)

theorem insert_sorted (h : Sorted key l) : Sorted key (insert key x l) := by
  induction l with
  | nil => exact pairwise_singleton _ x
  | cons y l ih =>
    obtain ⟨hy, hl⟩ := pairwise_cons.mp h
    unfold insert
    split
    . next hlt =>
      refine pairwise_cons.mpr ⟨fun z hz => ?_, h⟩
      rcases mem_cons.mp hz with rfl | hz
      . exact le_of_lt hlt
      . exact le_trans (le_of_lt hlt) (hy z hz)
    . next hge =>
      refine pairwise_cons.mpr ⟨fun z hz => ?_, ih hl⟩
      rcases mem_cons.mp (insert_perm.mem_iff.mp hz) with rfl | hz
      . exact le_of_not_gt hge
      . exact hy z hz

theorem filter_insert (h : Sorted key l) (k : κ) :
    (insert key x l).filter (key · = k) = (l ++ [x]).filter (key · = k) := by
  induction l with
  | nil => rfl
  | cons y l ih =>
    obtain ⟨hy, hl⟩ := pairwise_cons.mp h
    unfold insert
    split
    . next hlt =>
      -- All the elements from `y` on have a greater key than `x`.
      have hgt : ∀ z ∈ y :: l, key x < key z := by
        intro z hz
        rcases mem_cons.mp hz with rfl | hz
        . exact hlt
        . exact lt_of_lt_of_le hlt (hy z hz)
      by_cases hx : key x = k
      . have hnone : (y :: l).filter (key · = k) = [] := by
          rw [filter_eq_nil_iff]
          intro z hz
          rw [decide_eq_true_iff, ← hx]
          exact ne_of_gt (hgt z hz)
        rw [filter_append, filter_cons, hnone, nil_append]
        simp [hx]
      . rw [filter_append, filter_cons]
        simp [hx]
    . rw [cons_append, filter_cons, filter_cons, ih hl]

end

theorem sortInto_stable {key : α → κ} {sorted l : List α} (h : Sorted key sorted) :
    StableSort key (sorted ++ l) (sortInto key sorted l) := by
  induction l generalizing sorted with
  | nil =>
    rw [append_nil]
    exact ⟨.refl _, h, fun _ => rfl⟩
  | cons x l ih =>
    have hrest := @ih (insert key x sorted) (insert_sorted h)
    refine ⟨hrest.perm.trans ?_, hrest.sorted, fun k => ?_⟩
    . exact (insert_perm.append_right l).trans perm_middle.symm
    . rw [sortInto, hrest.stable, filter_append, filter_insert h, ← filter_append,
        append_assoc, singleton_append]

theorem sort_stable (key : α → κ) (l : List α) : StableSort key l (sort key l) :=
  sortInto_stable .nil

end SortBy
