import Mathlib.Order.Lattice
import Mathlib.Tactic.Common

/-!
This module contains the search by halving in a row of values.
-/

namespace Bisect

def probes (k lo hi : Nat) : List Nat :=
  if lo < hi then
    (lo + hi - 1) / 2 ::
      if k < (lo + hi - 1) / 2 then probes k lo ((lo + hi - 1) / 2)
      else if (lo + hi - 1) / 2 < k then probes k ((lo + hi - 1) / 2 + 1) hi
      else []
  else
    []
termination_by hi - lo

variable {V : Type} [LinearOrder V] {w : Nat → V} {v : V} {lo hi : Nat}

def Bisects (w : Nat → V) (v : V) (lo hi : Nat) : Prop :=
  ∃ k, lo ≤ k ∧ k < hi ∧ w k = v ∧ ∀ p ∈ probes k lo hi, (p < k → w p < v) ∧ (k < p → v < w p)

theorem not_bisects (h : hi ≤ lo) : ¬Bisects w v lo hi := by
  rintro ⟨k, hlo, hhi, -⟩
  omega

theorem bisects_iff (hlt : lo < hi) (hmid : mid = (lo + hi - 1) / 2) :
    Bisects w v lo hi ↔
      w mid = v ∨ v < w mid ∧ Bisects w v lo mid ∨ w mid < v ∧ Bisects w v (mid + 1) hi := by
  have hprobes : ∀ k, probes k lo hi =
      mid :: if k < mid then probes k lo mid
        else if mid < k then probes k (mid + 1) hi
        else [] := by
    intro k
    rw [probes, if_pos hlt, ← hmid]
  constructor
  . rintro ⟨k, hlo, hhi, hk, hpath⟩
    rw [hprobes, List.forall_mem_cons] at hpath
    obtain ⟨⟨hbelow, habove⟩, hrest⟩ := hpath
    obtain h | h | h := Nat.lt_trichotomy k mid
    . rw [if_pos h] at hrest
      exact .inr (.inl ⟨habove h, k, hlo, h, hk, hrest⟩)
    . exact .inl (h ▸ hk)
    . rw [if_neg (by omega), if_pos h] at hrest
      exact .inr (.inr ⟨hbelow h, k, h, hhi, hk, hrest⟩)
  . rintro (h | ⟨h, k, hlo, hhi, hk, hrest⟩ | ⟨h, k, hlo, hhi, hk, hrest⟩)
    . refine ⟨mid, by omega, by omega, h, ?_⟩
      rw [hprobes, if_neg (Nat.lt_irrefl mid), if_neg (Nat.lt_irrefl mid),
        List.forall_mem_singleton]
      exact ⟨fun h => absurd h (Nat.lt_irrefl mid), fun h => absurd h (Nat.lt_irrefl mid)⟩
    . refine ⟨k, hlo, by omega, hk, ?_⟩
      rw [hprobes, if_pos hhi, List.forall_mem_cons]
      exact ⟨⟨fun _ => by omega, fun _ => h⟩, hrest⟩
    . refine ⟨k, by omega, hhi, hk, ?_⟩
      rw [hprobes, if_neg (by omega), if_pos (by omega), List.forall_mem_cons]
      exact ⟨⟨fun _ => h, fun _ => by omega⟩, hrest⟩

theorem bisects_of_ordered (n : Nat) (hn : hi - lo ≤ n)
    (hw : ∀ i j, lo ≤ i → i ≤ j → j < hi → w i ≤ w j) (hlo : lo ≤ k) (hhi : k < hi) :
    Bisects w (w k) lo hi := by
  induction n generalizing lo hi with
  | zero => omega
  | succ n ih =>
    rw [bisects_iff (by omega) rfl]
    generalize hmid : (lo + hi - 1) / 2 = mid
    obtain h | h | h := lt_trichotomy (w k) (w mid)
    . have hlt : k < mid := by
        by_contra hge
        exact absurd (hw mid k (by omega) (by omega) hhi) (not_le_of_gt h)
      exact .inr (.inl ⟨h, ih (by omega) (fun i j hi hj hj' => hw i j hi hj (by omega)) hlo hlt⟩)
    . exact .inl h.symm
    . have hlt : mid < k := by
        by_contra hge
        exact absurd (hw k mid hlo (by omega) (by omega)) (not_le_of_gt h)
      exact .inr (.inr ⟨h, ih (by omega) (fun i j hi hj hj' => hw i j (by omega) hj hj') hlt hhi⟩)

end Bisect
