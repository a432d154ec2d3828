import Mathlib.Data.List.Nodup

/-!
This module contains singly linked chains.
-/

namespace Chain

open List

variable {α : Type}

def Linked (next : α → α) : α → List α → α → Prop
  | p, [], q => next p = q
  | p, a :: l, q => next p = a ∧ Linked next a l q

def walk (next : α → α) (stop : α → Bool) : Nat → α → Option α
  | 0, _ => none
  | fuel + 1, p => if stop (next p) then some p else walk next stop fuel (next p)

def items [DecidableEq α] (next : α → α) (q : α) : Nat → α → List α
  | 0, _ => []
  | fuel + 1, p => if next p = q then [] else next p :: items next q fuel (next p)

variable {next next' : α → α} {stop : α → Bool} {p q r a b : α} {l l₁ l₂ : List α} {fuel : Nat}

namespace Linked

theorem append_iff : Linked next p (l₁ ++ a :: l₂) q ↔ Linked next p l₁ a ∧ Linked next a l₂ q := by
  induction l₁ generalizing p with
  | nil => exact Iff.rfl
  | cons b l₁ ih =>
    rw [cons_append]
    simp only [Linked, ih, and_assoc]

theorem next_last (h : Linked next p l q) : next (l.getLastD p) = q := by
  induction l generalizing p with
  | nil => exact h
  | cons a l ih =>
    rw [getLastD_cons]
    exact ih h.2

theorem left (h : Linked next p (l₁ ++ l₂) q) : Linked next p l₁ (l₂.headD q) := by
  cases l₂ with
  | nil =>
    rw [append_nil] at h
    exact h
  | cons a l₂ => exact (append_iff.mp h).1

theorem next_mem (h : Linked next p l q) (ha : a ∈ p :: l) : next a ∈ l ∨ next a = q := by
  induction l generalizing p with
  | nil =>
    rw [mem_singleton.mp ha]
    exact .inr h
  | cons b l ih =>
    obtain rfl | ha := mem_cons.mp ha
    . exact .inl (h.1 ▸ mem_cons_self)
    . obtain hmem | heq := ih h.2 ha
      . exact .inl (mem_cons_of_mem _ hmem)
      . exact .inr heq

theorem congr (h : Linked next p l q) (hsame : ∀ x ∈ p :: l, next' x = next x) :
    Linked next' p l q := by
  induction l generalizing p with
  | nil => exact (hsame p mem_cons_self).trans h
  | cons a l ih =>
    exact ⟨(hsame p mem_cons_self).trans h.1,
      ih h.2 fun x hx => hsame x (mem_cons_of_mem _ hx)⟩

theorem redirect (h : Linked next p l q) (hnodup : (p :: l).Nodup)
    (hlast : next' (l.getLastD p) = r)
    (hsame : ∀ x ∈ p :: l, x ≠ l.getLastD p → next' x = next x) : Linked next' p l r := by
  induction l generalizing p with
  | nil => exact hlast
  | cons a l ih =>
    rw [getLastD_cons] at hlast hsame
    obtain ⟨hp, hnodup⟩ := nodup_cons.mp hnodup
    have hne : p ≠ l.getLastD a := fun heq => hp (heq ▸ getLastD_mem_cons)
    exact ⟨(hsame p mem_cons_self hne).trans h.1,
      ih h.2 hnodup hlast fun x hx => hsame x (mem_cons_of_mem _ hx)⟩

theorem restart (h : Linked next a l q) (hstart : next' b = next a)
    (hsame : ∀ x ∈ l, next' x = next x) : Linked next' b l q := by
  cases l with
  | nil => exact hstart.trans h
  | cons c l => exact ⟨hstart.trans h.1, h.2.congr hsame⟩

section

variable (h : Linked next p (l₁ ++ a :: l₂) q) (hnodup : (p :: l₁).Nodup)

include h hnodup

theorem replace (hlast : next' (l₁.getLastD p) = b) (hitem : next' b = next a)
    (hbefore : ∀ x ∈ p :: l₁, x ≠ l₁.getLastD p → next' x = next x)
    (hafter : ∀ x ∈ l₂, next' x = next x) : Linked next' p (l₁ ++ b :: l₂) q := by
  obtain ⟨hleft, hright⟩ := append_iff.mp h
  exact append_iff.mpr ⟨hleft.redirect hnodup hlast hbefore, hright.restart hitem hafter⟩

theorem unlink (hlast : next' (l₁.getLastD p) = next a)
    (hbefore : ∀ x ∈ p :: l₁, x ≠ l₁.getLastD p → next' x = next x)
    (hafter : ∀ x ∈ l₂, next' x = next x) : Linked next' p (l₁ ++ l₂) q := by
  obtain ⟨hleft, hright⟩ := append_iff.mp h
  cases l₂ with
  | nil =>
    rw [append_nil]
    exact hleft.redirect hnodup (hlast.trans hright) hbefore
  | cons c l₂ =>
    exact append_iff.mpr ⟨hleft.redirect hnodup (hlast.trans hright.1) hbefore,
      hright.2.congr hafter⟩

end

theorem insert (h : Linked next p (l₁ ++ l₂) q) (hnodup : (p :: l₁).Nodup)
    (hlast : next' (l₁.getLastD p) = b) (hitem : next' b = next (l₁.getLastD p))
    (hbefore : ∀ x ∈ p :: l₁, x ≠ l₁.getLastD p → next' x = next x)
    (hafter : ∀ x ∈ l₂, next' x = next x) : Linked next' p (l₁ ++ b :: l₂) q := by
  cases l₂ with
  | nil =>
    rw [append_nil] at h
    exact append_iff.mpr ⟨h.redirect hnodup hlast hbefore, hitem.trans h.next_last⟩
  | cons c l₂ =>
    obtain ⟨hleft, hright⟩ := append_iff.mp h
    exact append_iff.mpr ⟨hleft.redirect hnodup hlast hbefore, hitem.trans hleft.next_last,
      hright.congr hafter⟩

end Linked

theorem walk_eq (h : Linked next p l q) (hbefore : ∀ a ∈ l, stop a = false) (hstop : stop q = true)
    (hfuel : l.length < fuel) : walk next stop fuel p = some (l.getLastD p) := by
  induction l generalizing p fuel with
  | nil =>
    obtain ⟨fuel, rfl⟩ := Nat.exists_eq_succ_of_ne_zero (Nat.ne_of_gt hfuel)
    rw [walk, h, if_pos hstop]
    rfl
  | cons a l ih =>
    obtain ⟨fuel, rfl⟩ := Nat.exists_eq_succ_of_ne_zero (Nat.ne_of_gt (Nat.zero_lt_of_lt hfuel))
    rw [walk, h.1, hbefore a mem_cons_self, getLastD_cons]
    exact ih h.2 (fun x hx => hbefore x (mem_cons_of_mem _ hx)) (Nat.lt_of_succ_lt_succ hfuel)

theorem items_eq [DecidableEq α] (h : Linked next p l q) (hq : q ∉ l) (hfuel : l.length < fuel) :
    items next q fuel p = l := by
  induction l generalizing p fuel with
  | nil =>
    obtain ⟨fuel, rfl⟩ := Nat.exists_eq_succ_of_ne_zero (Nat.ne_of_gt hfuel)
    exact if_pos h
  | cons a l ih =>
    obtain ⟨fuel, rfl⟩ := Nat.exists_eq_succ_of_ne_zero (Nat.ne_of_gt (Nat.zero_lt_of_lt hfuel))
    rw [mem_cons, not_or] at hq
    rw [items, h.1, if_neg (Ne.symm hq.1), ih h.2 hq.2 (Nat.lt_of_succ_lt_succ hfuel)]

end Chain
