import Mathlib.Data.List.Nodup

/-!
This module contains tables of records that are known by a key.
-/

namespace Table

open List

variable {α κ : Type} [DecidableEq κ] (key : α → κ)

def find? (l : List α) (i : κ) : Option α := l.find? (key · = i)

def modify (l : List α) (i : κ) (f : α → α) : List α := l.map fun a => if key a = i then f a else a

def erase (l : List α) (i : κ) : List α := l.filter (key · ≠ i)

variable {key}

theorem mem_of_find? (h : find? key l i = some a) : a ∈ l ∧ key a = i := by
  unfold find? at h
  exact ⟨mem_of_find?_eq_some h, by simpa using find?_some h⟩

theorem find?_of_mem {l : List α} (hnodup : (l.map key).Nodup) {a : α} (h : a ∈ l) :
    find? key l (key a) = some a := by
  unfold find?
  induction l with
  | nil => cases h
  | cons b l ih =>
    simp only [map_cons, nodup_cons] at hnodup
    rw [find?_cons]
    split
    . next hb =>
      cases h with
      | head => rfl
      | tail _ h =>
        rw [decide_eq_true_eq] at hb
        exact absurd (hb ▸ mem_map_of_mem h) hnodup.1
    . next hb =>
      cases h with
      | head => simp at hb
      | tail _ h => exact ih hnodup.2 h

theorem eq_of_key_eq {l : List α} (hnodup : (l.map key).Nodup) {a b : α} (ha : a ∈ l) (hb : b ∈ l)
    (h : key a = key b) : a = b := by
  have h1 := find?_of_mem hnodup ha
  rw [h, find?_of_mem hnodup hb] at h1
  exact (Option.some.inj h1).symm

theorem mem_modify :
    a ∈ modify key l i f ↔ ∃ b ∈ l, (if key b = i then f b else b) = a := List.mem_map

theorem keys_modify (l : List α) (i : κ) (hf : ∀ a, key (f a) = key a) :
    (modify key l i f).map key = l.map key := by
  unfold modify
  rw [map_map]
  apply map_congr_left
  intro a _
  simp only [Function.comp]
  split
  . exact hf a
  . rfl

theorem find?_modify (l : List α) (i j : κ) (hf : ∀ a, key (f a) = key a) :
    find? key (modify key l i f) j = (find? key l j).map fun a => if key a = i then f a else a := by
  unfold find? modify
  rw [find?_map]
  congr 2
  funext a
  simp only [Function.comp]
  split
  . rw [hf]
  . rfl

theorem mem_erase : a ∈ erase key l i ↔ a ∈ l ∧ key a ≠ i := by
  simp [erase]

theorem nodup_erase (h : (l.map key).Nodup) (i : κ) :
    ((erase key l i).map key).Nodup := h.sublist ((List.filter_sublist).map key)

end Table
