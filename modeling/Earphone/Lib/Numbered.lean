import Mathlib.Data.List.Nodup

/-!
This module contains lists whose elements of the same key are numbered in their order.
-/

namespace Numbered

open List

variable {κ : Type} [DecidableEq κ]

def next (key : κ) (l : List (κ × UInt8)) : UInt8 := .ofNat (l.countP fun a => a.1 = key)

inductive Seq : List (κ × UInt8) → Prop where
  | nil : Seq []
  | snoc {l : List (κ × UInt8)} (key : κ) (h : Seq l) : Seq (l ++ [(key, next key l)])

theorem lt_of_mem {l : List (κ × UInt8)} (h : Seq l) {key : κ} {n : UInt8} (hlen : l.length ≤ 256)
    (hmem : (key, n) ∈ l) : n.toNat < l.countP fun a => a.1 = key := by
  induction h generalizing n with
  | nil => exact absurd hmem not_mem_nil
  | @snoc l last hl ih =>
    rw [length_append, length_singleton] at hlen
    rw [countP_append]
    rcases mem_append.mp hmem with hmem | hmem
    . exact Nat.lt_of_lt_of_le (ih (by omega) hmem) (Nat.le_add_right _ _)
    . cases mem_singleton.mp hmem
      have hle : (l.countP fun a => a.1 = key) ≤ l.length := countP_le_length
      rw [next, UInt8.toNat_ofNat', Nat.mod_eq_of_lt (by omega)]
      simp

theorem Seq.nodup {l : List (κ × UInt8)} (h : Seq l) (hlen : l.length ≤ 256) : l.Nodup := by
  induction h with
  | nil => exact nodup_nil
  | @snoc l key hl ih =>
    rw [length_append, length_singleton] at hlen
    rw [nodup_append]
    refine ⟨ih (by omega), nodup_singleton _, ?_⟩
    intro a ha b hb heq
    rw [mem_singleton.mp hb] at heq
    subst heq
    have hlt := lt_of_mem hl (by omega) ha
    have hle : (l.countP fun a => a.1 = key) ≤ l.length := countP_le_length
    rw [next, UInt8.toNat_ofNat', Nat.mod_eq_of_lt (by omega)] at hlt
    exact absurd hlt (Nat.lt_irrefl _)

end Numbered
