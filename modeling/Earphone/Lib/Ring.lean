import Mathlib.Data.List.Rotate
import Mathlib.Data.Nat.ModEq

/-!
This module contains circular queues.
-/

namespace Ring

open List

variable {α : Type}

structure Holds (v : List (Option α)) (r : Nat) (held : List α) : Prop where
  lt : r < v.length
  le : held.length ≤ v.length
  rotate : v.rotate r = held.map some ++ List.replicate (v.length - held.length) none

variable {v : List (Option α)} {r k : Nat} {held : List α} {x : α}

theorem add_mod_inj (ha : a < n) (hb : b < n) (h : (r + a) % n = (r + b) % n) : a = b := by
  have hmod : a % n = b % n := Nat.ModEq.add_left_cancel' r h
  rwa [Nat.mod_eq_of_lt ha, Nat.mod_eq_of_lt hb] at hmod

theorem set_rotate {l : List α} {n : Nat} (hn : n < l.length) :
    (l.set ((r + n) % l.length) x).rotate r = (l.rotate r).set n x := by
  refine ext_getElem (by simp) fun k hk hk' => ?_
  have hk : k < l.length := by simpa using hk
  rw [getElem_rotate, getElem_set, getElem_set, getElem_rotate]
  simp only [length_set]
  by_cases hnk : n = k
  . rw [if_pos (by rw [hnk, Nat.add_comm]), if_pos hnk]
  . rw [if_neg (fun h => hnk (add_mod_inj (r := r) hn hk (by rw [h, Nat.add_comm k]))), if_neg hnk]

namespace Holds

theorem getElem?_add (h : Holds v r held) (hk : k < v.length) :
    v[(r + k) % v.length]? =
      (held.map some ++ List.replicate (v.length - held.length) none)[k]? := by
  rw [← h.rotate, getElem?_rotate hk, Nat.add_comm]

theorem front (h : Holds v r (x :: held)) : v[r]? = some (some x) := by
  have h0 := h.getElem?_add (k := 0) (Nat.zero_lt_of_lt h.lt)
  rwa [Nat.add_zero, Nat.mod_eq_of_lt h.lt] at h0

theorem back (h : Holds v r held) (hroom : held.length < v.length) :
    v[(r + held.length) % v.length]? = some none := by
  rw [h.getElem?_add hroom, getElem?_append_right (by simp)]
  simp [Nat.sub_pos_of_lt hroom]

theorem push (h : Holds v r held) (hroom : held.length < v.length) :
    Holds (v.set ((r + held.length) % v.length) (some x)) r (held ++ [x]) := by
  refine ⟨by simpa using h.lt, by simpa using Nat.succ_le_of_lt hroom, ?_⟩
  rw [set_rotate hroom, h.rotate]
  obtain ⟨m, hm⟩ := Nat.exists_eq_add_of_lt hroom
  have hsub : v.length - held.length = m + 1 := by omega
  have hsub' :
      (v.set ((r + held.length) % v.length) (some x)).length - (held ++ [x]).length = m := by
    rw [length_set, length_append, length_singleton]
    omega
  rw [hsub, hsub', set_append_right _ _ (by simp)]
  simp [replicate_succ]

theorem pop (h : Holds v r (x :: held)) : Holds (v.set r none) ((r + 1) % v.length) held := by
  have hpos : 0 < v.length := Nat.zero_lt_of_lt h.lt
  have hle : held.length + 1 ≤ v.length := h.le
  refine ⟨?_, ?_, ?_⟩
  . rw [length_set]
    exact Nat.mod_lt _ hpos
  . rw [length_set]
    omega
  . have hset := set_rotate (r := r) (x := (none : Option α)) hpos
    rw [Nat.add_zero, Nat.mod_eq_of_lt h.lt, h.rotate] at hset
    have hlen : (v.set r none).length = v.length := length_set
    have hmod : (v.set r none).rotate ((r + 1) % v.length) = (v.set r none).rotate (r + 1) := by
      rw [← hlen, rotate_mod]
    rw [hmod, ← rotate_rotate, hset, hlen]
    obtain ⟨m, hm⟩ := Nat.exists_eq_add_of_le hle
    have hsub : v.length - (x :: held).length = m := by
      rw [length_cons]
      omega
    have hsub' : v.length - held.length = m + 1 := by omega
    rw [hsub, hsub', map_cons, cons_append, set_cons_zero, rotate_cons_succ,
      rotate_zero, append_assoc, replicate_succ']

theorem perm (h : Holds v r held) : (v.filterMap id).Perm held := by
  have hperm : (v.rotate r).Perm v := rotate_perm v r
  refine (hperm.filterMap id).symm.trans (List.Perm.of_eq ?_)
  rw [h.rotate]
  simp

end Holds

theorem holds_replicate (hn : 0 < n) : Holds (List.replicate n (none : Option α)) 0 [] := by
  refine ⟨by simpa using hn, Nat.zero_le _, ?_⟩
  simp

end Ring
