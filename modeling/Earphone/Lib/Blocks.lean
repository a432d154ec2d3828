import Mathlib.Data.List.TakeDrop

/-!
This module contains what a hash in blocks makes of data that comes in parts.
-/

namespace Blocks

open List

variable {σ α : Type} (n : Nat) (compress : σ → List α → σ)

def push (s : σ × List α) (x : α) : σ × List α :=
  if s.2.length + 1 = n then (compress s.1 (s.2 ++ [x]), []) else (s.1, s.2 ++ [x])

def absorb (s : σ × List α) (data : List α) : σ × List α := data.foldl (push n compress) s

def blocks (data : List α) : List (List α) :=
  (List.range (data.length / n)).map fun i => (data.drop (n * i)).take n

def tail (data : List α) : List α := data.drop (n * (data.length / n))

variable {n} {compress} {s : σ} {block data pending rest : List α}

theorem absorb_append (s : σ × List α) :
    absorb n compress s (data ++ rest) = absorb n compress (absorb n compress s data) rest :=
  foldl_append

theorem length_append_div (hn : 0 < n) (h : block.length = n) :
    (block ++ data).length / n = data.length / n + 1 := by
  rw [length_append, h, Nat.add_div_left _ hn]

theorem blocks_append (hn : 0 < n) (h : block.length = n) :
    blocks n (block ++ data) = block :: blocks n data := by
  unfold blocks
  rw [length_append_div hn h, range_succ_eq_map, map_cons, map_map]
  refine congrArg₂ _ ?_ (map_congr_left fun i _ => ?_)
  . rw [Nat.mul_zero, drop_zero, take_left' h]
  . simp only [Function.comp_apply]
    rw [Nat.mul_succ, Nat.add_comm, ← drop_drop, drop_left' h]

theorem tail_append (hn : 0 < n) (h : block.length = n) : tail n (block ++ data) = tail n data := by
  unfold tail
  rw [length_append_div hn h, Nat.mul_succ, Nat.add_comm, ← drop_drop, drop_left' h]

theorem length_tail : (tail n data).length = data.length % n := by
  have := Nat.div_add_mod data.length n
  rw [tail, length_drop]
  omega

-- only the whole blocks are compressed, and the rest waits
theorem absorb_eq (hn : 0 < n) (h : pending.length < n) :
    absorb n compress (s, pending) data =
      ((blocks n (pending ++ data)).foldl compress s, tail n (pending ++ data)) := by
  induction data generalizing s pending with
  | nil => simp [absorb, blocks, tail, Nat.div_eq_of_lt h]
  | cons x data ih =>
    have hpush : absorb n compress (s, pending) (x :: data) =
        absorb n compress (push n compress (s, pending) x) data := rfl
    have hassoc : pending ++ x :: data = (pending ++ [x]) ++ data := by simp
    rw [hpush, hassoc, push]
    split
    . next hfull =>
      have hblock : (pending ++ [x]).length = n := by simpa using hfull
      rw [@ih (compress s (pending ++ [x])) [] hn, nil_append, blocks_append hn hblock,
        tail_append hn hblock, foldl_cons]
    . next hshort =>
      have hne : pending.length + 1 ≠ n := hshort
      have hlt : (pending ++ [x]).length < n := by
        rw [length_append, length_singleton]
        omega
      exact ih hlt

theorem absorb_more (hn : 0 < n) :
    absorb n compress ((blocks n data).foldl compress s, tail n data) rest =
      ((blocks n (data ++ rest)).foldl compress s, tail n (data ++ rest)) := by
  have hall : ∀ l, absorb n compress (s, []) l = ((blocks n l).foldl compress s, tail n l) :=
    fun l => @absorb_eq _ _ _ _ s l [] hn hn
  rw [← hall data, ← absorb_append, hall]

theorem blocks_whole (hn : 0 < n) (h : (data ++ rest).length = n) (hs : data.length < n) :
    absorb n compress (s, data) rest = (compress s (data ++ rest), []) := by
  have hblocks := @blocks_append _ n (data ++ rest) [] hn h
  have htail := @tail_append _ n (data ++ rest) [] hn h
  rw [append_nil] at hblocks htail
  rw [absorb_eq hn hs, hblocks, htail]
  simp [blocks, tail]

end Blocks
