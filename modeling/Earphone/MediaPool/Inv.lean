import Earphone.Lib.Tiles
import Earphone.MediaPool.Basic

namespace MediaPool

open Chain Tiles

namespace Pool

structure Placed (p : Pool) : Prop where
  aligned : poolBufferAlignSize ∣ p.heapStart
  start : 0 < p.heapStart
  room : p.heapStart < p.poolEnd
  heap : p.poolEnd - p.heapStart ≤ p.heapSize
  heapSize : p.heapSize < 2 ^ 16
  poolStart : p.poolStart < p.heapStart ∨ p.poolEnd < p.poolStart

structure Tiled (p : Pool) (ts : List Tile) : Prop extends p.Placed where
  contig : Contig p.heapStart ts p.poolEnd
  coalesced : Coalesced ts
  linked : Linked p.next p.poolStart (frees ts) p.poolEnd
  size : ∀ t ∈ ts, p.size t.addr = t.size
  flags : ∀ t ∈ ts, t.free = false → (p.mem t.addr).flags &&& mediaPoolBufferAllocated ≠ 0
  sizeAligned : ∀ t ∈ ts, poolBufferAlignSize ∣ t.size
  endNext : p.next p.poolEnd = 0
  endSize : p.size p.poolEnd = 0
  startSize : p.size p.poolStart = 0
  unused : p.heapSizeUnused = freeSize ts

def prevOf (p : Pool) (l : List Tile) : Nat := (frees l).getLastD p.poolStart

variable {p p' : Pool} {ts l r : List Tile} {t u : Tile} {x n : Nat}

structure SamePlace (p p' : Pool) : Prop where
  poolStart : p'.poolStart = p.poolStart
  poolEnd : p'.poolEnd = p.poolEnd
  heapAddr : p'.heapAddr = p.heapAddr
  heapSize : p'.heapSize = p.heapSize

theorem SamePlace.heapStart (h : SamePlace p p') : p'.heapStart = p.heapStart := by
  unfold Pool.heapStart
  rw [h.heapAddr]

theorem Placed.same (h : p.Placed) (hs : SamePlace p p') : p'.Placed := by
  refine ⟨?_, ?_, ?_, ?_, ?_, ?_⟩
  . rw [hs.heapStart]
    exact h.aligned
  . rw [hs.heapStart]
    exact h.start
  . rw [hs.heapStart, hs.poolEnd]
    exact h.room
  . rw [hs.heapStart, hs.poolEnd, hs.heapSize]
    exact h.heap
  . rw [hs.heapSize]
    exact h.heapSize
  . rw [hs.heapStart, hs.poolEnd, hs.poolStart]
    exact h.poolStart

theorem Tiled.setNextFree (h : p.Tiled ts) : (p.setNextFree x).Tiled ts :=
  ⟨h.toPlaced.same ⟨rfl, rfl, rfl, rfl⟩, h.contig, h.coalesced, h.linked, h.size, h.flags,
    h.sizeAligned, h.endNext, h.endSize, h.startSize, h.unused⟩

namespace Tiled

section

variable (h : p.Tiled ts)

include h

theorem frees_length : (frees ts).length < p.fuel := by
  have hle := h.contig.le
  have hheap := h.heap
  have hfrees : (frees ts).length ≤ ts.length := by
    unfold frees
    rw [List.length_map]
    exact List.length_filter_le _ _
  unfold fuel
  omega

theorem notMem_frees : p.poolEnd ∉ frees ts := fun hmem =>
  absurd (h.contig.frees_bounds hmem).2 (Nat.lt_irrefl _)

theorem nodup : (p.poolStart :: frees ts).Nodup := by
  rw [List.nodup_cons]
  refine ⟨fun hmem => ?_, h.contig.frees_nodup⟩
  have hb := h.contig.frees_bounds hmem
  have hs := h.poolStart
  omega

theorem poolEnd_pos : 0 < p.poolEnd := by
  have hle := h.contig.le
  have hs := h.start
  omega

theorem next_ne_zero (hx : x ∈ frees ts) : p.next x ≠ 0 := by
  obtain hmem | heq := h.linked.next_mem (List.mem_cons_of_mem _ hx)
  . have hb := h.contig.frees_bounds hmem
    have hs := h.start
    omega
  . rw [heq]
    exact Nat.ne_of_gt h.poolEnd_pos

end

theorem nodup_left (h : p.Tiled (l ++ r)) : (p.poolStart :: frees l).Nodup := by
  have hnodup := h.nodup
  rw [frees_append] at hnodup
  exact hnodup.sublist (List.Sublist.cons_cons _ (List.sublist_append_left _ _))

theorem outside (h : p.Tiled (l ++ t :: r)) (hx : x ∈ p.poolStart :: frees l) :
    x < t.addr ∨ p.poolEnd < x := by
  obtain ⟨hbefore, -, -⟩ := contig_mid.mp h.contig
  have hs := h.poolStart
  have hle := hbefore.le
  obtain rfl | hx := List.mem_cons.mp hx
  . omega
  . have hb := hbefore.frees_bounds hx
    omega

theorem prevOf_mem : p.prevOf l ∈ p.poolStart :: frees l := List.getLastD_mem_cons

theorem next_prevOf (h : p.Tiled (l ++ t :: r)) (ht : t.free = true) :
    p.next (p.prevOf l) = t.addr := by
  have hlinked := h.linked
  rw [frees_append, frees_cons_free ht] at hlinked
  exact (Linked.append_iff.mp hlinked).1.next_last

theorem heapSizeUnused_lt (h : p.Tiled ts) : p.heapSizeUnused < 2 ^ 16 := by
  have hle := h.contig.freeSize_le
  have hheap := h.heap
  have hsize := h.heapSize
  rw [h.unused]
  omega

theorem replace {m m' : Nat} {mid mid' : List Tile}
    (h : p.Tiled (l ++ (mid ++ r))) (hs : SamePlace p p') (hl : Contig p.heapStart l m)
    (hmid : Contig m mid' m') (hr : Contig m' r p.poolEnd)
    (hsize : ∀ x, x < m ∨ m' ≤ x → p'.size x = p.size x ∧ (p'.mem x).flags = (p.mem x).flags)
    (hend : p'.next p.poolEnd = p.next p.poolEnd)
    (hlinked : Linked p'.next p.poolStart (frees (l ++ (mid' ++ r))) p.poolEnd)
    (hcoalesced : Coalesced (l ++ (mid' ++ r)))
    (hnew : ∀ t ∈ mid', p'.size t.addr = t.size ∧ poolBufferAlignSize ∣ t.size ∧
      (t.free = false → (p'.mem t.addr).flags &&& mediaPoolBufferAllocated ≠ 0))
    (hunused : p'.heapSizeUnused = freeSize (l ++ (mid' ++ r))) : p'.Tiled (l ++ (mid' ++ r)) := by
  have hm := hmid.le
  have hlle := hl.le
  have hrle := hr.le
  have hstart := h.poolStart
  have hcontig : Contig p.heapStart (l ++ (mid' ++ r)) p.poolEnd :=
    contig_append.mpr ⟨m, hl, contig_append.mpr ⟨m', hmid, hr⟩⟩
  -- a tile that is not new is outside of the extent
  have hold : ∀ t ∈ l ++ (mid' ++ r), t ∈ mid' ∨
      t ∈ l ++ (mid ++ r) ∧ (t.addr < m ∨ m' ≤ t.addr) := by
    intro t ht
    simp only [List.mem_append] at ht ⊢
    obtain ht | ht | ht := ht
    . have hb := hl.bounds ht
      exact .inr ⟨.inl ht, by omega⟩
    . exact .inl ht
    . have hb := hr.bounds ht
      exact .inr ⟨.inr (.inr ht), by omega⟩
  refine ⟨h.toPlaced.same hs, ?_, hcoalesced, ?_, fun t ht => ?_, fun t ht hlive => ?_,
    fun t ht => ?_, ?_, ?_, ?_, hunused⟩
  . rw [hs.heapStart, hs.poolEnd]
    exact hcontig
  . rw [hs.poolStart, hs.poolEnd]
    exact hlinked
  . obtain hmem | ⟨hmem, hout⟩ := hold t ht
    . exact (hnew t hmem).1
    . rw [(hsize t.addr hout).1]
      exact h.size t hmem
  . obtain hmem | ⟨hmem, hout⟩ := hold t ht
    . exact (hnew t hmem).2.2 hlive
    . rw [(hsize t.addr hout).2]
      exact h.flags t hmem hlive
  . obtain hmem | ⟨hmem, -⟩ := hold t ht
    . exact (hnew t hmem).2.1
    . exact h.sizeAligned t hmem
  . rw [hs.poolEnd, hend]
    exact h.endNext
  . rw [hs.poolEnd, (hsize p.poolEnd (by omega)).1]
    exact h.endSize
  . rw [hs.poolStart, (hsize p.poolStart (by omega)).1]
    exact h.startSize

end Tiled

end Pool

end MediaPool
