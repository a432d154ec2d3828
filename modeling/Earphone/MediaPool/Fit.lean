import Earphone.MediaPool.Run

namespace MediaPool

open Tiles

namespace Pool

def need (n : Nat) : Nat := alignUp (n + poolHdrSize)

def Serves (p : Pool) (n : UInt16) : Prop :=
  ∃ p' buf, p.mediaBufferGet n = some (p', buf) ∧
    (buf.isSome ↔ ∃ a ∈ p.freeList, need n.toNat ≤ p.size a) ∧
    ∀ b ∈ buf, n.toNat ≤ p'.size (b - poolHdrSize) - poolHdrSize

variable {p : Pool} {ts : List Tile} {n : UInt16}

theorem need_eq (n : Nat) : need n = (n + 15) / 8 * 8 := by
  unfold need alignUp poolBufferAlignSize poolHdrSize
  split <;> omega

theorem bufSize_eq_need {n : Nat} (hpos : 0 < n) (hn : n ≤ 65520) : bufSize n = need n := by
  rw [need_eq]
  unfold bufSize alignDown poolBufferAlignSize poolHdrSize
  rw [if_pos hpos]
  dsimp only
  split <;> omega

theorem bufSize_wrap_zero {n : Nat} (hlo : 65520 < n) (hn : n ≤ 65528) : bufSize n = 0 := by
  unfold bufSize alignDown poolBufferAlignSize poolHdrSize
  rw [if_pos (by omega)]
  dsimp only
  split <;> omega

theorem bufSize_wrap {n : Nat} (hlo : 65528 < n) (hn : n < 65536) : bufSize n = 8 := by
  unfold bufSize alignDown poolBufferAlignSize poolHdrSize
  rw [if_pos (by omega)]
  dsimp only
  split <;> omega

namespace Tiled

theorem size_lt (h : p.Tiled ts) (ht : t ∈ ts) (hfree : t.free = true) : t.size < 2 ^ 16 := by
  have hle := size_le_freeSize ht hfree
  have hlt := h.heapSizeUnused_lt
  rw [h.unused] at hlt
  omega

theorem exists_free (h : p.Tiled ts) (m : Nat) :
    (∃ a ∈ p.freeList, m ≤ p.size a) ↔ ∃ t ∈ ts, t.free = true ∧ m ≤ t.size := by
  rw [h.freeList_eq]
  constructor
  . rintro ⟨a, ha, hle⟩
    obtain ⟨t, ht, hfree, rfl⟩ := mem_frees.mp ha
    rw [h.size t ht] at hle
    exact ⟨t, ht, hfree, hle⟩
  . rintro ⟨t, ht, hfree, hle⟩
    refine ⟨t.addr, mem_frees.mpr ⟨t, ht, hfree, rfl⟩, ?_⟩
    rw [h.size t ht]
    exact hle

theorem get_fits (h : p.Tiled ts) (n : UInt16) :
    ∃ p' buf, p.mediaBufferGet n = some (p', buf) ∧
      (buf.isSome ↔ 0 < bufSize n.toNat ∧ ∃ t ∈ ts, t.free = true ∧ bufSize n.toNat ≤ t.size) ∧
      ∀ b ∈ buf, bufSize n.toNat ≤ p'.size (b - poolHdrSize) := by
  obtain ⟨p', hget, -, hnone⟩ |
    ⟨p', l, t, r, m, rfl, hfree, ⟨rfl, hpos, hle⟩, hget, -, htiled, -⟩ := h.mediaBufferGet n
  . refine ⟨p', none, hget, ⟨nofun, ?_⟩, nofun⟩
    rintro ⟨hpos, t, ht, hfree, hle⟩
    have hlt := hnone hpos t ht hfree
    omega
  . refine ⟨p', _, hget, iff_of_true rfl ⟨hpos, t, ?_, hfree, hle⟩, fun b hb => ?_⟩
    . exact List.mem_append_right l List.mem_cons_self
    . obtain rfl := Option.some.inj hb
      rw [Nat.add_sub_cancel]
      unfold taken at htiled
      split at htiled
      . rw [htiled.size ⟨t.addr, bufSize n.toNat, false⟩ (by simp)]
      . rw [htiled.size ⟨t.addr, t.size, false⟩ (by simp)]
        exact hle

theorem serves_iff (h : p.Tiled ts) (hn : 0 < n.toNat) :
    p.Serves n ↔ n.toNat ≤ 65528 ∨ p.freeList = [] := by
  obtain ⟨p', buf, hget, hsome, hroom⟩ := h.get_fits n
  have hserves : p.Serves n ↔
      (buf.isSome ↔ ∃ t ∈ ts, t.free = true ∧ need n.toNat ≤ t.size) ∧
        ∀ b ∈ buf, n.toNat ≤ p'.size (b - poolHdrSize) - poolHdrSize := by
    rw [← h.exists_free]
    refine ⟨?_, fun hs => ⟨p', buf, hget, hs⟩⟩
    rintro ⟨q, b, hget', hs⟩
    rw [hget, Option.some.injEq, Prod.mk.injEq] at hget'
    rwa [hget'.1, hget'.2]
  have hneed := need_eq n.toNat
  have hlt := n.toNat_lt
  rw [hserves]
  by_cases hsmall : n.toNat ≤ 65520
  . -- the size does not wrap
    rw [bufSize_eq_need hn hsmall] at hsome hroom
    refine iff_of_true ⟨?_, fun b hb => ?_⟩ (.inl (by omega))
    . rw [hsome]
      exact and_iff_right (by omega)
    . have hle := hroom b hb
      unfold poolHdrSize at *
      omega
  . have hnofit : ¬∃ t ∈ ts, t.free = true ∧ need n.toNat ≤ t.size := by
      rintro ⟨t, ht, hfree, hle⟩
      have hsize := h.size_lt ht hfree
      omega
    by_cases hzero : n.toNat ≤ 65528
    . -- it wraps to 0, and there is no buffer
      rw [bufSize_wrap_zero (by omega) hzero] at hsome
      have hnone : buf = none := by
        rw [← Option.not_isSome_iff_eq_none, hsome]
        exact fun hs => absurd hs.1 (Nat.lt_irrefl 0)
      rw [hnone]
      exact iff_of_true ⟨iff_of_false nofun hnofit, nofun⟩ (.inl hzero)
    . -- it wraps to 8, which every free block has
      rw [bufSize_wrap (by omega) hlt] at hsome
      rw [or_iff_right hzero]
      constructor
      . rintro ⟨hiff, -⟩
        rw [h.freeList_eq, List.eq_nil_iff_forall_not_mem]
        intro a ha
        obtain ⟨t, ht, hfree, -⟩ := mem_frees.mp ha
        have hpos := (h.contig.bounds ht).2.1
        refine hnofit (hiff.mp (hsome.mpr ⟨by decide, t, ht, hfree, ?_⟩))
        exact Nat.le_of_dvd (by omega) (h.sizeAligned t ht)
      . intro hnil
        rw [h.freeList_eq] at hnil
        have hnone : buf = none := by
          rw [← Option.not_isSome_iff_eq_none, hsome]
          rintro ⟨-, t, ht, hfree, -⟩
          have hmem : t.addr ∈ frees ts := mem_frees.mpr ⟨t, ht, hfree, rfl⟩
          rw [hnil] at hmem
          cases hmem
        rw [hnone]
        exact ⟨iff_of_false nofun hnofit, nofun⟩

end Tiled

end Pool

namespace World

theorem media_buffer_get_serves {poolStart heapAddr : Nat} {size : UInt16}
    (hfits : Pool.Fits poolStart heapAddr size) (mem : Nat → Buffer) (ops : List Op) :
    ∃ w, Run.exec stepIn (some (create mem poolStart heapAddr size)) ops = some w ∧
      ∀ n : UInt16, 0 < n.toNat → (w.pool.Serves n ↔ n.toNat ≤ 65528 ∨ w.pool.freeList = []) := by
  obtain ⟨ts, hcreate⟩ := @holds_create mem _ _ _ hfits
  obtain ⟨w, ts', hexec, hw⟩ := @Run.exec_inv _ _ stepIn (fun _ _ => True)
    (fun s => ∃ w ts, s = some w ∧ w.Holds ts) (fun s op hs _ => by
      obtain ⟨w, ts, rfl, hw⟩ := hs
      obtain ⟨w', ts', hstep, hw', -⟩ := hw.step op
      exact ⟨w', ts', hstep, hw'⟩) _ ops ⟨_, ts, rfl, hcreate⟩ (Run.along_true _ ops)
  exact ⟨w, hexec, fun n hn => hw.tiles.serves_iff hn⟩

theorem media_buffer_get_serves_small :
    ∃ w, Run.exec stepIn (some small) [.get 8, .get 40, .put 112] = some w ∧
      w.pool.Serves 24 ∧ ¬w.pool.Serves 65535 := by
  obtain ⟨w, hexec, hserves⟩ := media_buffer_get_serves fits_small (fun _ => ⟨7, 7, 7⟩)
    [.get 8, .get 40, .put 112]
  have hfree : ∃ w', Run.exec stepIn (some small) [.get 8, .get 40, .put 112] = some w' ∧
      w'.pool.freeList ≠ [] := by
    have h : (Run.exec stepIn (some small) [.get 8, .get 40, .put 112]).any
        (fun w => decide (w.pool.freeList ≠ [])) = true := by
      decide +kernel
    obtain ⟨w', hw', hne⟩ := (Option.any_eq_true ..).mp h
    exact ⟨w', hw', of_decide_eq_true hne⟩
  obtain ⟨w', hexec', hne⟩ := hfree
  have heq : w' = w := Option.some.inj (hexec'.symm.trans hexec)
  rw [heq] at hne
  refine ⟨w, hexec, (hserves 24 (by decide)).mpr (.inl (by decide)), fun hs => ?_⟩
  obtain hle | hnil := (hserves 65535 (by decide)).mp hs
  . exact absurd hle (by decide)
  . exact hne hnil

theorem not_media_buffer_get_serves :
    ∃ w ∈ Run.exec stepIn (some small) [], ¬w.pool.Serves 65535 := by
  refine ⟨small, rfl, fun ⟨p', buf, hget, _, hroom⟩ => ?_⟩
  have h : (small.pool.mediaBufferGet 65535).any
      (fun r => decide (r.2 = some 112 ∧ r.1.size 104 = 8)) = true := by
    decide +kernel
  rw [hget] at h
  obtain ⟨hbuf, hsize⟩ := of_decide_eq_true h
  have hle := hroom 112 hbuf
  exact absurd (hle.trans (Nat.le_of_eq (congrArg (· - poolHdrSize) hsize))) (by decide)

end World

end MediaPool
