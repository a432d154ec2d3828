import Earphone.Lib.Run
import Earphone.MediaPool.Put

namespace MediaPool

open Chain Tiles List

namespace Pool

variable {p : Pool} {ts l r : List Tile} {t : Tile}

def freeList (p : Pool) : List Nat := items p.next p.poolEnd p.fuel p.poolStart

def fill (p : Pool) (buf : Nat) (data : Nat → Buffer) : Pool :=
  let hdr := buf - poolHdrSize
  { p with
    mem := fun x => if buf ≤ x ∧ x < hdr + p.size hdr then data x else p.mem x }

instance (frees : List Nat) : Decidable (p.NextOk frees) := inferInstanceAs (Decidable (_ ∨ _))

instance (frees : List Nat) (hdr : Nat) : Decidable (p.NextMerged frees hdr) :=
  inferInstanceAs (Decidable (_ ∧ _))

namespace Tiled

theorem freeList_eq (h : p.Tiled ts) : p.freeList = frees ts :=
  items_eq h.linked h.notMem_frees h.frees_length

theorem mediaBufferPut (h : p.Tiled (l ++ t :: r)) (ht : t.free = false) :
    p.mediaBufferPut (t.addr + poolHdrSize) = some (p.putTile l t, true) := by
  have hmem : t ∈ l ++ t :: r := mem_append_right l mem_cons_self
  have hdvd := h.contig.dvd h.aligned h.sizeAligned hmem
  have hflags := h.flags t hmem ht
  have hbounds := h.contig.bounds hmem
  obtain ⟨hl, hpos, hr⟩ := contig_mid.mp h.contig
  have hlinked := h.linked
  have hlength := h.frees_length
  rw [frees_append, frees_cons_live ht] at hlinked hlength
  rw [length_append] at hlength
  have hnext : (p.release t.addr).next = p.next := funext fun x => next_release
  have hstop : t.addr ≤ (frees r).headD p.poolEnd := by
    cases hfrees : frees r with
    | nil =>
      rw [headD_nil]
      omega
    | cons a as =>
      have hb := hr.frees_bounds (hfrees ▸ mem_cons_self : a ∈ frees r)
      rw [headD_cons]
      omega
  have hwalk : walk (p.release t.addr).next (fun curr => !(curr < t.addr)) (p.release t.addr).fuel
      (p.release t.addr).poolStart = some (p.prevOf l) := by
    rw [hnext]
    refine walk_eq hlinked.left (fun a ha => ?_) ?_ ?_
    . have hb := hl.frees_bounds ha
      simp [hb.2]
    . simp only [Bool.not_eq_true', decide_eq_false_iff_not, Nat.not_lt]
      exact hstop
    . exact Nat.lt_of_le_of_lt (Nat.le_add_right _ _) hlength
  unfold Pool.mediaBufferPut
  dsimp only
  rw [Nat.add_sub_cancel]
  unfold poolHdrSize poolBufferAlignSize at *
  rw [if_neg (by omega), if_neg hflags, hwalk]
  rfl

theorem eq_singleton (h : p.Tiled ts) (hlives : lives ts = []) : ∃ t, ts = [t] ∧ t.free = true := by
  have hfree : ∀ t ∈ ts, t.free = true := by
    intro t ht
    by_contra hlive
    have hmem : t.addr ∈ lives ts := mem_lives.mpr ⟨t, ht, by simpa using hlive, rfl⟩
    rw [hlives] at hmem
    cases hmem
  match ts with
  | [] => exact absurd h.contig (Nat.ne_of_lt h.room)
  | [t] => exact ⟨t, rfl, hfree t mem_cons_self⟩
  | t :: u :: ts =>
    obtain ⟨-, -, -, hhead⟩ := (coalesced_free (l := []) (hfree t mem_cons_self)).mp h.coalesced
    have hu := hfree u (mem_cons_of_mem t mem_cons_self)
    rw [hhead u rfl] at hu
    cases hu

theorem fill (h : p.Tiled (l ++ t :: r)) (data : Nat → Buffer) :
    (p.fill (t.addr + poolHdrSize) data).Tiled (l ++ t :: r) := by
  have hmem : t ∈ l ++ t :: r := mem_append_right l mem_cons_self
  have hbounds := h.contig.bounds hmem
  have hstart := h.poolStart
  obtain ⟨hl, hpos, hr⟩ := contig_mid.mp h.contig
  have hsame : ∀ x, x ≤ t.addr ∨ t.addr + t.size ≤ x →
      (p.fill (t.addr + poolHdrSize) data).mem x = p.mem x := by
    intro x hx
    unfold Pool.fill
    dsimp only
    rw [Nat.add_sub_cancel, h.size t hmem]
    unfold poolHdrSize
    rw [if_neg (by omega)]
  have htile : ∀ u ∈ l ++ t :: r, u.addr ≤ t.addr ∨ t.addr + t.size ≤ u.addr := by
    intro u hu
    obtain hu | hu := mem_append.mp hu
    . have hb := hl.bounds hu
      omega
    . obtain rfl | hu := mem_cons.mp hu
      . omega
      . have hb := hr.bounds hu
        omega
  have hnext : ∀ x ∈ p.poolStart :: frees (l ++ t :: r),
      (p.fill (t.addr + poolHdrSize) data).next x = p.next x := by
    intro x hx
    rw [next_def, hsame x]
    . rfl
    . obtain rfl | hx := mem_cons.mp hx
      . omega
      . obtain ⟨u, hu, -, rfl⟩ := mem_frees.mp hx
        exact htile u hu
  refine ⟨h.toPlaced.same ⟨rfl, rfl, rfl, rfl⟩, h.contig, h.coalesced, h.linked.congr hnext,
    fun u hu => ?_, fun u hu hlive => ?_, h.sizeAligned, ?_, ?_, ?_, h.unused⟩
  . rw [size_def, hsame _ (htile u hu)]
    exact h.size u hu
  . rw [hsame _ (htile u hu)]
    exact h.flags u hu hlive
  . exact (congrArg Buffer.pNext (hsame p.poolEnd (by omega))).trans h.endNext
  . exact (congrArg Buffer.size (hsame p.poolEnd (by omega))).trans h.endSize
  . exact (congrArg Buffer.size (hsame p.poolStart (by omega))).trans h.startSize

end Tiled

structure Fits (poolStart heapAddr : Nat) (size : UInt16) : Prop where
  heap : 0 < heapAddr
  start : poolStart + poolHdrSize ≤ heapAddr ∨ heapAddr + size.toNat ≤ poolStart
  room : alignUp heapAddr + poolBufferAlignSize + poolHdrSize ≤ heapAddr + size.toNat

section

variable {mem : Nat → Buffer} {poolStart heapAddr x : Nat} {size : UInt16}

section

variable (h : Fits poolStart heapAddr size)

include h

theorem Fits.bounds :
    heapAddr ≤ alignUp heapAddr ∧ poolBufferAlignSize ∣ alignUp heapAddr ∧
      alignUp heapAddr < heapEnd heapAddr size.toNat ∧
      heapEnd heapAddr size.toNat + poolHdrSize ≤ heapAddr + size.toNat ∧
      poolBufferAlignSize ∣ heapEnd heapAddr size.toNat := by
  have hroom := h.room
  have hup : heapAddr ≤ alignUp heapAddr ∧ 8 ∣ alignUp heapAddr := by
    unfold alignUp poolBufferAlignSize
    split <;> omega
  unfold heapEnd alignDown
  unfold poolBufferAlignSize poolHdrSize at *
  generalize alignUp heapAddr = a at *
  omega

theorem mem_create :
    ((mediaPoolCreate mem poolStart heapAddr size).mem (alignUp heapAddr)).pNext =
        heapEnd heapAddr size.toNat ∧
      ((mediaPoolCreate mem poolStart heapAddr size).mem (alignUp heapAddr)).size =
        heapEnd heapAddr size.toNat - alignUp heapAddr ∧
      ((mediaPoolCreate mem poolStart heapAddr size).mem (heapEnd heapAddr size.toNat)).pNext = 0 ∧
      ((mediaPoolCreate mem poolStart heapAddr size).mem (heapEnd heapAddr size.toNat)).size = 0 ∧
      ((mediaPoolCreate mem poolStart heapAddr size).mem poolStart).pNext = alignUp heapAddr ∧
      ((mediaPoolCreate mem poolStart heapAddr size).mem poolStart).size = 0 := by
  obtain ⟨hle, -, hlt, hend, -⟩ := h.bounds
  have hstart := h.start
  have hsize := size.toNat_lt
  unfold mediaPoolCreate
  dsimp only
  simp only [mem_setSize, mem_setNext]
  unfold poolHdrSize at *
  generalize heapEnd heapAddr size.toNat = e at *
  generalize alignUp heapAddr = a at *
  have hae : a ≠ e := by omega
  have has : a ≠ poolStart := by omega
  have hes : e ≠ poolStart := by omega
  simp [hae, has, hes, Ne.symm hae, Ne.symm has, Ne.symm hes]
  omega

theorem tiled_create :
    (mediaPoolCreate mem poolStart heapAddr size).Tiled [⟨alignUp heapAddr,
      heapEnd heapAddr size.toNat - alignUp heapAddr, true⟩] := by
  obtain ⟨hle, hdvd, hlt, hend, hdvdEnd⟩ := h.bounds
  obtain ⟨hnext, hsize, hendNext, hendSize, hstartNext, hstartSize⟩ := @mem_create mem _ _ _ h
  have hstart := h.start
  have hheap := h.heap
  have hlt16 := size.toNat_lt
  refine ⟨⟨hdvd, ?_, hlt, ?_, hlt16, ?_⟩, ?_, List.IsChain.singleton _, ?_, fun t ht => ?_,
    fun t ht hlive => ?_, fun t ht => ?_, hendNext, hendSize, hstartSize, ?_⟩
  . exact Nat.lt_of_lt_of_le hheap hle
  . show heapEnd heapAddr size.toNat - alignUp heapAddr ≤ size.toNat
    omega
  . show poolStart < alignUp heapAddr ∨ heapEnd heapAddr size.toNat < poolStart
    unfold poolHdrSize at *
    omega
  . exact ⟨rfl, Nat.sub_pos_of_lt hlt, Nat.add_sub_cancel' (Nat.le_of_lt hlt)⟩
  . exact ⟨hstartNext, hnext⟩
  . rw [mem_singleton.mp ht]
    exact hsize
  . rw [mem_singleton.mp ht] at hlive
    cases hlive
  . rw [mem_singleton.mp ht]
    exact Nat.dvd_sub hdvdEnd hdvd
  . rw [freeSize_cons_free rfl, freeSize_nil, Nat.add_zero]
    exact hsize

end

end

end Pool

structure World where
  pool : Pool
  live : List Nat
  low : Nat

inductive Op where
  | get (bufSize : UInt16)
  | put (buf : Nat)
  | fill (buf : Nat) (data : Nat → Buffer)

namespace World

variable (w : World)

def create (mem : Nat → Buffer) (poolStart heapAddr : Nat) (size : UInt16) : World :=
  let pool := Pool.mediaPoolCreate mem poolStart heapAddr size
  { pool, live := [], low := pool.heapSizeUnused }

def step : Op → Option World
  | .get bufSize => do
    let (pool, buf) ← w.pool.mediaBufferGet bufSize
    return { pool, live := buf.toList ++ w.live, low := min w.low pool.heapSizeUnused }
  | .put buf =>
    if buf ∈ w.live then do
      let (pool, done) ← w.pool.mediaBufferPut buf
      return {
        pool
        live := if done then w.live.erase buf else w.live
        low := min w.low pool.heapSizeUnused }
    else
      some w
  | .fill buf data => if buf ∈ w.live then some { w with pool := w.pool.fill buf data } else some w

def blocks : List Nat := w.pool.freeList ++ w.live.map (· - poolHdrSize)

structure Sound : Prop where
  linked : Linked w.pool.next w.pool.poolStart w.pool.freeList w.pool.poolEnd
  ascending : w.pool.freeList.Pairwise (· < ·)
  coalesced : ∀ a ∈ w.pool.freeList, a + w.pool.size a ∉ w.pool.freeList
  disjoint : w.blocks.Pairwise fun a b => a + w.pool.size a ≤ b ∨ b + w.pool.size b ≤ a
  tiled : ∀ x, (∃ a ∈ w.blocks, a ≤ x ∧ x < a + w.pool.size a) ↔
    w.pool.heapStart ≤ x ∧ x < w.pool.poolEnd
  unused : w.pool.heapSizeUnused = (w.pool.freeList.map w.pool.size).sum
  mark : w.pool.heapSizeMark = w.low
  restored : w.live = [] → w.pool.freeList = [w.pool.heapStart] ∧
    w.pool.size w.pool.heapStart = w.pool.poolEnd - w.pool.heapStart

def NextOk : Prop := w.pool.NextOk w.pool.freeList

def Safe : Op → Prop
  | .put buf => buf ∈ w.live → ¬w.pool.NextMerged w.pool.freeList (buf - poolHdrSize)
  | _ => True

instance : Decidable w.NextOk := inferInstanceAs (Decidable (w.pool.NextOk _))

instance : (op : Op) → Decidable (w.Safe op)
  | .put buf => inferInstanceAs (Decidable (buf ∈ w.live → _))
  | .get _ | .fill .. => .isTrue trivial

structure Holds (ts : List Tile) : Prop where
  tiles : w.pool.Tiled ts
  live : w.live.Perm ((lives ts).map (· + poolHdrSize))
  mark : w.pool.heapSizeMark = w.low
  low : w.low ≤ w.pool.heapSizeUnused

variable {w} {ts : List Tile}

section

variable (h : w.Holds ts)

include h

theorem Holds.blocks_perm : w.blocks.Perm (ts.map (·.addr)) := by
  have hlive : (w.live.map (· - poolHdrSize)).Perm (lives ts) := by
    refine (h.live.map _).trans (List.Perm.of_eq ?_)
    rw [map_map]
    exact (map_congr_left fun x _ => Nat.add_sub_cancel x poolHdrSize).trans (map_id' _)
  unfold blocks
  rw [h.tiles.freeList_eq]
  refine (hlive.append_left _).trans ?_
  rw [frees, lives, ← map_append]
  exact (filter_append_perm (·.free) ts).map _

theorem Holds.sound : w.Sound := by
  have hcontig := h.tiles.contig
  have hlist := h.tiles.freeList_eq
  have hmem : ∀ a, a ∈ w.blocks ↔ ∃ t ∈ ts, t.addr = a := fun a => by
    rw [h.blocks_perm.mem_iff, mem_map]
  refine ⟨?_, ?_, fun a ha => ?_, ?_, fun x => ?_, ?_, h.mark, fun hlive => ?_⟩
  . rw [hlist]
    exact h.tiles.linked
  . rw [hlist]
    exact hcontig.frees_ascending
  . rw [hlist] at ha ⊢
    obtain ⟨t, ht, hfree, rfl⟩ := mem_frees.mp ha
    rw [h.tiles.size t ht]
    exact h.tiles.coalesced.add_notMem hcontig ht hfree
  . rw [h.blocks_perm.pairwise_iff fun hab => hab.symm, pairwise_map]
    refine hcontig.pairwise.imp_of_mem fun {t u} ht _ hle => .inl ?_
    rw [h.tiles.size t ht]
    exact hle
  . rw [← hcontig.cover]
    constructor
    . rintro ⟨a, ha, hx⟩
      obtain ⟨t, ht, rfl⟩ := (hmem a).mp ha
      rw [h.tiles.size t ht] at hx
      exact ⟨t, ht, hx⟩
    . rintro ⟨t, ht, hx⟩
      refine ⟨t.addr, (hmem t.addr).mpr ⟨t, ht, rfl⟩, ?_⟩
      rw [h.tiles.size t ht]
      exact hx
  . rw [h.tiles.unused, hlist, freeSize, frees, map_map]
    refine congrArg List.sum (map_congr_left fun t ht => ?_)
    exact (h.tiles.size t (mem_of_mem_filter ht)).symm
  . have hlives : lives ts = [] := by
      have hperm := h.live
      rw [hlive, nil_perm, map_eq_nil_iff] at hperm
      exact hperm
    obtain ⟨t, rfl, hfree⟩ := h.tiles.eq_singleton hlives
    obtain ⟨haddr, -, hend⟩ := hcontig
    have hend : w.pool.heapStart + t.size = w.pool.poolEnd := hend
    rw [hlist, frees_cons_free hfree, ← haddr, h.tiles.size t mem_cons_self]
    exact ⟨rfl, by omega⟩

theorem Holds.nextOk_iff : w.NextOk ↔ w.pool.NextOk (frees ts) := by
  unfold NextOk
  rw [h.tiles.freeList_eq]

theorem Holds.get (bufSize : UInt16) : ∃ w' ts',
    w.step (.get bufSize) = some w' ∧ w'.Holds ts' ∧ (w.NextOk → w'.NextOk) := by
  have hmark := h.mark
  have hlow := h.low
  obtain ⟨p', hget, hp', -⟩ | ⟨p', l, t, r, n, rfl, hfree, -, hget, hplace, htiled, hmin, hnext⟩ :=
    h.tiles.mediaBufferGet bufSize
  . have hp : p'.Tiled ts ∧ p'.heapSizeMark = w.pool.heapSizeMark ∧
        p'.heapSizeUnused = w.pool.heapSizeUnused ∧
        (w.pool.NextOk (frees ts) → p'.NextOk (frees ts)) := by
      obtain rfl | rfl := hp'
      . exact ⟨h.tiles, rfl, rfl, id⟩
      . exact ⟨h.tiles.setNextFree, rfl, rfl, fun _ => .inl rfl⟩
    obtain ⟨htiled, hpmark, hpunused, hok⟩ := hp
    have hw' : World.Holds ⟨p', [] ++ w.live, min w.low p'.heapSizeUnused⟩ ts := by
      refine ⟨htiled, h.live, ?_, Nat.min_le_right ..⟩
      rw [hpmark, hpunused, hmark, Nat.min_eq_left hlow]
    refine ⟨_, ts, ?_, hw', fun hn => ?_⟩
    . rw [step, hget]
      rfl
    . exact hw'.nextOk_iff.mpr (hok (h.nextOk_iff.mp hn))
  . have hw' : World.Holds ⟨p', [t.addr + poolHdrSize] ++ w.live, min w.low p'.heapSizeUnused⟩
        (l ++ (taken t n ++ r)) := by
      refine ⟨htiled, ?_, ?_, Nat.min_le_right ..⟩
      . exact (h.live.cons _).trans ((Pool.lives_taken hfree).map (· + poolHdrSize)).symm
      . rw [hmin, hmark, Nat.min_comm]
    refine ⟨_, _, ?_, hw', fun _ => hw'.nextOk_iff.mpr (.inr hnext)⟩
    rw [step, hget]
    rfl

theorem Holds.split (hbuf : buf ∈ w.live) :
    ∃ l t r, ts = l ++ t :: r ∧ t.free = false ∧ buf = t.addr + poolHdrSize := by
  obtain ⟨a, ha, rfl⟩ := mem_map.mp (h.live.mem_iff.mp hbuf)
  obtain ⟨t, ht, hlive, rfl⟩ := mem_lives.mp ha
  obtain ⟨l, r, rfl⟩ := append_of_mem ht
  exact ⟨l, t, r, rfl, hlive, rfl⟩

theorem Holds.put {buf : Nat} (hbuf : buf ∈ w.live) : ∃ w' ts',
    w.step (.put buf) = some w' ∧ w'.Holds ts' ∧
      (w.NextOk → (w'.NextOk ↔ ¬w.pool.NextMerged w.pool.freeList (buf - poolHdrSize))) := by
  have hmark := h.mark
  have hlow := h.low
  obtain ⟨l, t, r, rfl, ht, rfl⟩ := h.split hbuf
  have hput := h.tiles.mediaBufferPut ht
  obtain ⟨ts', htiled, hlives, hok⟩ := h.tiles.put ht
  have hunused := h.tiles.unused
  have hunused' := h.tiles.heapSizeUnused_putTile ht
  rw [freeSize_append, freeSize_cons_live ht] at hunused
  have hw' : World.Holds ⟨w.pool.putTile l t, w.live.erase (t.addr + poolHdrSize),
      min w.low (w.pool.putTile l t).heapSizeUnused⟩ ts' := by
    refine ⟨htiled, ?_, ?_, Nat.min_le_right ..⟩
    . have hperm := h.live
      rw [lives_append, lives_cons_live ht] at hperm
      have hmiddle := hperm.trans (perm_middle.map (· + poolHdrSize))
      have herase := hmiddle.erase (t.addr + poolHdrSize)
      rw [map_cons, erase_cons_head] at herase
      rw [hlives]
      exact herase
    . rw [Nat.min_eq_left (by omega)]
      exact Pool.kept_putTile.heapSizeMark.trans hmark
  refine ⟨_, ts', ?_, hw', fun hn => ?_⟩
  . rw [step, if_pos hbuf, hput]
    rfl
  . rw [hw'.nextOk_iff, Nat.add_sub_cancel, h.tiles.freeList_eq]
    exact hok (h.nextOk_iff.mp hn)

theorem Holds.step (op : Op) : ∃ w' ts',
    w.step op = some w' ∧ w'.Holds ts' ∧ (w.NextOk → (w'.NextOk ↔ w.Safe op)) := by
  cases op with
  | get bufSize =>
    obtain ⟨w', ts', hstep, hw', hok⟩ := h.get bufSize
    exact ⟨w', ts', hstep, hw', fun hn => iff_of_true (hok hn) trivial⟩
  | put buf =>
    by_cases hbuf : buf ∈ w.live
    . obtain ⟨w', ts', hstep, hw', hok⟩ := h.put hbuf
      exact ⟨w', ts', hstep, hw', fun hn => (hok hn).trans ⟨fun hs _ => hs, fun hs => hs hbuf⟩⟩
    . refine ⟨w, ts, ?_, h, fun hn => iff_of_true hn fun hmem => absurd hmem hbuf⟩
      rw [World.step, if_neg hbuf]
  | fill buf data =>
    by_cases hbuf : buf ∈ w.live
    . obtain ⟨l, t, r, rfl, ht, rfl⟩ := h.split hbuf
      have hw' : World.Holds { w with pool := w.pool.fill (t.addr + poolHdrSize) data }
          (l ++ t :: r) :=
        ⟨h.tiles.fill data, h.live, h.mark, h.low⟩
      refine ⟨_, _, ?_, hw', fun hn => iff_of_true ?_ trivial⟩
      . rw [World.step, if_pos hbuf]
      . exact hw'.nextOk_iff.mpr (h.nextOk_iff.mp hn)
    . refine ⟨w, ts, ?_, h, fun hn => iff_of_true hn trivial⟩
      rw [World.step, if_neg hbuf]

end

theorem holds_create {mem : Nat → Buffer} {poolStart heapAddr : Nat} {size : UInt16}
    (h : Pool.Fits poolStart heapAddr size) :
    ∃ ts, (create mem poolStart heapAddr size).Holds ts :=
  ⟨_, Pool.tiled_create h, List.Perm.refl _, rfl, Nat.le_refl _⟩

def stepIn (w : Option World) (op : Op) : Option World := w.bind (·.step op)

theorem media_pool_sound {poolStart heapAddr : Nat} {size : UInt16}
    (hfits : Pool.Fits poolStart heapAddr size) (mem : Nat → Buffer) (ops : List Op) :
    ∃ w, Run.exec stepIn (some (create mem poolStart heapAddr size)) ops = some w ∧ w.Sound ∧
      (Run.Along stepIn (fun w op => ∀ w' ∈ w, w'.Safe op)
        (some (create mem poolStart heapAddr size)) ops → w.NextOk) ∧
      ∀ op, ∃ w', w.step op = some w' ∧ (w.NextOk → (w'.NextOk ↔ w.Safe op)) := by
  obtain ⟨ts, hcreate⟩ := @holds_create mem _ _ _ hfits
  have hrun := @Run.exec_inv _ _ stepIn (fun _ _ => True)
    (fun s => ∃ w ts, s = some w ∧ w.Holds ts) (fun s op hs _ => by
      obtain ⟨w, ts, rfl, hw⟩ := hs
      obtain ⟨w', ts', hstep, hw', -⟩ := hw.step op
      exact ⟨w', ts', hstep, hw'⟩) _ ops ⟨_, ts, rfl, hcreate⟩ (Run.along_true _ ops)
  obtain ⟨w, ts', hexec, hw⟩ := hrun
  refine ⟨w, hexec, hw.sound, fun hsafe => ?_, fun op => ?_⟩
  . have hsafeRun := @Run.exec_inv _ _ stepIn (fun w op => ∀ w' ∈ w, w'.Safe op)
      (fun s => ∃ w ts, s = some w ∧ w.Holds ts ∧ w.NextOk) (fun s op hs hop => by
        obtain ⟨w, ts, rfl, hw, hn⟩ := hs
        obtain ⟨w', ts', hstep, hw', hok⟩ := hw.step op
        exact ⟨w', ts', hstep, hw', (hok hn).mpr (hop w rfl)⟩) _ ops
      ⟨_, ts, rfl, hcreate, .inl rfl⟩ hsafe
    obtain ⟨w', ts'', hexec', -, hn⟩ := hsafeRun
    rw [hexec, Option.some.injEq] at hexec'
    rw [hexec']
    exact hn
  . obtain ⟨w', ts'', hstep, -, hok⟩ := hw.step op
    exact ⟨w', hstep, hok⟩

def small : World := create (fun _ => ⟨7, 7, 7⟩) 8 104 160

theorem fits_small : Pool.Fits 8 104 160 where
  heap := by decide
  start := by decide
  room := by decide

theorem media_pool_sound_small :
    ∃ w, Run.exec stepIn (some small) [.get 8, .get 40, .put 112, .get 5, .put 128] = some w ∧
      w.Sound ∧ w.NextOk := by
  obtain ⟨w, hexec, hsound, hnext, -⟩ := media_pool_sound fits_small (fun _ => ⟨7, 7, 7⟩)
    [.get 8, .get 40, .put 112, .get 5, .put 128]
  exact ⟨w, hexec, hsound, hnext (by decide +kernel)⟩

theorem not_media_pool_sound :
    ∃ w ∈ Run.exec stepIn (some small) [.get 8, .get 8, .put 112, .put 128], ¬w.NextOk := by
  have h : (Run.exec stepIn (some small) [.get 8, .get 8, .put 112, .put 128]).any
      (fun w => decide ¬w.NextOk) = true := by
    decide +kernel
  obtain ⟨w, hw, hnot⟩ := (Option.any_eq_true ..).mp h
  exact ⟨w, hw, by simpa using hnot⟩

end World

end MediaPool
