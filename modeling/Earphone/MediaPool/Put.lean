import Earphone.MediaPool.Get

namespace MediaPool

open Chain Tiles List

namespace Pool

variable {p : Pool} {l r : List Tile} {t f v : Tile} {hdr prev x : Nat}

@[simp]
theorem next_setSize : (p.setSize addr n).next x = p.next x := by
  rw [next_def, mem_setSize]
  split
  . next heq =>
    rw [heq]
    rfl
  . rfl

@[simp]
theorem next_setFlags : (p.setFlags addr flags).next x = p.next x := by
  rw [next_def, mem_setFlags]
  split
  . next heq =>
    rw [heq]
    rfl
  . rfl

@[simp]
theorem size_setFlags : (p.setFlags addr flags).size x = p.size x := by
  rw [size_def, mem_setFlags]
  split
  . next heq =>
    rw [heq]
    rfl
  . rfl

structure Kept (p p' : Pool) : Prop extends SamePlace p p' where
  heapSizeUnused : p'.heapSizeUnused = p.heapSizeUnused
  heapSizeMark : p'.heapSizeMark = p.heapSizeMark

theorem Kept.trans (h : Kept p p') (h' : Kept p' p'') : Kept p p'' :=
  ⟨⟨h'.poolStart.trans h.poolStart, h'.poolEnd.trans h.poolEnd, h'.heapAddr.trans h.heapAddr,
    h'.heapSize.trans h.heapSize⟩, h'.heapSizeUnused.trans h.heapSizeUnused,
    h'.heapSizeMark.trans h.heapSizeMark⟩

theorem kept_setBuffer : Kept p (p.setBuffer x b) := ⟨⟨rfl, rfl, rfl, rfl⟩, rfl, rfl⟩

theorem kept_mergeRight : Kept p (p.mergeRight hdr prev) := by
  unfold mergeRight
  split
  . dsimp only
    split
    . split <;> exact ⟨⟨rfl, rfl, rfl, rfl⟩, rfl, rfl⟩
    . split <;> exact ⟨⟨rfl, rfl, rfl, rfl⟩, rfl, rfl⟩
  . exact kept_setBuffer

theorem kept_link : Kept p (p.link hdr prev) := by
  unfold link
  split
  . exact kept_setBuffer
  . exact ⟨⟨rfl, rfl, rfl, rfl⟩, rfl, rfl⟩

theorem kept_mergeLeft : Kept p (p.mergeLeft hdr prev).1 := by
  unfold mergeLeft
  split
  . exact kept_setBuffer
  . exact ⟨⟨rfl, rfl, rfl, rfl⟩, rfl, rfl⟩

theorem kept_putBlock : Kept p (p.putBlock hdr prev) :=
  (kept_mergeLeft.trans kept_mergeRight).trans kept_link

theorem mergeRight_none (h : hdr + p.size hdr = p.next prev → p.next prev = p.poolEnd) :
    (p.mergeRight hdr prev).mem = (p.setNext hdr (p.next prev)).mem ∧
      ((p.mergeRight hdr prev).nextFreeBlockAfterGet = p.nextFreeBlockAfterGet ∨
        (p.mergeRight hdr prev).nextFreeBlockAfterGet = hdr) := by
  unfold mergeRight
  split
  . next heq =>
    have hend := h heq
    dsimp only
    rw [if_neg (not_not_intro hend), hend]
    split
    . exact ⟨rfl, .inr rfl⟩
    . exact ⟨rfl, .inl rfl⟩
  . exact ⟨rfl, .inl rfl⟩

theorem mergeRight_some (h : hdr + p.size hdr = p.next prev) (hend : p.next prev ≠ p.poolEnd) :
    (p.mergeRight hdr prev).mem =
      ((p.setSize hdr ((p.size hdr + p.size (p.next prev)) % 2 ^ 16)).setNext hdr
        (p.next (p.next prev))).mem ∧
      (p.mergeRight hdr prev).nextFreeBlockAfterGet =
        if p.nextFreeBlockAfterGet = (if prev = hdr then p.next (p.next prev) else p.next prev)
        then hdr else p.nextFreeBlockAfterGet := by
  unfold mergeRight
  rw [if_pos h]
  dsimp only
  rw [if_pos hend]
  simp only [next_setSize]
  generalize hq : (p.setSize hdr ((p.size hdr + p.size (p.next prev)) % 2 ^ 16)).setNext hdr
    (p.next (p.next prev)) = q
  have hqfree : q.nextFreeBlockAfterGet = p.nextFreeBlockAfterGet := hq ▸ rfl
  have hqnext : q.next prev = if prev = hdr then p.next (p.next prev) else p.next prev := by
    rw [← hq, next_def, mem_setNext]
    split
    . rfl
    . exact next_setSize
  rw [hqnext, hqfree]
  by_cases hc : p.nextFreeBlockAfterGet = if prev = hdr then p.next (p.next prev) else p.next prev
  . rw [if_pos hc, if_pos hc]
    exact ⟨rfl, rfl⟩
  . rw [if_neg hc, if_neg hc]
    exact ⟨rfl, hqfree⟩

section

variable (hne : prev ≠ hdr)
include hne

theorem putBlock_alone (hleft : prev + p.size prev ≠ hdr)
    (hright : hdr + p.size hdr = p.next prev → p.next prev = p.poolEnd) :
    (∀ x, (p.putBlock hdr prev).mem x =
      if x = prev then { p.mem prev with pNext := hdr }
      else if x = hdr then { p.mem hdr with pNext := p.next prev }
      else p.mem x) ∧
    ((p.putBlock hdr prev).nextFreeBlockAfterGet = p.nextFreeBlockAfterGet ∨
      (p.putBlock hdr prev).nextFreeBlockAfterGet = hdr) := by
  obtain ⟨hmem, hfree⟩ := mergeRight_none hright
  unfold putBlock mergeLeft link
  rw [if_neg hleft]
  dsimp only
  rw [if_pos hne]
  refine ⟨fun x => ?_, hfree⟩
  rw [mem_setNext, hmem, mem_setNext, mem_setNext]
  by_cases hx : x = prev
  . simp [hx, hne]
  . simp [hx]

theorem putBlock_right (hleft : prev + p.size prev ≠ hdr) (hright : hdr + p.size hdr = p.next prev)
    (hend : p.next prev ≠ p.poolEnd) :
    (∀ x, (p.putBlock hdr prev).mem x =
      if x = prev then { p.mem prev with pNext := hdr }
      else if x = hdr then
        ⟨p.next (p.next prev), (p.size hdr + p.size (p.next prev)) % 2 ^ 16, (p.mem hdr).flags⟩
      else p.mem x) ∧
    (p.putBlock hdr prev).nextFreeBlockAfterGet =
      if p.nextFreeBlockAfterGet = p.next prev then hdr else p.nextFreeBlockAfterGet := by
  obtain ⟨hmem, hfree⟩ := mergeRight_some hright hend
  rw [if_neg hne] at hfree
  unfold putBlock mergeLeft link
  rw [if_neg hleft]
  dsimp only
  rw [if_pos hne]
  refine ⟨fun x => ?_, hfree⟩
  rw [mem_setNext, hmem, mem_setNext, mem_setNext]
  by_cases hx : x = prev
  . simp [hx, hne]
  . by_cases hxhdr : x = hdr
    . simp [hxhdr, Ne.symm hne]
    . simp [hx, hxhdr]

end

section

variable (hleft : prev + p.size prev = hdr)

include hleft

theorem putBlock_eq (hsize : p.size prev + p.size hdr < 2 ^ 16) :
    p.putBlock hdr prev = (p.setSize prev (p.size prev + p.size hdr)).mergeRight prev prev := by
  unfold putBlock mergeLeft link
  rw [if_pos hleft, Nat.mod_eq_of_lt hsize]
  dsimp only
  rw [if_neg (not_not_intro rfl)]

theorem putBlock_left (hright : hdr + p.size hdr = p.next prev → p.next prev = p.poolEnd)
    (hsize : p.size prev + p.size hdr < 2 ^ 16) :
    (∀ x, (p.putBlock hdr prev).mem x =
      if x = prev then { p.mem prev with size := p.size prev + p.size hdr } else p.mem x) ∧
    ((p.putBlock hdr prev).nextFreeBlockAfterGet = p.nextFreeBlockAfterGet ∨
      (p.putBlock hdr prev).nextFreeBlockAfterGet = prev) := by
  have hput := putBlock_eq hleft hsize
  have hq : prev + (p.setSize prev (p.size prev + p.size hdr)).size prev = hdr + p.size hdr := by
    rw [size_def, mem_setSize, if_pos rfl]
    dsimp only
    omega
  have hmerge : prev + (p.setSize prev (p.size prev + p.size hdr)).size prev =
      (p.setSize prev (p.size prev + p.size hdr)).next prev →
      (p.setSize prev (p.size prev + p.size hdr)).next prev = p.poolEnd := by
    rw [hq, next_setSize]
    exact hright
  obtain ⟨hmem, hfree⟩ := mergeRight_none hmerge
  rw [hput]
  refine ⟨fun x => ?_, hfree⟩
  rw [hmem, mem_setNext, next_setSize, mem_setSize, mem_setSize]
  by_cases hx : x = prev
  . simp [hx, next_def]
  . simp [hx]

theorem putBlock_both (hright : hdr + p.size hdr = p.next prev) (hend : p.next prev ≠ p.poolEnd)
    (hne : p.next prev ≠ prev) (hsize : p.size prev + p.size hdr < 2 ^ 16) :
    (∀ x, (p.putBlock hdr prev).mem x =
      if x = prev then ⟨p.next (p.next prev),
        (p.size prev + p.size hdr + p.size (p.next prev)) % 2 ^ 16, (p.mem prev).flags⟩
      else p.mem x) ∧
    (p.putBlock hdr prev).nextFreeBlockAfterGet =
      if p.nextFreeBlockAfterGet = p.next (p.next prev) then prev else p.nextFreeBlockAfterGet := by
  have hput := putBlock_eq hleft hsize
  have hq : (p.setSize prev (p.size prev + p.size hdr)).size prev = p.size prev + p.size hdr := by
    rw [size_def, mem_setSize, if_pos rfl]
  have hmerge : prev + (p.setSize prev (p.size prev + p.size hdr)).size prev =
      (p.setSize prev (p.size prev + p.size hdr)).next prev := by
    rw [hq, next_setSize]
    omega
  have hother : (p.setSize prev (p.size prev + p.size hdr)).size (p.next prev) =
      p.size (p.next prev) := by
    rw [size_def, mem_setSize, if_neg hne]
    rfl
  obtain ⟨hmem, hfree⟩ := mergeRight_some hmerge (by rw [next_setSize]; exact hend)
  rw [if_pos rfl, next_setSize, next_setSize] at hfree
  rw [hput]
  refine ⟨fun x => ?_, hfree⟩
  rw [hmem, mem_setNext, next_setSize, next_setSize, hq, hother, mem_setSize, mem_setSize,
    mem_setSize, mem_setSize]
  by_cases hx : x = prev
  . simp [hx]
  . simp [hx]

end

theorem mem_release : (p.release hdr).mem x =
    if x = hdr then { p.mem hdr with flags := 0 } else p.mem x :=
  mem_setFlags

@[simp]
theorem next_release : (p.release hdr).next x = p.next x := next_setFlags

@[simp]
theorem size_release : (p.release hdr).size x = p.size x := size_setFlags

theorem add32_eq (h : a + b < 2 ^ 16) : add32 a b = a + b := by
  unfold add32
  omega

namespace Tiled

section

variable (h : p.Tiled (l ++ t :: r))

include h

theorem heapSizeUnused_release (ht : t.free = false) :
    (p.release t.addr).heapSizeUnused = freeSize l + t.size + freeSize r := by
  obtain ⟨hl, -, hr⟩ := contig_mid.mp h.contig
  have hlle := hl.freeSize_le
  have hrle := hr.freeSize_le
  have hheap := h.heap
  have hsize := h.heapSize
  have hmem := h.size t (mem_append_right l mem_cons_self)
  have hunused := h.unused
  rw [freeSize_append, freeSize_cons_live ht] at hunused
  have hadd : (p.release t.addr).heapSizeUnused = add32 p.heapSizeUnused t.size := by
    have hset : (p.setFlags t.addr 0).size t.addr = t.size := size_setFlags.trans hmem
    rw [← hset]
    rfl
  rw [hadd, add32_eq (by omega), hunused]
  omega

theorem prevOf_add_ne (hl : ∀ u ∈ l.getLast?, u.free = false) :
    p.prevOf l + p.size (p.prevOf l) ≠ t.addr := by
  obtain ⟨hbefore, -, hr⟩ := contig_mid.mp h.contig
  have hout := h.outside (prevOf_mem (l := l))
  have hrle := hr.le
  obtain heq | hmem := mem_cons.mp (prevOf_mem (p := p) (l := l))
  . rw [heq] at hout ⊢
    rw [h.startSize]
    omega
  . obtain ⟨u, hu, hfree, haddr⟩ := mem_frees.mp hmem
    have hlt := hbefore.lt_of_last hl hu hfree
    rw [← haddr, h.size u (mem_append_left _ hu)]
    omega

theorem next_prevOf_live (ht : t.free = false) :
    p.next (p.prevOf l) = (frees r).headD p.poolEnd := by
  have hlinked := h.linked
  rw [frees_append, frees_cons_live ht] at hlinked
  exact hlinked.left.next_last

theorem right_none (ht : t.free = false)
    (hr : ∀ u ∈ r.head?, u.free = false) (heq : t.addr + t.size = p.next (p.prevOf l)) :
    p.next (p.prevOf l) = p.poolEnd := by
  obtain ⟨-, -, hafter⟩ := contig_mid.mp h.contig
  rw [h.next_prevOf_live ht] at heq ⊢
  cases hfrees : frees r with
  | nil => rfl
  | cons a as =>
    have hmem : a ∈ frees r := hfrees ▸ mem_cons_self
    obtain ⟨u, hu, hfree, rfl⟩ := mem_frees.mp hmem
    have hlt := hafter.lt_of_head hr hu hfree
    rw [hfrees] at heq
    exact absurd heq (Nat.ne_of_lt hlt)

end

theorem prevOf_concat (hf : f.free = true) : p.prevOf (l ++ [f]) = f.addr := by
  unfold prevOf
  rw [frees_append, frees_cons_free hf]
  exact getLastD_concat ..

end Tiled

def putTile (p : Pool) (l : List Tile) (t : Tile) : Pool :=
  (p.release t.addr).putBlock t.addr (p.prevOf l)

theorem kept_putTile : Kept (p.release t.addr) (p.putTile l t) := kept_putBlock

theorem samePlace_putTile : SamePlace p (p.putTile l t) := by
  have h : Kept (p.release t.addr) (p.putTile l t) := kept_putTile
  exact ⟨h.poolStart, h.poolEnd, h.heapAddr, h.heapSize⟩

namespace Tiled

theorem heapSizeUnused_putTile (h : p.Tiled (l ++ t :: r)) (ht : t.free = false) :
    (p.putTile l t).heapSizeUnused = freeSize l + t.size + freeSize r :=
  kept_putTile.heapSizeUnused.trans (h.heapSizeUnused_release ht)

theorem join (h : p.Tiled (l ++ (mid ++ r)))
    (hs : SamePlace p p') (hl : Contig p.heapStart l m) (hr : Contig m' r p.poolEnd) (hlt : m < m')
    (hcl : Coalesced l) (hcr : Coalesced r) (hlast : ∀ u ∈ l.getLast?, u.free = false)
    (hhead : ∀ u ∈ r.head?, u.free = false)
    (hout : ∀ x, x < m ∨ m' ≤ x → p'.size x = p.size x ∧ (p'.mem x).flags = (p.mem x).flags)
    (hend : p'.next p.poolEnd = p.next p.poolEnd)
    (hlinked : Linked p'.next p.poolStart (frees l ++ m :: frees r) p.poolEnd)
    (hsize : p'.size m = m' - m) (hdvd : poolBufferAlignSize ∣ m' - m)
    (hunused : p'.heapSizeUnused = freeSize l + (m' - m) + freeSize r) :
    p'.Tiled (l ++ ([⟨m, m' - m, true⟩] ++ r)) := by
  have hfrees : frees ([⟨m, m' - m, true⟩] ++ r) = m :: frees r := frees_cons_free rfl
  have hpos : 0 < m' - m := Nat.sub_pos_of_lt hlt
  refine h.replace hs hl ⟨rfl, hpos, Nat.add_sub_cancel' (Nat.le_of_lt hlt)⟩ hr hout hend ?_ ?_
    (fun u hu => ?_) ?_
  . rw [frees_append, hfrees]
    exact hlinked
  . exact (coalesced_free rfl).mpr ⟨hcl, hcr, hlast, hhead⟩
  . rw [mem_singleton.mp hu]
    exact ⟨hsize, hdvd, nofun⟩
  . rw [hunused, freeSize_append, cons_append, freeSize_cons_free rfl, nil_append]
    exact Nat.add_assoc ..

theorem put_alone (h : p.Tiled (l ++ t :: r)) (ht : t.free = false)
    (hlast : ∀ u ∈ l.getLast?, u.free = false) (hhead : ∀ u ∈ r.head?, u.free = false) :
    (p.putTile l t).Tiled (l ++ ([⟨t.addr, t.addr + t.size - t.addr, true⟩] ++ r)) ∧
      ((p.putTile l t).nextFreeBlockAfterGet = p.nextFreeBlockAfterGet ∨
        (p.putTile l t).nextFreeBlockAfterGet = t.addr) := by
  have hmemt : t ∈ l ++ t :: r := mem_append_right l mem_cons_self
  have hsize := h.size t hmemt
  obtain ⟨hl, hpos, hr⟩ := contig_mid.mp h.contig
  have hrle := hr.le
  have hprev := h.outside (prevOf_mem (l := l))
  obtain ⟨hcl, hcr⟩ := (coalesced_live ht).mp h.coalesced
  have hright := h.right_none ht hhead
  obtain ⟨hmem, hfree⟩ := @putBlock_alone (p.release t.addr) t.addr (p.prevOf l) (by omega)
    (by rw [size_release]; exact h.prevOf_add_ne hlast)
    (by rw [size_release, next_release, hsize]; exact hright)
  rw [← putTile] at hmem hfree
  simp only [mem_release, next_release, ↓reduceIte] at hmem
  have hother : ∀ x, x ≠ p.prevOf l → x ≠ t.addr → (p.putTile l t).mem x = p.mem x := by
    intro x hx hxt
    rw [hmem, if_neg hx, if_neg hxt, if_neg hxt]
  have hq : (p.putTile l t).mem (p.prevOf l) = { p.mem (p.prevOf l) with pNext := t.addr } := by
    rw [hmem, if_pos rfl, if_neg (by omega)]
  have htile : (p.putTile l t).mem t.addr = ⟨p.next (p.prevOf l), t.size, 0⟩ := by
    rw [hmem, if_neg (by omega), if_pos rfl]
    exact congrArg (Buffer.mk _ · 0) hsize
  have hjoin : p.Tiled (l ++ ([t] ++ r)) := h
  refine ⟨hjoin.join samePlace_putTile hl hr (by omega) hcl hcr hlast hhead (fun x hx => ?_)
    ?_ ?_ ?_ ?_ ?_, hfree⟩
  . by_cases hxq : x = p.prevOf l
    . rw [size_def, hxq, hq]
      exact ⟨rfl, rfl⟩
    . rw [size_def, hother x hxq (by omega)]
      exact ⟨rfl, rfl⟩
  . rw [next_def, hother p.poolEnd (by omega) (by omega)]
    rfl
  . have hlinked := h.linked
    rw [frees_append, frees_cons_live ht] at hlinked
    refine hlinked.insert h.nodup_left ?_ ?_ (fun x hx hne => ?_) fun x hx => ?_
    . rw [← prevOf, next_def, hq]
    . rw [← prevOf, next_def, htile]
    . have hout := h.outside hx
      rw [next_def, hother x hne (by omega)]
      rfl
    . have hb := hr.frees_bounds hx
      rw [next_def, hother x (by omega) (by omega)]
      rfl
  . rw [size_def, htile, Nat.add_sub_cancel_left]
  . rw [Nat.add_sub_cancel_left]
    exact h.sizeAligned t hmemt
  . rw [h.heapSizeUnused_putTile ht, Nat.add_sub_cancel_left]

theorem put_right (h : p.Tiled (l ++ t :: v :: r)) (ht : t.free = false) (hv : v.free = true)
    (hlast : ∀ u ∈ l.getLast?, u.free = false) :
    (p.putTile l t).Tiled (l ++ ([⟨t.addr, v.addr + v.size - t.addr, true⟩] ++ r)) ∧
      (p.putTile l t).nextFreeBlockAfterGet =
        if p.nextFreeBlockAfterGet = v.addr then t.addr else p.nextFreeBlockAfterGet := by
  have hmemt : t ∈ l ++ t :: v :: r := mem_append_right l mem_cons_self
  have hmemv : v ∈ l ++ t :: v :: r := mem_append_right l (mem_cons_of_mem t mem_cons_self)
  have hsize := h.size t hmemt
  have hsizev := h.size v hmemv
  have hheap := h.heap
  have hheapSize := h.heapSize
  obtain ⟨hl, hpos, haddr, hposv, hr⟩ := contig_mid.mp h.contig
  rw [← haddr] at hr
  have hlle := hl.le
  have hrle := hr.le
  have hprev := h.outside (prevOf_mem (l := l))
  obtain ⟨hcl, hcv⟩ := (coalesced_live ht).mp h.coalesced
  obtain ⟨-, hcr, -, hhead⟩ := (coalesced_free (l := []) hv).mp hcv
  have hnext : p.next (p.prevOf l) = v.addr := by
    rw [h.next_prevOf_live ht, frees_cons_free hv]
    rfl
  have hend : v.addr ≠ p.poolEnd := by omega
  obtain ⟨hmem, hfree⟩ := @putBlock_right (p.release t.addr) t.addr (p.prevOf l) (by omega)
    (by rw [size_release]; exact h.prevOf_add_ne hlast)
    (by rw [size_release, next_release, hsize, hnext, haddr])
    (by rw [next_release, hnext]; exact hend)
  rw [← putTile] at hmem hfree
  simp only [mem_release, next_release, size_release, hnext, hsize, hsizev, ↓reduceIte]
    at hmem hfree
  have hother : ∀ x, x ≠ p.prevOf l → x ≠ t.addr → (p.putTile l t).mem x = p.mem x := by
    intro x hx hxt
    rw [hmem, if_neg hx, if_neg hxt, if_neg hxt]
  have hq : (p.putTile l t).mem (p.prevOf l) = { p.mem (p.prevOf l) with pNext := t.addr } := by
    rw [hmem, if_pos rfl, if_neg (by omega)]
  have htile : (p.putTile l t).mem t.addr = ⟨p.next v.addr, t.size + v.size, 0⟩ := by
    rw [hmem, if_neg (by omega), if_pos rfl, Nat.mod_eq_of_lt (by omega)]
  have hsub : v.addr + v.size - t.addr = t.size + v.size := by omega
  have hjoin : p.Tiled (l ++ ([t, v] ++ r)) := h
  refine ⟨hjoin.join samePlace_putTile hl hr (by omega) hcl hcr hlast hhead
    (fun x hx => ?_) ?_ ?_ ?_ ?_ ?_, hfree⟩
  . by_cases hxq : x = p.prevOf l
    . rw [size_def, hxq, hq]
      exact ⟨rfl, rfl⟩
    . rw [size_def, hother x hxq (by omega)]
      exact ⟨rfl, rfl⟩
  . rw [next_def, hother p.poolEnd (by omega) (by omega)]
    rfl
  . have hlinked := h.linked
    rw [frees_append, frees_cons_live ht, frees_cons_free hv] at hlinked
    refine hlinked.replace h.nodup_left ?_ ?_ (fun x hx hne => ?_) fun x hx => ?_
    . rw [← prevOf, next_def, hq]
    . rw [next_def, htile]
    . have hout := h.outside hx
      rw [next_def, hother x hne (by omega)]
      rfl
    . have hb := hr.frees_bounds hx
      rw [next_def, hother x (by omega) (by omega)]
      rfl
  . rw [size_def, htile, hsub]
  . rw [hsub]
    exact Nat.dvd_add (h.sizeAligned t hmemt) (h.sizeAligned v hmemv)
  . rw [h.heapSizeUnused_putTile ht, hsub, freeSize_cons_free hv]
    omega

theorem put_left (h : p.Tiled (l ++ [f] ++ t :: r)) (ht : t.free = false) (hf : f.free = true)
    (hhead : ∀ u ∈ r.head?, u.free = false) :
    (p.putTile (l ++ [f]) t).Tiled (l ++ ([⟨f.addr, t.addr + t.size - f.addr, true⟩] ++ r)) ∧
      ((p.putTile (l ++ [f]) t).nextFreeBlockAfterGet = p.nextFreeBlockAfterGet ∨
        (p.putTile (l ++ [f]) t).nextFreeBlockAfterGet = f.addr) := by
  have hmemt : t ∈ l ++ [f] ++ t :: r := mem_append_right _ mem_cons_self
  have hmemf : f ∈ l ++ [f] ++ t :: r := mem_append_left _ (mem_append_right l mem_cons_self)
  have hsize := h.size t hmemt
  have hsizef := h.size f hmemf
  have hheap := h.heap
  have hheapSize := h.heapSize
  obtain ⟨hlf, hpos, hr⟩ := contig_mid.mp h.contig
  obtain ⟨hl, hposf, haddr⟩ := contig_mid.mp hlf
  have haddr : f.addr + f.size = t.addr := haddr
  have hlle := hl.le
  have hrle := hr.le
  obtain ⟨hcf, hcr⟩ := (coalesced_live ht).mp h.coalesced
  obtain ⟨hcl, -, hlast, -⟩ := (coalesced_free hf).mp hcf
  have hprev : p.prevOf (l ++ [f]) = f.addr := prevOf_concat hf
  have hright := h.right_none ht hhead
  rw [hprev] at hright
  obtain ⟨hmem, hfree⟩ := @putBlock_left (p.release t.addr) t.addr f.addr
    (by rw [size_release, hsizef, haddr])
    (by rw [size_release, next_release, hsize]; exact hright)
    (by rw [size_release, size_release, hsize, hsizef]; omega)
  rw [← hprev, ← putTile] at hmem hfree
  rw [hprev] at hmem hfree
  simp only [mem_release, size_release, hsize, hsizef] at hmem
  have hother : ∀ x, x ≠ f.addr → x ≠ t.addr → (p.putTile (l ++ [f]) t).mem x = p.mem x := by
    intro x hx hxt
    rw [hmem, if_neg hx, if_neg hxt]
  have hfirst : (p.putTile (l ++ [f]) t).mem f.addr =
      { p.mem f.addr with size := f.size + t.size } := by
    rw [hmem, if_pos rfl, if_neg (by omega)]
  have htile : (p.putTile (l ++ [f]) t).mem t.addr = { p.mem t.addr with flags := 0 } := by
    rw [hmem, if_neg (by omega), if_pos rfl]
  have hnext : ∀ x, (p.putTile (l ++ [f]) t).next x = p.next x := by
    intro x
    by_cases hxf : x = f.addr
    . rw [next_def, hxf, hfirst]
      rfl
    . by_cases hxt : x = t.addr
      . rw [next_def, hxt, htile]
        rfl
      . rw [next_def, hother x hxf hxt]
        rfl
  have hsub : t.addr + t.size - f.addr = f.size + t.size := by omega
  have hjoin : p.Tiled (l ++ ([f, t] ++ r)) := by
    rw [append_assoc] at h
    exact h
  refine ⟨hjoin.join samePlace_putTile hl hr (by omega) hcl hcr hlast hhead
    (fun x hx => ?_) ?_ ?_ ?_ ?_ ?_, hfree⟩
  . rw [size_def, hother x (by omega) (by omega)]
    exact ⟨rfl, rfl⟩
  . exact hnext p.poolEnd
  . have hlinked := h.linked
    rw [frees_append, frees_append, frees_cons_free hf, frees_cons_live ht, frees_nil,
      append_assoc] at hlinked
    exact hlinked.congr fun x _ => hnext x
  . rw [size_def, hfirst, hsub]
  . rw [hsub]
    exact Nat.dvd_add (h.sizeAligned f hmemf) (h.sizeAligned t hmemt)
  . rw [h.heapSizeUnused_putTile ht, hsub, freeSize_append, freeSize_cons_free hf, freeSize_nil]
    omega

theorem put_both (h : p.Tiled (l ++ [f] ++ t :: v :: r)) (ht : t.free = false)
    (hf : f.free = true) (hv : v.free = true) :
    (p.putTile (l ++ [f]) t).Tiled (l ++ ([⟨f.addr, v.addr + v.size - f.addr, true⟩] ++ r)) ∧
      (p.putTile (l ++ [f]) t).nextFreeBlockAfterGet =
        if p.nextFreeBlockAfterGet = p.next v.addr then f.addr else p.nextFreeBlockAfterGet := by
  have hmemt : t ∈ l ++ [f] ++ t :: v :: r := mem_append_right _ mem_cons_self
  have hmemv : v ∈ l ++ [f] ++ t :: v :: r := mem_append_right _ (mem_cons_of_mem t mem_cons_self)
  have hmemf : f ∈ l ++ [f] ++ t :: v :: r := mem_append_left _ (mem_append_right l mem_cons_self)
  have hsize := h.size t hmemt
  have hsizef := h.size f hmemf
  have hsizev := h.size v hmemv
  have hheap := h.heap
  have hheapSize := h.heapSize
  obtain ⟨hlf, hpos, haddrv, hposv, hr⟩ := contig_mid.mp h.contig
  rw [← haddrv] at hr
  obtain ⟨hl, hposf, haddr⟩ := contig_mid.mp hlf
  have haddr : f.addr + f.size = t.addr := haddr
  have hlle := hl.le
  have hrle := hr.le
  obtain ⟨hcf, hcv⟩ := (coalesced_live ht).mp h.coalesced
  obtain ⟨hcl, -, hlast, -⟩ := (coalesced_free hf).mp hcf
  obtain ⟨-, hcr, -, hhead⟩ := (coalesced_free (l := []) hv).mp hcv
  have hprev : p.prevOf (l ++ [f]) = f.addr := prevOf_concat hf
  -- the free block in front of the tile is linked to the one behind it
  have hnextf : p.next f.addr = v.addr := by
    rw [← hprev, h.next_prevOf_live ht, frees_cons_free hv]
    rfl
  have hend : v.addr ≠ p.poolEnd := by omega
  obtain ⟨hmem, hfree⟩ := @putBlock_both (p.release t.addr) t.addr f.addr
    (by rw [size_release, hsizef, haddr])
    (by rw [size_release, next_release, hsize, hnextf, haddrv])
    (by rw [next_release, hnextf]; exact hend)
    (by rw [next_release, hnextf]; omega)
    (by rw [size_release, size_release, hsize, hsizef]; omega)
  rw [← hprev, ← putTile] at hmem hfree
  rw [hprev] at hmem hfree
  simp only [mem_release, size_release, next_release, hnextf, hsize, hsizef, hsizev] at hmem hfree
  have hother : ∀ x, x ≠ f.addr → x ≠ t.addr → (p.putTile (l ++ [f]) t).mem x = p.mem x := by
    intro x hx hxt
    rw [hmem, if_neg hx, if_neg hxt]
  have hfirst : (p.putTile (l ++ [f]) t).mem f.addr =
      ⟨p.next v.addr, f.size + t.size + v.size, (p.mem f.addr).flags⟩ := by
    rw [hmem, if_pos rfl, if_neg (by omega), Nat.mod_eq_of_lt (by omega)]
  have hnext : ∀ x, x ≠ f.addr → (p.putTile (l ++ [f]) t).next x = p.next x := by
    intro x hxf
    by_cases hxt : x = t.addr
    . rw [next_def, hmem, if_neg hxf, if_pos hxt, hxt]
      rfl
    . rw [next_def, hother x hxf hxt]
      rfl
  have hsub : v.addr + v.size - f.addr = f.size + t.size + v.size := by omega
  have hjoin : p.Tiled (l ++ ([f, t, v] ++ r)) := by
    rw [append_assoc] at h
    exact h
  refine ⟨hjoin.join samePlace_putTile hl hr (by omega) hcl hcr hlast hhead
    (fun x hx => ?_) ?_ ?_ ?_ ?_ ?_, hfree⟩
  . rw [size_def, hother x (by omega) (by omega)]
    exact ⟨rfl, rfl⟩
  . exact hnext p.poolEnd (by omega)
  . have hlinked := h.linked
    have hnodup := h.nodup_left
    have hgetLast : (frees (l ++ [f])).getLastD p.poolStart = f.addr := hprev
    rw [frees_append, frees_cons_live ht, frees_cons_free hv] at hlinked
    -- the block behind leaves the list, the one in front takes its link
    have hchain : Linked (p.putTile (l ++ [f]) t).next p.poolStart (frees (l ++ [f]) ++ frees r)
        p.poolEnd := by
      refine hlinked.unlink hnodup ?_ (fun x _ hne => ?_) fun x hx => ?_
      . rw [hgetLast, next_def, hfirst]
      . rw [hgetLast] at hne
        exact hnext x hne
      . have hb := hr.frees_bounds hx
        exact hnext x (by omega)
    rw [frees_append, frees_cons_free hf, frees_nil, append_assoc] at hchain
    exact hchain
  . rw [size_def, hfirst, hsub]
  . rw [hsub]
    exact Nat.dvd_add (Nat.dvd_add (h.sizeAligned f hmemf) (h.sizeAligned t hmemt))
      (h.sizeAligned v hmemv)
  . rw [h.heapSizeUnused_putTile ht, hsub, freeSize_append, freeSize_cons_free hf, freeSize_nil,
      freeSize_cons_free hv]
    omega

end Tiled

section

def NextOk (p : Pool) (frees : List Nat) : Prop :=
  p.nextFreeBlockAfterGet = 0 ∨ p.nextFreeBlockAfterGet = p.poolEnd ∨
    p.nextFreeBlockAfterGet ∈ frees

def NextMerged (p : Pool) (frees : List Nat) (hdr : Nat) : Prop :=
  (∃ f ∈ frees, f + p.size f = hdr) ∧ p.nextFreeBlockAfterGet = hdr + p.size hdr ∧
    p.nextFreeBlockAfterGet ∈ frees

variable {fs fs' : List Nat} {p' : Pool}

theorem NextOk.mono (h : p.NextOk fs) (hs : SamePlace p p') (hb : b ∈ fs')
    (hsub : ∀ x ∈ fs, x ∈ fs')
    (hnext : p'.nextFreeBlockAfterGet = p.nextFreeBlockAfterGet ∨ p'.nextFreeBlockAfterGet = b) :
    p'.NextOk fs' := by
  unfold NextOk at h ⊢
  obtain heq | heq := hnext
  . rw [heq, hs.poolEnd]
    exact h.imp_right (Or.imp_right (hsub _))
  . rw [heq]
    exact .inr (.inr hb)

namespace Tiled

theorem not_nextMerged_left (h : p.Tiled (l ++ t :: r)) (ht : t.free = false)
    (hlast : ∀ u ∈ l.getLast?, u.free = false) :
    ¬p.NextMerged (frees (l ++ t :: r)) t.addr := by
  rintro ⟨⟨a, ha, heq⟩, -⟩
  obtain ⟨hl, hpos, hr⟩ := contig_mid.mp h.contig
  obtain ⟨u, hu, hfree, rfl⟩ := mem_frees.mp ha
  rw [h.size u hu] at heq
  obtain hu | hu := mem_append.mp hu
  . have hlt := hl.lt_of_last hlast hu hfree
    omega
  . obtain rfl | hu := mem_cons.mp hu
    . rw [ht] at hfree
      cases hfree
    . have hb := hr.bounds hu
      omega

theorem not_nextMerged_right (h : p.Tiled (l ++ t :: r)) (ht : t.free = false)
    (hhead : ∀ u ∈ r.head?, u.free = false) :
    ¬p.NextMerged (frees (l ++ t :: r)) t.addr := by
  rintro ⟨-, heq, hmem⟩
  have hmemt : t ∈ l ++ t :: r := mem_append_right l mem_cons_self
  obtain ⟨hl, hpos, hr⟩ := contig_mid.mp h.contig
  rw [h.size t hmemt] at heq
  obtain ⟨u, hu, hfree, haddr⟩ := mem_frees.mp hmem
  obtain hu | hu := mem_append.mp hu
  . have hb := hl.bounds hu
    omega
  . obtain rfl | hu := mem_cons.mp hu
    . rw [ht] at hfree
      cases hfree
    . have hlt := hr.lt_of_head hhead hu hfree
      omega

theorem nextOk_both (h : p.Tiled (l ++ [f] ++ t :: v :: r)) (ht : t.free = false)
    (hf : f.free = true) (hv : v.free = true) (hok : p.NextOk (frees (l ++ [f] ++ t :: v :: r))) :
    (p.putTile (l ++ [f]) t).NextOk
        (frees (l ++ ([⟨f.addr, v.addr + v.size - f.addr, true⟩] ++ r))) ↔
      ¬p.NextMerged (frees (l ++ [f] ++ t :: v :: r)) t.addr := by
  have hnext := (h.put_both ht hf hv).2
  have hmemt : t ∈ l ++ [f] ++ t :: v :: r := mem_append_right _ mem_cons_self
  have hmemf : f ∈ l ++ [f] ++ t :: v :: r := mem_append_left _ (mem_append_right l mem_cons_self)
  obtain ⟨hlf, hpos, haddrv, hposv, hr⟩ := contig_mid.mp h.contig
  obtain ⟨hl, hposf, haddr⟩ := contig_mid.mp hlf
  have haddr : f.addr + f.size = t.addr := haddr
  have hrle := hr.le
  have hstart := h.start
  have hlle := hl.le
  have hfrees : frees (l ++ [f] ++ t :: v :: r) = frees l ++ f.addr :: v.addr :: frees r := by
    rw [frees_append, frees_append, frees_cons_free hf, frees_cons_live ht, frees_cons_free hv,
      append_assoc]
    rfl
  have hfrees' : frees (l ++ ([⟨f.addr, v.addr + v.size - f.addr, true⟩] ++ r)) =
      frees l ++ f.addr :: frees r := by
    rw [frees_append, cons_append, frees_cons_free rfl]
    rfl
  have hmerged : p.NextMerged (frees (l ++ [f] ++ t :: v :: r)) t.addr ↔
      p.nextFreeBlockAfterGet = v.addr := by
    unfold NextMerged
    rw [h.size t hmemt, ← haddrv]
    constructor
    . rintro ⟨-, heq, -⟩
      exact heq
    . intro heq
      refine ⟨⟨f.addr, mem_frees.mpr ⟨f, hmemf, hf, rfl⟩, by rw [h.size f hmemf, haddr]⟩, heq, ?_⟩
      rw [heq, hfrees]
      simp
  have hplace : (p.putTile (l ++ [f]) t).poolEnd = p.poolEnd := samePlace_putTile.poolEnd
  have hlinked := h.linked
  rw [hfrees] at hok hlinked
  rw [hmerged, hfrees', NextOk, hnext, hplace]
  by_cases heq : p.nextFreeBlockAfterGet = v.addr
  . refine iff_of_false ?_ (not_not_intro heq)
    have hvnext : p.next v.addr ≠ v.addr := by
      have hright := (Linked.append_iff.mp hlinked).2.2
      obtain hmem | hpoolEnd := hright.next_mem mem_cons_self
      . have hb := hr.frees_bounds hmem
        omega
      . omega
    rw [if_neg (by rw [heq]; exact Ne.symm hvnext), heq]
    rintro (hzero | hend | hmem)
    . omega
    . omega
    . obtain hmem | hmem := mem_append.mp hmem
      . have hb := hl.frees_bounds hmem
        omega
      . obtain hvf | hmem := mem_cons.mp hmem
        . omega
        . have hb := hr.frees_bounds hmem
          omega
  . refine iff_of_true ?_ heq
    split
    . exact .inr (.inr (mem_append_right _ mem_cons_self))
    . obtain hzero | hend | hmem := hok
      . exact .inl hzero
      . exact .inr (.inl hend)
      . refine .inr (.inr ?_)
        simp only [mem_append, mem_cons] at hmem ⊢
        tauto

theorem put (h : p.Tiled (l ++ t :: r)) (ht : t.free = false) :
    ∃ ts', (p.putTile l t).Tiled ts' ∧ lives ts' = lives l ++ lives r ∧
      (p.NextOk (frees (l ++ t :: r)) → ((p.putTile l t).NextOk (frees ts') ↔
        ¬p.NextMerged (frees (l ++ t :: r)) t.addr)) := by
  have hlives : ∀ l r : List Tile, ∀ a n, lives (l ++ ([⟨a, n, true⟩] ++ r)) =
      lives l ++ lives r := by
    intro l r a n
    rw [lives_append, cons_append, lives_cons_free rfl, nil_append]
  by_cases hlast : ∀ u ∈ l.getLast?, u.free = false
  . have hleft := h.not_nextMerged_left ht hlast
    by_cases hhead : ∀ u ∈ r.head?, u.free = false
    . obtain ⟨htiled, hnext⟩ := h.put_alone ht hlast hhead
      refine ⟨_, htiled, hlives .., fun hok => iff_of_true ?_ hleft⟩
      refine hok.mono samePlace_putTile (b := t.addr) ?_ (fun x hx => ?_) hnext
      . rw [frees_append, cons_append, frees_cons_free rfl]
        simp
      . rw [frees_append, frees_cons_live ht] at hx
        rw [frees_append, cons_append, frees_cons_free rfl]
        simp only [mem_append, mem_cons] at hx ⊢
        tauto
    . cases r with
      | nil => exact absurd nofun hhead
      | cons v r =>
        have hv : v.free = true := by simpa using hhead
        obtain ⟨htiled, hnext⟩ := h.put_right ht hv hlast
        refine ⟨_, htiled, ?_, fun hok => iff_of_true ?_ hleft⟩
        . rw [hlives, lives_cons_free hv]
        . unfold NextOk at hok ⊢
          rw [hnext, frees_append, cons_append, frees_cons_free rfl,
            show (p.putTile l t).poolEnd = p.poolEnd from samePlace_putTile.poolEnd]
          rw [frees_append, frees_cons_live ht, frees_cons_free hv] at hok
          split
          . simp
          . next hne =>
            simp only [mem_append, mem_cons] at hok ⊢
            tauto
  . obtain rfl | ⟨l, f, rfl⟩ := l.eq_nil_or_concat
    . exact absurd nofun hlast
    . rw [concat_eq_append] at *
      have hf : f.free = true := by simpa using hlast
      by_cases hhead : ∀ u ∈ r.head?, u.free = false
      . obtain ⟨htiled, hnext⟩ := h.put_left ht hf hhead
        refine ⟨_, htiled, ?_, fun hok => iff_of_true ?_ (h.not_nextMerged_right ht hhead)⟩
        . rw [hlives, lives_append, lives_cons_free hf, lives_nil, append_nil]
        . refine hok.mono samePlace_putTile (b := f.addr) ?_ (fun x hx => ?_) hnext
          . rw [frees_append, cons_append, frees_cons_free rfl]
            simp
          . rw [frees_append, frees_append, frees_cons_free hf, frees_cons_live ht] at hx
            rw [frees_append, cons_append, frees_cons_free rfl]
            simp only [mem_append, mem_cons, frees_nil] at hx ⊢
            tauto
      . cases r with
        | nil => exact absurd nofun hhead
        | cons v r =>
          have hv : v.free = true := by simpa using hhead
          refine ⟨_, (h.put_both ht hf hv).1, ?_, fun hok => h.nextOk_both ht hf hv hok⟩
          rw [hlives, lives_append, lives_cons_free hf, lives_nil, append_nil,
            lives_cons_free hv]

end Tiled

end

end Pool

end MediaPool
