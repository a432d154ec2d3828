import Earphone.MediaPool.Inv

namespace MediaPool

open Chain Tiles List

def taken (t : Tile) (n : Nat) : List Tile :=
  if t.size - n ≥ poolBufferMiniSize then
    [⟨t.addr, n, false⟩, ⟨t.addr + n, t.size - n, true⟩]
  else
    [⟨t.addr, t.size, false⟩]

namespace Pool

section

variable {p : Pool} {addr x v : Nat} {b : Buffer} {f : UInt8}

@[simp]
theorem mem_setBuffer : (p.setBuffer addr b).mem x = if x = addr then b else p.mem x :=
  Function.update_apply ..

@[simp]
theorem mem_setNext : (p.setNext addr v).mem x =
    if x = addr then { p.mem addr with pNext := v } else p.mem x :=
  Function.update_apply ..

@[simp]
theorem mem_setSize : (p.setSize addr v).mem x =
    if x = addr then { p.mem addr with size := v } else p.mem x :=
  Function.update_apply ..

@[simp]
theorem mem_setFlags : (p.setFlags addr f).mem x =
    if x = addr then { p.mem addr with flags := f } else p.mem x :=
  Function.update_apply ..

theorem next_def : p.next x = (p.mem x).pNext := rfl

theorem size_def : p.size x = (p.mem x).size := rfl

end

variable {p : Pool} {ts l r : List Tile} {t : Tile} {n : Nat}

theorem bufSize_dvd : poolBufferAlignSize ∣ bufSize n := by
  unfold bufSize alignDown poolBufferAlignSize poolHdrSize
  split
  . dsimp only
    split <;> omega
  . omega

namespace Tiled

theorem walk_free (h : p.Tiled (l ++ t :: r)) (ht : t.free = true)
    (hbefore : ∀ a ∈ frees l, stop a = false) (hstop : stop t.addr = true) :
    walk p.next stop p.fuel p.poolStart = some (p.prevOf l) ∧ p.next (p.prevOf l) = t.addr := by
  have hlinked := h.linked
  have hlength := h.frees_length
  rw [frees_append, frees_cons_free ht] at hlinked hlength
  rw [length_append, length_cons] at hlength
  have hleft := (Linked.append_iff.mp hlinked).1
  exact ⟨walk_eq hleft hbefore hstop (by omega), hleft.next_last⟩

theorem walk_end (h : p.Tiled ts) (hbefore : ∀ a ∈ frees ts, stop a = false)
    (hstop : stop p.poolEnd = true) :
    walk p.next stop p.fuel p.poolStart = some (p.prevOf ts) ∧ p.next (p.prevOf ts) = p.poolEnd :=
  ⟨walk_eq h.linked hbefore hstop h.frees_length, h.linked.next_last⟩

theorem checkNext_cases (h : p.Tiled ts) (n : Nat) :
    (∃ l t r, ts = l ++ t :: r ∧ t.free = true ∧ n ≤ t.size ∧
      p.checkNext n = some (p, some (p.prevOf l)) ∧ p.next (p.prevOf l) = t.addr) ∨
    p.checkNext n = some (p, none) ∨
    p.checkNext n = some (p.setNextFree 0, none) := by
  unfold checkNext
  split
  . next hnext =>
    by_cases hmem : p.nextFreeBlockAfterGet ∈ frees ts
    . obtain ⟨t, ht, hfree, haddr⟩ := mem_frees.mp hmem
      obtain ⟨l, r, rfl⟩ := append_of_mem ht
      have hnodup := h.contig.frees_nodup
      have hend := h.notMem_frees
      rw [frees_append, frees_cons_free hfree] at hnodup hend
      have hbefore : ∀ a ∈ frees l,
          (a == p.poolEnd || a == p.nextFreeBlockAfterGet) = false := by
        intro a ha
        rw [Bool.or_eq_false_iff, beq_eq_false_iff_ne, beq_eq_false_iff_ne, ← haddr]
        refine ⟨?_, ?_⟩
        . rintro rfl
          exact hend (mem_append_left _ ha)
        . rintro rfl
          exact (nodup_append.mp hnodup).2.2 _ ha _ mem_cons_self rfl
      obtain ⟨hwalk, hcurr⟩ := h.walk_free hfree hbefore (by simp [haddr])
      rw [hwalk]
      simp only [Option.bind_eq_bind, Option.bind_some, hcurr, haddr, true_and]
      have hsize := h.size t ht
      rw [haddr] at hsize
      rw [hsize]
      split
      . next hlt => exact .inl ⟨l, t, r, rfl, hfree, by omega, rfl, hcurr⟩
      . exact .inr (.inr rfl)
    . have hbefore : ∀ a ∈ frees ts,
          (a == p.poolEnd || a == p.nextFreeBlockAfterGet) = false := by
        intro a ha
        rw [Bool.or_eq_false_iff, beq_eq_false_iff_ne, beq_eq_false_iff_ne]
        refine ⟨?_, ?_⟩
        . rintro rfl
          exact h.notMem_frees ha
        . rintro rfl
          exact hmem ha
      obtain ⟨hwalk, hcurr⟩ := h.walk_end hbefore (by simp)
      rw [hwalk]
      simp only [Option.bind_eq_bind, Option.bind_some, hcurr]
      rw [if_neg fun hc => hnext.2 hc.1.symm]
      exact .inr (.inr rfl)
  . exact .inr (.inl rfl)

theorem firstFit_cases (h : p.Tiled ts) (n : Nat) :
    (∃ l t r, ts = l ++ t :: r ∧ t.free = true ∧ n ≤ t.size ∧
      p.firstFit n = some (p.prevOf l) ∧ p.next (p.prevOf l) = t.addr) ∨
    (∀ t ∈ ts, t.free = true → t.size < n) ∧
      ∃ prev, p.firstFit n = some prev ∧ p.next prev = p.poolEnd := by
  have hsmall : ∀ t ∈ ts, t.free = true → t.size < n →
      (!(p.size t.addr < n && p.next t.addr != 0)) = false := by
    intro t ht hfree hlt
    have hne := h.next_ne_zero (mem_frees.mpr ⟨t, ht, hfree, rfl⟩)
    rw [h.size t ht]
    simp [hlt, hne]
  cases hfind : ts.find? fun t => t.free && n ≤ t.size with
  | some t =>
    obtain ⟨hfit, l, r, rfl, hbefore⟩ := find?_eq_some_iff_append.mp hfind
    simp only [Bool.and_eq_true, decide_eq_true_eq] at hfit
    obtain ⟨hfree, hle⟩ := hfit
    have hmem : t ∈ l ++ t :: r := mem_append_right l mem_cons_self
    obtain ⟨hwalk, hcurr⟩ :
        p.firstFit n = some (p.prevOf l) ∧ p.next (p.prevOf l) = t.addr := by
      refine h.walk_free hfree (fun a ha => ?_) ?_
      . obtain ⟨u, hu, hufree, rfl⟩ := mem_frees.mp ha
        refine hsmall u (mem_append_left _ hu) hufree ?_
        have hnot := hbefore u hu
        simp only [hufree, Bool.true_and, Bool.not_eq_true', decide_eq_false_iff_not] at hnot
        omega
      . rw [h.size t hmem]
        simp [Nat.not_lt_of_le hle]
    exact .inl ⟨l, t, r, rfl, hfree, hle, hwalk, hcurr⟩
  | none =>
    rw [find?_eq_none] at hfind
    have hnone : ∀ t ∈ ts, t.free = true → t.size < n := by
      intro t ht hfree
      have hnot := hfind t ht
      simp only [hfree, Bool.true_and, decide_eq_true_eq] at hnot
      omega
    obtain ⟨hwalk, hcurr⟩ :
        p.firstFit n = some (p.prevOf ts) ∧ p.next (p.prevOf ts) = p.poolEnd := by
      refine h.walk_end (fun a ha => ?_) (by simp [h.endNext])
      obtain ⟨u, hu, hufree, rfl⟩ := mem_frees.mp ha
      exact hsmall u hu hufree (hnone u hu hufree)
    exact .inr ⟨hnone, p.prevOf ts, hwalk, hcurr⟩

theorem findPrev_cases (h : p.Tiled ts) (n : Nat) :
    ∃ q, (q = p ∨ q = p.setNextFree 0) ∧
      ((∃ l t r, ts = l ++ t :: r ∧ t.free = true ∧ n ≤ t.size ∧
        p.findPrev n = some (q, q.prevOf l)) ∨
      (∀ t ∈ ts, t.free = true → t.size < n) ∧
        ∃ prev, p.findPrev n = some (q, prev) ∧ q.next prev = q.poolEnd) := by
  -- the search from the start of the list
  have hfirst : ∀ q : Pool, q.Tiled ts → (q = p ∨ q = p.setNextFree 0) →
      p.checkNext n = some (q, none) →
      (∃ l t r, ts = l ++ t :: r ∧ t.free = true ∧ n ≤ t.size ∧
        p.findPrev n = some (q, q.prevOf l)) ∨
      (∀ t ∈ ts, t.free = true → t.size < n) ∧
        ∃ prev, p.findPrev n = some (q, prev) ∧ q.next prev = q.poolEnd := by
    intro q hq hqp hcheck
    have hfind : p.findPrev n = (q.firstFit n).map fun prev => (q, prev) := by
      unfold findPrev
      rw [hcheck]
      simp only [Option.bind_eq_bind, Option.bind_some]
      cases q.firstFit n <;> rfl
    obtain ⟨l, t, r, hts, hfree, hle, hfit, -⟩ | ⟨hnone, prev, hfit, hend⟩ := hq.firstFit_cases n
    . exact .inl ⟨l, t, r, hts, hfree, hle, by rw [hfind, hfit]; rfl⟩
    . exact .inr ⟨hnone, prev, by rw [hfind, hfit]; rfl, hend⟩
  obtain ⟨l, t, r, hts, hfree, hle, hcheck, -⟩ | hcheck | hcheck := h.checkNext_cases n
  . refine ⟨p, .inl rfl, .inl ⟨l, t, r, hts, hfree, hle, ?_⟩⟩
    unfold findPrev
    rw [hcheck]
    rfl
  . exact ⟨p, .inl rfl, hfirst p h (.inl rfl) hcheck⟩
  . exact ⟨p.setNextFree 0, .inr rfl, hfirst _ h.setNextFree (.inr rfl) hcheck⟩

end Tiled

section

variable {prev x : Nat}

@[simp]
theorem mem_setUnused : (p.setUnused n).mem = p.mem := rfl

@[simp]
theorem mem_updateMark : p.updateMark.mem = p.mem := by
  unfold updateMark
  split <;> rfl

theorem updateMark_fields : SamePlace p p.updateMark ∧
    p.updateMark.heapSizeUnused = p.heapSizeUnused ∧
    p.updateMark.heapSizeMark = min p.heapSizeUnused p.heapSizeMark := by
  unfold updateMark
  split
  . next hlt => exact ⟨⟨rfl, rfl, rfl, rfl⟩, rfl, (Nat.min_eq_left (Nat.le_of_lt hlt)).symm⟩
  . next hge => exact ⟨⟨rfl, rfl, rfl, rfl⟩, rfl, (Nat.min_eq_right (Nat.le_of_not_lt hge)).symm⟩

theorem cutBlock_fields : SamePlace p (p.cutBlock prev n) ∧
    (p.cutBlock prev n).heapSizeMark = p.heapSizeMark ∧
    (p.cutBlock prev n).heapSizeUnused = sub32 p.heapSizeUnused
      (if p.size (p.next prev) - n ≥ poolBufferMiniSize then n else
        (p.setNext prev (p.next (p.next prev))).size (p.next prev)) := by
  unfold cutBlock
  dsimp only
  split <;> exact ⟨⟨rfl, rfl, rfl, rfl⟩, rfl, rfl⟩

theorem takeBlock_fields : SamePlace p (p.takeBlock prev n) ∧
    (p.takeBlock prev n).nextFreeBlockAfterGet = (p.takeBlock prev n).next prev ∧
    (p.takeBlock prev n).heapSizeUnused = (p.cutBlock prev n).heapSizeUnused ∧
    (p.takeBlock prev n).heapSizeMark = min (p.takeBlock prev n).heapSizeUnused p.heapSizeMark := by
  obtain ⟨hcut, hmark, -⟩ := @cutBlock_fields p n prev
  obtain ⟨hupdate, hunused, hmin⟩ := @updateMark_fields
    (((p.cutBlock prev n).setNext (p.next prev) 0).setFlags (p.next prev) mediaPoolBufferAllocated)
  refine ⟨⟨?_, ?_, ?_, ?_⟩, rfl, hunused, ?_⟩
  . exact hupdate.poolStart.trans hcut.poolStart
  . exact hupdate.poolEnd.trans hcut.poolEnd
  . exact hupdate.heapAddr.trans hcut.heapAddr
  . exact hupdate.heapSize.trans hcut.heapSize
  . refine hmin.trans ?_
    rw [← hmark]
    exact congrArg₂ min hunused.symm rfl

theorem takeBlock_mem : (p.takeBlock prev n).mem =
    (((p.cutBlock prev n).setNext (p.next prev) 0).setFlags (p.next prev)
      mediaPoolBufferAllocated).mem := mem_updateMark

theorem takeBlock_mem_split (hsplit : p.size (p.next prev) - n ≥ poolBufferMiniSize)
    (hprev : p.next prev ≠ prev) (htmp : p.next prev + n ≠ prev) :
    (p.takeBlock prev n).mem x =
      if x = p.next prev then ⟨0, n, mediaPoolBufferAllocated⟩
      else if x = prev then { p.mem prev with pNext := p.next prev + n }
      else if x = p.next prev + n then
        ⟨p.next (p.next prev), p.size (p.next prev) - n, 0⟩
      else p.mem x := by
  rw [takeBlock_mem]
  unfold cutBlock
  dsimp only
  rw [if_pos hsplit]
  simp only [mem_setFlags, mem_setNext, mem_setUnused, mem_setSize, mem_setBuffer]
  generalize p.next prev = curr at *
  by_cases hx : x = curr
  . simp [hx, hprev]
  . by_cases hxprev : x = prev
    . simp [hxprev, Ne.symm hprev, Ne.symm htmp]
    . simp [hx, hxprev]

theorem takeBlock_mem_whole (hsplit : ¬p.size (p.next prev) - n ≥ poolBufferMiniSize)
    (hprev : p.next prev ≠ prev) : (p.takeBlock prev n).mem x =
      if x = p.next prev then ⟨0, p.size (p.next prev), mediaPoolBufferAllocated⟩
      else if x = prev then { p.mem prev with pNext := p.next (p.next prev) }
      else p.mem x := by
  rw [takeBlock_mem]
  unfold cutBlock
  dsimp only
  rw [if_neg hsplit]
  simp only [mem_setFlags, mem_setNext, mem_setUnused]
  generalize p.next prev = curr at *
  by_cases hx : x = curr
  . simp [hx, hprev, size_def]
  . simp [hx]

theorem sub32_eq (hb : b ≤ a) (ha : a < 2 ^ 16) : sub32 a b = a - b := by
  unfold sub32
  omega

theorem allocated_ne : mediaPoolBufferAllocated &&& mediaPoolBufferAllocated ≠ 0 := by decide

section

variable (h : p.Tiled (l ++ t :: r)) (ht : t.free = true)

include h ht

theorem Tiled.takeBlock_split (hdvd : poolBufferAlignSize ∣ n) (hn : 0 < n)
    (hsplit : t.size - n ≥ poolBufferMiniSize) :
    (p.takeBlock (p.prevOf l) n).Tiled
      (l ++ ([⟨t.addr, n, false⟩, ⟨t.addr + n, t.size - n, true⟩] ++ r)) := by
  have hcurr := h.next_prevOf ht
  have hmem : t ∈ l ++ t :: r := mem_append_right l mem_cons_self
  have hsize := h.size t hmem
  obtain ⟨hl, hpos, hr⟩ := contig_mid.mp h.contig
  have hrle := hr.le
  have hmini : 0 < t.size - n := Nat.lt_of_lt_of_le (by decide) hsplit
  have hprev := h.outside (prevOf_mem (l := l))
  obtain ⟨hcl, hcr, hlast, hhead⟩ := (coalesced_free ht).mp h.coalesced
  obtain ⟨hsame, -, hunused, -⟩ := @takeBlock_fields p n (p.prevOf l)
  obtain ⟨-, -, hcut⟩ := @cutBlock_fields p n (p.prevOf l)
  -- three headers change: the tile, the free block in front of it, the rest that is split off
  have hmem' : ∀ x, (p.takeBlock (p.prevOf l) n).mem x =
      if x = t.addr then ⟨0, n, mediaPoolBufferAllocated⟩
      else if x = p.prevOf l then { p.mem (p.prevOf l) with pNext := t.addr + n }
      else if x = t.addr + n then ⟨p.next t.addr, t.size - n, 0⟩
      else p.mem x := by
    intro x
    rw [takeBlock_mem_split (by rw [hcurr, hsize]; exact hsplit) (by omega) (by omega), hcurr,
      hsize]
  have hfirst : (p.takeBlock (p.prevOf l) n).mem t.addr = ⟨0, n, mediaPoolBufferAllocated⟩ :=
    (hmem' t.addr).trans (if_pos rfl)
  have hq : (p.takeBlock (p.prevOf l) n).mem (p.prevOf l) =
      { p.mem (p.prevOf l) with pNext := t.addr + n } := by
    rw [hmem', if_neg (by omega), if_pos rfl]
  have htmp : (p.takeBlock (p.prevOf l) n).mem (t.addr + n) = ⟨p.next t.addr, t.size - n, 0⟩ := by
    rw [hmem', if_neg (by omega), if_neg (by omega), if_pos rfl]
  have hfrees : frees ([⟨t.addr, n, false⟩, ⟨t.addr + n, t.size - n, true⟩] ++ r) =
      (t.addr + n) :: frees r := by
    rw [cons_append, frees_cons_live rfl, cons_append, frees_cons_free rfl]
    rfl
  have hbefore : ∀ x ∈ p.poolStart :: frees l, x ≠ p.prevOf l →
      (p.takeBlock (p.prevOf l) n).next x = p.next x := by
    intro x hx hne
    have hout := h.outside hx
    rw [next_def, hmem', if_neg (by omega), if_neg hne, if_neg (by omega)]
    rfl
  have hafter : ∀ x ∈ frees r, (p.takeBlock (p.prevOf l) n).next x = p.next x := by
    intro x hx
    have hb := hr.frees_bounds hx
    rw [next_def, hmem', if_neg (by omega), if_neg (by omega), if_neg (by omega)]
    rfl
  have hrest : (t.addr + n) + (t.size - n) = t.addr + t.size := by omega
  refine @Tiled.replace p _ l r t.addr (t.addr + t.size) [t] _ h hsame hl
    ⟨rfl, hn, rfl, hmini, hrest⟩ hr (fun x hx => ?_) ?_ ?_ ?_ (fun u hu => ?_) ?_
  . rw [size_def, hmem', if_neg (by omega)]
    split
    . next heq =>
      rw [heq]
      exact ⟨rfl, rfl⟩
    . rw [if_neg (by omega)]
      exact ⟨rfl, rfl⟩
  . rw [next_def, hmem', if_neg (by omega), if_neg (by omega), if_neg (by omega)]
    rfl
  . have hlinked := h.linked
    rw [frees_append, frees_cons_free ht] at hlinked
    rw [frees_append, hfrees]
    refine hlinked.replace h.nodup_left ?_ ?_ hbefore hafter
    . exact congrArg Buffer.pNext hq
    . rw [next_def, htmp]
  . have hfree : Coalesced ([] ++ (⟨t.addr + n, t.size - n, true⟩ : Tile) :: r) :=
      (coalesced_free rfl).mpr ⟨List.IsChain.nil, hcr, nofun, hhead⟩
    exact (coalesced_live rfl).mpr ⟨hcl, hfree⟩
  . obtain rfl | hu := mem_cons.mp hu
    . refine ⟨congrArg Buffer.size hfirst, hdvd, fun _ => ?_⟩
      dsimp only
      rw [hfirst]
      exact allocated_ne
    . rw [mem_singleton.mp hu]
      exact ⟨congrArg Buffer.size htmp, Nat.dvd_sub (h.sizeAligned t hmem) hdvd, nofun⟩
  . have hlt := h.heapSizeUnused_lt
    have hfreeSize := h.unused
    rw [freeSize_append, freeSize_cons_free ht] at hfreeSize
    rw [hunused, hcut, hcurr, hsize, if_pos hsplit, sub32_eq (by omega) hlt, hfreeSize,
      freeSize_append, cons_append, freeSize_cons_live rfl, cons_append,
      freeSize_cons_free rfl, nil_append]
    dsimp only
    omega

theorem Tiled.takeBlock_whole (hsplit : ¬t.size - n ≥ poolBufferMiniSize) :
    (p.takeBlock (p.prevOf l) n).Tiled (l ++ ([⟨t.addr, t.size, false⟩] ++ r)) := by
  have hcurr := h.next_prevOf ht
  have hmem : t ∈ l ++ t :: r := mem_append_right l mem_cons_self
  have hsize := h.size t hmem
  obtain ⟨hl, hpos, hr⟩ := contig_mid.mp h.contig
  have hrle := hr.le
  have hprev := h.outside (prevOf_mem (l := l))
  obtain ⟨hcl, hcr, -, -⟩ := (coalesced_free ht).mp h.coalesced
  obtain ⟨hsame, -, hunused, -⟩ := @takeBlock_fields p n (p.prevOf l)
  obtain ⟨-, -, hcut⟩ := @cutBlock_fields p n (p.prevOf l)
  have hmem' : ∀ x, (p.takeBlock (p.prevOf l) n).mem x =
      if x = t.addr then ⟨0, t.size, mediaPoolBufferAllocated⟩
      else if x = p.prevOf l then { p.mem (p.prevOf l) with pNext := p.next t.addr }
      else p.mem x := by
    intro x
    rw [takeBlock_mem_whole (by rw [hcurr, hsize]; exact hsplit) (by omega), hcurr, hsize]
  have hfirst : (p.takeBlock (p.prevOf l) n).mem t.addr = ⟨0, t.size, mediaPoolBufferAllocated⟩ :=
    (hmem' t.addr).trans (if_pos rfl)
  have hq : (p.takeBlock (p.prevOf l) n).mem (p.prevOf l) =
      { p.mem (p.prevOf l) with pNext := p.next t.addr } := by
    rw [hmem', if_neg (by omega), if_pos rfl]
  have hbefore : ∀ x ∈ p.poolStart :: frees l, x ≠ p.prevOf l →
      (p.takeBlock (p.prevOf l) n).next x = p.next x := by
    intro x hx hne
    have hout := h.outside hx
    rw [next_def, hmem', if_neg (by omega), if_neg hne]
    rfl
  have hafter : ∀ x ∈ frees r, (p.takeBlock (p.prevOf l) n).next x = p.next x := by
    intro x hx
    have hb := hr.frees_bounds hx
    rw [next_def, hmem', if_neg (by omega), if_neg (by omega)]
    rfl
  refine @Tiled.replace p _ l r t.addr (t.addr + t.size) [t] _ h hsame hl ⟨rfl, hpos, rfl⟩ hr
    (fun x hx => ?_) ?_ ?_ ?_ (fun u hu => ?_) ?_
  . rw [size_def, hmem', if_neg (by omega)]
    split
    . next heq =>
      rw [heq]
      exact ⟨rfl, rfl⟩
    . exact ⟨rfl, rfl⟩
  . rw [next_def, hmem', if_neg (by omega), if_neg (by omega)]
    rfl
  . have hlinked := h.linked
    rw [frees_append, frees_cons_free ht] at hlinked
    rw [frees_append, cons_append, frees_cons_live rfl]
    refine hlinked.unlink h.nodup_left ?_ hbefore hafter
    rw [← prevOf, next_def, hq]
  . exact (coalesced_live rfl).mpr ⟨hcl, hcr⟩
  . rw [mem_singleton.mp hu]
    refine ⟨congrArg Buffer.size hfirst, h.sizeAligned t hmem, fun _ => ?_⟩
    dsimp only
    rw [hfirst]
    exact allocated_ne
  . have hlt := h.heapSizeUnused_lt
    have hfreeSize := h.unused
    have hsame : (p.setNext (p.prevOf l) (p.next t.addr)).size t.addr = t.size := by
      rw [size_def, mem_setNext, if_neg (by omega)]
      exact hsize
    rw [freeSize_append, freeSize_cons_free ht] at hfreeSize
    rw [hunused, hcut, hcurr, hsize, if_neg hsplit, hsame, sub32_eq (by omega) hlt, hfreeSize,
      freeSize_append, cons_append, freeSize_cons_live rfl, nil_append]
    omega

theorem Tiled.takeBlock (hdvd : poolBufferAlignSize ∣ n) (hn : 0 < n) :
    (p.takeBlock (p.prevOf l) n).Tiled (l ++ (taken t n ++ r)) := by
  unfold taken
  split
  . next hsplit => exact h.takeBlock_split ht hdvd hn hsplit
  . next hsplit => exact h.takeBlock_whole ht hsplit

end

end

theorem lives_taken (ht : t.free = true) :
    (lives (l ++ (taken t n ++ r))).Perm (t.addr :: lives (l ++ t :: r)) := by
  have htaken : lives (taken t n) = [t.addr] := by
    unfold taken
    split
    . rw [lives_cons_live rfl, lives_cons_free rfl, lives_nil]
    . rw [lives_cons_live rfl, lives_nil]
  rw [lives_append, lives_append, htaken, lives_append, lives_cons_free ht]
  exact perm_middle

theorem Tiled.mediaBufferGet (h : p.Tiled ts) (size : UInt16) :
    (∃ p', p.mediaBufferGet size = some (p', none) ∧ (p' = p ∨ p' = p.setNextFree 0) ∧
      (0 < bufSize size.toNat → ∀ t ∈ ts, t.free = true → t.size < bufSize size.toNat)) ∨
    ∃ p' l t r n, ts = l ++ t :: r ∧ t.free = true ∧
      (n = bufSize size.toNat ∧ 0 < n ∧ n ≤ t.size) ∧
      p.mediaBufferGet size = some (p', some (t.addr + poolHdrSize)) ∧ SamePlace p p' ∧
      p'.Tiled (l ++ (taken t n ++ r)) ∧
      p'.heapSizeMark = min p'.heapSizeUnused p.heapSizeMark ∧
      (p'.nextFreeBlockAfterGet = p'.poolEnd ∨
        p'.nextFreeBlockAfterGet ∈ frees (l ++ (taken t n ++ r))) := by
  unfold Pool.mediaBufferGet
  dsimp only
  generalize hn : Pool.bufSize size.toNat = n
  have hdvd : poolBufferAlignSize ∣ n := hn ▸ bufSize_dvd
  split
  . next hsize =>
    refine .inl ⟨p, rfl, .inl rfl, fun hpos t ht hfree => ?_⟩
    have hle := size_le_freeSize ht hfree
    have hunused := h.unused
    omega
  . next hsize =>
    obtain ⟨q, hqp, hfound⟩ := h.findPrev_cases n
    have hq : q.Tiled ts ∧ SamePlace p q ∧ q.heapSizeMark = p.heapSizeMark := by
      obtain rfl | rfl := hqp
      . exact ⟨h, ⟨rfl, rfl, rfl, rfl⟩, rfl⟩
      . exact ⟨h.setNextFree, ⟨rfl, rfl, rfl, rfl⟩, rfl⟩
    obtain ⟨hq, hplace, hmark⟩ := hq
    obtain ⟨l, t, r, rfl, hfree, hle, hfind⟩ | ⟨hnone, prev, hfind, hend⟩ := hfound
    . have hcurr := hq.next_prevOf hfree
      have hb := hq.contig.bounds (mem_append_right l mem_cons_self)
      have htaken := hq.takeBlock hfree hdvd (by omega)
      obtain ⟨hsame, hnext, -, hmin⟩ := @takeBlock_fields q n (q.prevOf l)
      refine .inr ⟨q.takeBlock (q.prevOf l) n, l, t, r, n, rfl, hfree, ⟨rfl, by omega, hle⟩, ?_, ?_,
        htaken, ?_, ?_⟩
      . rw [hfind]
        simp only [Option.bind_eq_bind, Option.bind_some, hcurr]
        rw [if_neg (by omega)]
        rfl
      . exact ⟨hsame.poolStart.trans hplace.poolStart, hsame.poolEnd.trans hplace.poolEnd,
          hsame.heapAddr.trans hplace.heapAddr, hsame.heapSize.trans hplace.heapSize⟩
      . rw [hmin, hmark]
      . rw [hnext]
        have hprev : q.prevOf l ∈ (q.takeBlock (q.prevOf l) n).poolStart ::
            frees (l ++ (taken t n ++ r)) := by
          rw [hsame.poolStart, frees_append]
          obtain heq | hmem := mem_cons.mp (prevOf_mem (p := q) (l := l))
          . rw [heq]
            exact mem_cons_self
          . exact mem_cons_of_mem _ (mem_append_left _ hmem)
        exact (htaken.linked.next_mem hprev).symm
    . refine .inl ⟨q, ?_, hqp, fun _ => hnone⟩
      rw [hfind]
      simp only [Option.bind_eq_bind, Option.bind_some]
      rw [if_pos hend]
      rfl

end Pool

end MediaPool
