import Earphone.Bond.LeInv

namespace Bond

open List

namespace LeStore

structure Has (s : LeStore) (i : Nat) : Prop where
  inv : s.Inv
  used : (s.entry i).isUsed = true

section

variable {s t : LeStore} {i : Nat}

theorem lt_of_used (h : (s.entry i).isUsed = true) : i < s.table.length := by
  by_contra hge
  have hentry : s.entry i = .zero := by
    unfold entry
    rw [getD_eq_getElem?_getD, getElem?_eq_none (Nat.le_of_not_lt hge)]
    rfl
  rw [hentry] at h
  exact absurd h (by decide)

theorem Has.lt (h : s.Has i) : i < s.table.length := lt_of_used h.used

theorem Has.idx (h : s.Has i) : (s.entry i).idx = i := h.inv.idx i h.lt h.used

theorem Has.sameRam (h : s.Has i) (hs : SameRam s t) : t.Has i :=
  ⟨h.inv.sameRam hs, by rw [hs.entry]; exact h.used⟩

theorem Has.setEntry (h : s.Has i) (hused : e.isUsed = true) (hidx : e.idx = i)
    (hbd : e.flags.remoteBd = true → i ∈ s.sort) : (s.setEntry i e).Has i := by
  refine ⟨h.inv.setEntry (fun _ => hused) (fun _ => hidx) fun _ => hbd, ?_⟩
  rw [entry_setEntry_self h.lt]
  exact hused

theorem Has.setFlags (h : s.Has i) (hused : e.isUsed = (s.entry i).isUsed)
    (hidx : e.idx = (s.entry i).idx) (hbd : e.flags.remoteBd = (s.entry i).flags.remoteBd) :
    (s.setEntry i e).Has i := by
  refine h.setEntry (hused.trans h.used) (hidx.trans h.idx) fun hflag => ?_
  exact h.inv.queued i h.lt h.used (hbd ▸ hflag)

theorem Has.setHighPriority {idx : Nat} (h : s.Has i) : (s.setHighPriority idx).Has i := by
  refine ⟨h.inv.setHighPriority, ?_⟩
  unfold entry
  rw [setHighPriority_ram.1]
  exact h.used

section

variable (h : s.Has i)

include h

theorem Has.btLeSetBondState : (s.btLeSetBondState i flags).Has i := by
  unfold LeStore.btLeSetBondState
  dsimp only
  split
  . refine Has.sameRam ?_ sameRam_ftlSaveLeRemoteBd
    exact h.setFlags rfl rfl rfl
  . exact h

theorem Has.btLeClearBondState : (s.btLeClearBondState i).Has i := by
  unfold LeStore.btLeClearBondState
  dsimp only
  split
  . refine Has.sameRam ?_ sameRam_ftlSaveLeRemoteBd
    exact h.setFlags rfl rfl rfl
  . exact h

theorem Has.finish : (s.finish i).Has i := h.btLeClearBondState.setFlags rfl rfl rfl

theorem Has.markLocalIrk : (s.markLocalIrk i b).Has i := by
  unfold LeStore.markLocalIrk
  dsimp only
  split
  . exact h.setFlags rfl rfl rfl
  . exact h

theorem Has.saveBond : (s.saveBond i b flags).1.Has i := by
  have hset : (s.setEntry i { s.entry i with bondInfo := b }).Has i := h.setFlags rfl rfl rfl
  have hsaved := hset.sameRam (@sameRam_ftlSaveLeRemoteBd _ b (s.entry i).idx)
  unfold LeStore.saveBond
  dsimp only
  generalize hr : LeStore.ftlSaveLeRemoteBd _ _ _ = r at hsaved ⊢
  split
  . obtain ⟨hinv, hmem⟩ := hsaved.inv.priorityQueueAdd hsaved.lt hsaved.used
    have hadded : (r.1.priorityQueueAdd i).Has i := by
      refine ⟨hinv, ?_⟩
      unfold entry
      rw [priorityQueueAdd_ram.1]
      exact hsaved.used
    rw [h.idx]
    exact hadded.setEntry h.used rfl fun _ => hmem
  . exact hsaved

theorem Has.saveKeyOfType : (s.saveKeyOfType i key).1.Has i := by
  -- the three saves of a key, which leave the bond alone
  have hkey : ∀ {r : LeStore × Nat} {e : LeBondEntry}, SameRam s r.1 →
      e.isUsed = (s.entry i).isUsed → e.idx = (s.entry i).idx →
      e.flags.remoteBd = (s.entry i).flags.remoteBd →
      (if r.2 = 0 then (r.1.setEntry i e, true) else (r.1, false)).1.Has i := by
    intro r e hr hused hidx hbd
    split
    . exact (h.sameRam hr).setFlags (hused.trans (by rw [hr.entry]))
        (hidx.trans (by rw [hr.entry])) (hbd.trans (by rw [hr.entry]))
    . exact h.sameRam hr
  cases key with
  | localLtk keyLength k =>
    unfold LeStore.saveKeyOfType
    dsimp only
    split
    . exact h
    . exact hkey sameRam_ftlSaveLeKey rfl rfl rfl
  | remoteLtk keyLength k =>
    unfold LeStore.saveKeyOfType
    dsimp only
    split
    . exact h
    . exact hkey sameRam_ftlSaveLeKey rfl rfl rfl
  | remoteIrk k addr addrType =>
    unfold LeStore.saveKeyOfType
    dsimp only
    split
    . exact h
    . exact hkey sameRam_ftlSaveLeKey rfl rfl rfl
  | localIrk addr addrType => exact h.saveBond
  | other => exact h

theorem Has.btLeSaveKey : (s.btLeSaveKey i key).1.Has i := by
  have hsaved : (s.saveKeyOfType i key).1.Has i := h.saveKeyOfType
  unfold LeStore.btLeSaveKey
  dsimp only
  generalize s.saveKeyOfType i key = r at hsaved ⊢
  split
  . split
    . exact hsaved.btLeSetBondState
    . exact hsaved.saveBond
  . exact hsaved

theorem Has.updateKey : (s.updateKey i bondExist stored key record).Has i := by
  cases record with
  | none => exact h
  | some record =>
    unfold LeStore.updateKey
    dsimp only
    split
    . exact h
    . exact h.btLeSaveKey

end

theorem sameRam_setCccdData : SameRam s (s.setCccdData idx data alloc) := by
  unfold setCccdData
  dsimp only
  split
  . split
    . split
      . split
        . split <;> exact ⟨rfl, rfl, rfl⟩
        . exact .refl
      . exact ⟨rfl, rfl, rfl⟩
    . exact ⟨rfl, rfl, rfl⟩
  . exact .refl

end

section

variable {s t : LeStore} {i : Nat}

theorem SameRam.ite [Decidable p] (h : SameRam s t) : SameRam s (if p then t else s) := by
  split
  . exact h
  . exact .refl

theorem SameRam.setEntry (h : SameRam s t) : SameRam (s.setEntry i e) (t.setEntry i e) :=
  ⟨congrArg (·.set i e) h.table, h.sort, h.cb⟩

theorem btLeDeleteKeyEntry_ram (hidx : (s.entry i).idx < s.table.length) :
    SameRam (s.setEntry i .zero) (s.btLeDeleteKeyEntry i) := by
  have herr : (s.ftlSaveLeRemoteBd .zero (s.entry i).idx).2 = 0 := by
    unfold ftlSaveLeRemoteBd
    rw [if_neg (by rw [← s.tableSize]; omega)]
  unfold btLeDeleteKeyEntry
  dsimp only
  rw [if_neg (by rw [herr]; simp)]
  refine SameRam.setEntry (SameRam.trans ?_ sameRam_setFlash)
  refine SameRam.trans ?_ (SameRam.ite sameRam_ftlSaveLeKey)
  refine SameRam.trans ?_ (SameRam.ite sameRam_ftlSaveLeKey)
  refine SameRam.trans ?_ (SameRam.ite sameRam_ftlSaveLeKey)
  exact sameRam_ftlSaveLeRemoteBd

theorem Has.remove (h : s.Has i) (htable : t.table = s.table.set i .zero)
    (hsort : t.sort = s.sort.erase i) : t.Inv ∧ t.entry i = .zero := by
  have hentry : ∀ j, t.entry j = (s.setEntry i .zero).entry j := fun j => by
    unfold entry
    rw [htable]
    rfl
  have hzero : t.entry i = .zero := (hentry i).trans (entry_setEntry_self h.lt)
  have hne : ∀ j, (t.entry j).isUsed = true → j ≠ i := by
    rintro j hj rfl
    rw [hzero] at hj
    exact absurd hj (by decide)
  refine ⟨⟨?_, fun j hj => ?_, fun j hj hju hjf => ?_, fun j hj hju => ?_⟩, hzero⟩
  . rw [hsort]
    exact h.inv.nodup.erase i
  . rw [hsort, h.inv.nodup.mem_erase_iff] at hj
    rw [hentry, entry_setEntry_ne hj.1, htable, length_set]
    exact h.inv.used j hj.2
  . have hji := hne j hju
    rw [htable, length_set] at hj
    rw [hentry, entry_setEntry_ne hji] at hju hjf
    rw [hsort, h.inv.nodup.mem_erase_iff]
    exact ⟨hji, h.inv.queued j hj hju hjf⟩
  . have hji := hne j hju
    rw [htable, length_set] at hj
    rw [hentry, entry_setEntry_ne hji] at hju ⊢
    exact h.inv.idx j hj hju

theorem Has.delete (h : s.Has i) :
    let t := (s.priorityQueueDelete (s.entry i).idx).btLeDeleteKeyEntry i
    t.Inv ∧ t.entry i = .zero ∧ t.table.length = s.table.length := by
  obtain ⟨htable, hsort, -⟩ := @priorityQueueDelete_ram s (s.entry i).idx
  have hentry : (s.priorityQueueDelete (s.entry i).idx).entry i = s.entry i := by
    rw [entry, htable, ← entry]
  have hram := btLeDeleteKeyEntry_ram (s := s.priorityQueueDelete (s.entry i).idx) (i := i)
    (by rw [hentry, htable, h.idx]; exact h.lt)
  have hset : ((s.priorityQueueDelete (s.entry i).idx).btLeDeleteKeyEntry i).table =
      s.table.set i .zero := by
    rw [hram.table, ← htable]
    rfl
  obtain ⟨hinv, hzero⟩ := h.remove hset (by rw [hram.sort, setEntry_sort, hsort, h.idx])
  exact ⟨hinv, hzero, by rw [hset, length_set]⟩

theorem Has.btLeDeleteBond (h : s.Has i) : (s.btLeDeleteBond i).Inv := by
  unfold LeStore.btLeDeleteBond
  split
  . exact h.inv
  . exact h.delete.1

theorem deleteUsed_ram {n : Nat} (hidx : ∀ j, (s.entry j).isUsed = true → (s.entry j).idx = j) :
    (∀ j, i ≤ j → j < i + n → ((s.deleteUsed i n).entry j).isUsed = false) ∧
      (∀ j < i, (s.deleteUsed i n).entry j = s.entry j) ∧
      (s.deleteUsed i n).table.length = s.table.length := by
  induction n generalizing s i with
  | zero => exact ⟨fun j hle hlt => absurd hlt (by omega), fun j _ => rfl, rfl⟩
  | succ n ih =>
    rw [deleteUsed]
    generalize ht : (if (s.entry i).isUsed then s.btLeDeleteKeyEntry i else s) = t
    -- one round leaves entry `i` unused and the others as they are
    have hround : (t.entry i).isUsed = false ∧ (∀ j, j ≠ i → t.entry j = s.entry j) ∧
        t.table.length = s.table.length := by
      rw [← ht]
      split
      . next hused =>
        have hlt := lt_of_used hused
        have hram := btLeDeleteKeyEntry_ram (s := s) (i := i) (by rw [hidx i hused]; exact hlt)
        refine ⟨?_, fun j hj => ?_, ?_⟩
        . rw [hram.entry, entry_setEntry_self hlt]
          rfl
        . rw [hram.entry, entry_setEntry_ne hj]
        . rw [hram.table]
          exact setEntry_length
      . next hused => exact ⟨by simpa using hused, fun j _ => rfl, rfl⟩
    obtain ⟨hunused, hother, hlength⟩ := hround
    have hidx' : ∀ j, (t.entry j).isUsed = true → (t.entry j).idx = j := by
      intro j hj
      have hji : j ≠ i := by
        rintro rfl
        rw [hunused] at hj
        cases hj
      rw [hother j hji] at hj ⊢
      exact hidx j hj
    obtain ⟨hafter, hbefore, hlen⟩ := @ih t (i + 1) hidx'
    refine ⟨fun j hle hlt => ?_, fun j hj => ?_, hlen.trans hlength⟩
    . by_cases hji : j = i
      . rw [hji, hbefore i (by omega)]
        exact hunused
      . exact hafter j (by omega) (by omega)
    . rw [hbefore j (by omega), hother j (by omega)]

theorem inv_of_unused (hsort : s.sort = []) (h : ∀ j < s.table.length, (s.entry j).isUsed = false) :
    s.Inv := by
  refine ⟨by rw [hsort]; exact nodup_nil, fun j hj => ?_, fun j hj hju => ?_,
    fun j hj hju => ?_⟩
  . rw [hsort] at hj
    cases hj
  . rw [h j hj] at hju
    cases hju
  . rw [h j hj] at hju
    cases hju

theorem Inv.btLeClearAllKeys (h : s.Inv) : s.btLeClearAllKeys.Inv := by
  unfold LeStore.btLeClearAllKeys
  split
  . exact h
  . obtain ⟨hunused, -, hlen⟩ := @deleteUsed_ram s 0 s.table.length
      fun j hj => h.idx j (lt_of_used hj) hj
    obtain ⟨htable, hsort, -⟩ := @priorityQueueClear_ram (s.deleteUsed 0 s.table.length)
    refine inv_of_unused hsort fun j hj => ?_
    rw [htable, hlen] at hj
    rw [entry, htable, ← entry]
    exact hunused j (Nat.zero_le j) (by omega)

end

section

variable {s t : LeStore} {i : Nat}

@[simp]
theorem isUsed_updateIdentityAddr {e : LeBondEntry} : e.updateIdentityAddr.isUsed = e.isUsed := by
  unfold LeBondEntry.updateIdentityAddr
  split <;> rfl

@[simp]
theorem idx_updateIdentityAddr {e : LeBondEntry} : e.updateIdentityAddr.idx = e.idx := by
  unfold LeBondEntry.updateIdentityAddr
  split <;> rfl

@[simp]
theorem flags_updateIdentityAddr {e : LeBondEntry} : e.updateIdentityAddr.flags = e.flags := by
  unfold LeBondEntry.updateIdentityAddr
  split <;> rfl

theorem Inv.take {e : LeBondEntry} (h : s.Inv) (hlt : i < s.table.length)
    (hfree : (s.entry i).isUsed = false) (hused : e.isUsed = true) (hidx : e.idx = i)
    (hflags : e.flags = .none) : (s.setEntry i e.updateIdentityAddr).Has i := by
  have hnot : i ∉ s.sort := fun hmem => by
    rw [(h.used i hmem).2] at hfree
    cases hfree
  refine ⟨h.setEntry (fun hmem => absurd hmem hnot) (fun _ => ?_) fun _ hbd => ?_, ?_⟩
  . rw [idx_updateIdentityAddr, hidx]
  . rw [flags_updateIdentityAddr, hflags] at hbd
    cases hbd
  . rw [entry_setEntry_self hlt, isUsed_updateIdentityAddr, hused]

theorem searchUnused_free (h : s.searchUnused ≠ s.table.length) :
    s.searchUnused < s.table.length ∧ (s.entry s.searchUnused).isUsed = false := by
  have hlt : s.searchUnused < s.table.length := Nat.lt_of_le_of_ne findIdx_le_length h
  refine ⟨hlt, ?_⟩
  have hfound := findIdx_getElem (w := hlt)
  unfold entry
  rw [getD_eq_getElem?_getD, getElem?_eq_getElem hlt]
  unfold searchUnused
  simpa using hfound

def Found (r : LeStore × Option Nat) : Prop := r.1.Inv ∧ ∀ i, r.2 = some i → r.1.Has i

theorem Has.found (h : s.Has i) : Found (s, some i) := ⟨h.inv, by rintro j ⟨⟩; exact h⟩

theorem Inv.found (h : s.Inv) : Found (s, none) := ⟨h, nofun⟩

theorem Inv.btLeAllocateKeyEntry {bdAddr : BdAddr} {bdType localBdType : UInt8}
    {localBd : Option BdAddr} {resolved : Option (BdAddr × UInt8)} (h : s.Inv) :
    Found (s.btLeAllocateKeyEntry bdAddr bdType localBd localBdType resolved) := by
  unfold LeStore.btLeAllocateKeyEntry
  dsimp only
  split
  . exact h.found
  . next hne =>
    obtain ⟨hlt, hfree⟩ := searchUnused_free hne
    exact (h.take hlt hfree rfl rfl rfl).found

theorem Inv.takeEntry {b : BondInfo} (h : s.Inv) (hne : s.searchUnused ≠ s.table.length) :
    (s.takeEntry s.searchUnused b).Has s.searchUnused := by
  obtain ⟨hlt, hfree⟩ := searchUnused_free hne
  exact h.take hlt hfree rfl rfl rfl

theorem Inv.sendFull (h : s.Inv) : (s.sendFull deleted).Inv := by
  induction deleted generalizing s with
  | nil => exact h
  | cons i is ih =>
    rw [LeStore.sendFull]
    apply ih
    split
    . next hused => exact Has.btLeDeleteBond ⟨h, hused⟩
    . exact h

theorem Inv.getLowPriority (h : s.Inv) (hlow : s.btLeGetLowPriorityBond = some low) :
    s.Has low ∧ s.cb.cfg.gapBondManager = false := by
  unfold btLeGetLowPriorityBond at hlow
  split at hlow
  . cases hlow
  . next hmanager =>
    refine ⟨⟨h, ?_⟩, by simpa using hmanager⟩
    split at hlow
    . next idx hidx =>
      split at hlow
      . cases hlow
        exact (h.used _ (mem_of_mem_head? hidx)).2
      . cases hlow
    . cases hlow

theorem Inv.btLeDevInfoAllocate {b : BondInfo} {deleted : List Nat} (h : s.Inv) :
    Found (s.btLeDevInfoAllocate b deleted) := by
  unfold LeStore.btLeDevInfoAllocate
  dsimp only
  split
  . next hne => exact (h.takeEntry hne).found
  . split
    . split
      . next hne => exact (h.sendFull.takeEntry hne).found
      . exact h.sendFull.found
    . split
      . next low hlow =>
        obtain ⟨hhas, hmanager⟩ := h.getLowPriority hlow
        obtain ⟨hinv, hzero, hlength⟩ := hhas.delete
        have hdelete : s.btLeDeleteBond low =
            (s.priorityQueueDelete (s.entry low).idx).btLeDeleteKeyEntry low := by
          unfold LeStore.btLeDeleteBond
          rw [if_neg (by rw [hmanager]; decide)]
        rw [hdelete]
        refine Has.found (hinv.take ?_ ?_ rfl ?_ rfl)
        . rw [hlength]
          exact hhas.lt
        . rw [hzero]
          rfl
        . exact hhas.idx
      . exact h.found

theorem used_of_find (hfind : s.btLeDevInfoFind b = some i) : (s.entry i).isUsed = true := by
  unfold btLeDevInfoFind at hfind
  split at hfind
  . cases hfind
  . obtain ⟨hlt, hmatch, -⟩ := findIdx?_eq_some_iff_getElem.mp hfind
    unfold entry
    rw [getD_eq_getElem?_getD, getElem?_eq_getElem hlt]
    simp only [Bool.and_eq_true] at hmatch
    exact hmatch.1.1.1.1

theorem Inv.findOrAllocate (h : s.Inv) : Found (s.findOrAllocate b deleted) := by
  unfold LeStore.findOrAllocate
  split
  . next i hfind => exact Has.found ⟨h, used_of_find hfind⟩
  . exact h.btLeDevInfoAllocate

theorem Has.updateKeys (h : s.Has i) : (s.updateKeys i bondExist info).Has i :=
  h.updateKey.updateKey.updateKey

theorem sameRam_setRecords : SameRam s (s.setRecords idx info alloc) := by
  obtain ⟨localLtk, remoteLtk, remoteIrk, cccd, features⟩ := info
  cases cccd with
  | none =>
    cases features with
    | none => exact .refl
    | some _ => exact SameRam.ite sameRam_setFlash
  | some _ =>
    cases features with
    | none => exact sameRam_setCccdData
    | some _ => exact sameRam_setCccdData.trans (SameRam.ite sameRam_setFlash)

theorem Inv.btLeDevInfoPreSet {b : BondInfo} {keyLength : UInt8} {key : List UInt8}
    {deleted : List Nat} (h : s.Inv) : (s.btLeDevInfoPreSet b keyLength key deleted).Inv := by
  unfold LeStore.btLeDevInfoPreSet
  split
  . exact h
  . have hfound : Found (s.findOrAllocate b deleted) := h.findOrAllocate
    split
    . next t ht =>
      rw [ht] at hfound
      exact hfound.1
    . next t i ht =>
      rw [ht] at hfound
      exact (hfound.2 i rfl).markLocalIrk.btLeSaveKey.setHighPriority.finish.inv

theorem Inv.btLeDevInfoSet (h : s.Inv) : (s.btLeDevInfoSet b info deleted alloc).Inv := by
  unfold LeStore.btLeDevInfoSet
  dsimp only
  split
  . exact h
  . have hfound : Found (s.findOrAllocate b deleted) := h.findOrAllocate
    split
    . next t ht =>
      rw [ht] at hfound
      exact hfound.1
    . next t i ht =>
      rw [ht] at hfound
      have hkeys : ((t.markLocalIrk i b).updateKeys i (s.btLeDevInfoFind b).isSome info).Has i :=
        (hfound.2 i rfl).markLocalIrk.updateKeys
      exact (hkeys.sameRam sameRam_setRecords).finish.inv

theorem Inv.btLeDevInfoRemove (h : s.Inv) : (s.btLeDevInfoRemove b).Inv := by
  unfold LeStore.btLeDevInfoRemove
  split
  . next i hfind => exact (Has.delete ⟨h, used_of_find hfind⟩).1
  . exact h

end

end LeStore

end Bond
