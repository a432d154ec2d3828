import Earphone.Bond.Le
import Mathlib.Data.List.Perm.Subperm

namespace Bond

open List

namespace LeStore

structure Agrees (s : LeStore) : Prop where
  nodup : s.sort.Nodup
  bondNum : s.sort.length ≤ s.cb.cfg.maxLePairedDevice
  used : ∀ i ∈ s.sort, i < s.table.length ∧ (s.entry i).isUsed = true
  queued : ∀ i < s.table.length, (s.entry i).isUsed = true → (s.entry i).flags.remoteBd = true →
    i ∈ s.sort

structure Inv (s : LeStore) : Prop where
  nodup : s.sort.Nodup
  used : ∀ i ∈ s.sort, i < s.table.length ∧ (s.entry i).isUsed = true
  queued : ∀ i < s.table.length, (s.entry i).isUsed = true → (s.entry i).flags.remoteBd = true →
    i ∈ s.sort
  idx : ∀ i < s.table.length, (s.entry i).isUsed = true → (s.entry i).idx = i

section

variable {s t : LeStore} {i j : Nat} {e : LeBondEntry} {flash : Flash}

theorem entry_setEntry_self (h : i < s.table.length) : (s.setEntry i e).entry i = e := by
  simp [entry, setEntry, getD_eq_getElem?_getD, getElem?_set_self h]

theorem entry_setEntry_ne (h : j ≠ i) : (s.setEntry i e).entry j = s.entry j := by
  simp [entry, setEntry, getD_eq_getElem?_getD, getElem?_set_ne (Ne.symm h)]

@[simp]
theorem setEntry_length : (s.setEntry i e).table.length = s.table.length := List.length_set

@[simp]
theorem setEntry_sort : (s.setEntry i e).sort = s.sort := rfl

@[simp]
theorem setEntry_cb : (s.setEntry i e).cb = s.cb := rfl

structure SameRam (s t : LeStore) : Prop where
  table : t.table = s.table
  sort : t.sort = s.sort
  cb : t.cb = s.cb

theorem SameRam.refl : SameRam s s := ⟨rfl, rfl, rfl⟩

theorem SameRam.trans (h : SameRam s t) (h' : SameRam t u) : SameRam s u :=
  ⟨h'.table.trans h.table, h'.sort.trans h.sort, h'.cb.trans h.cb⟩

theorem SameRam.entry (h : SameRam s t) (i : Nat) : t.entry i = s.entry i := by
  unfold LeStore.entry
  rw [h.table]

theorem sameRam_setFlash : SameRam s (s.setFlash flash) := ⟨rfl, rfl, rfl⟩

theorem sameRam_ftlSaveLeRemoteBd {b : BondInfo} {idx : Nat} :
    SameRam s (s.ftlSaveLeRemoteBd b idx).1 := by
  unfold ftlSaveLeRemoteBd
  split
  . exact .refl
  . exact sameRam_setFlash

theorem sameRam_ftlSaveLeKey : SameRam s (s.ftlSaveLeKey bit offset data idx).1 := by
  unfold ftlSaveLeKey
  split
  . exact .refl
  . split
    . exact .refl
    . exact sameRam_setFlash

theorem Inv.sameRam (h : s.Inv) (hs : SameRam s t) : t.Inv := by
  refine ⟨?_, ?_, ?_, ?_⟩
  . rw [hs.sort]
    exact h.nodup
  . simp only [hs.sort, hs.table, hs.entry]
    exact h.used
  . simp only [hs.sort, hs.table, hs.entry]
    exact h.queued
  . simp only [hs.table, hs.entry]
    exact h.idx

theorem Inv.agrees (h : s.Inv) : s.Agrees := by
  refine ⟨h.nodup, ?_, h.used, h.queued⟩
  have hsub : s.sort ⊆ List.range s.table.length := fun i hi =>
    mem_range.mpr (h.used i hi).1
  have hle := (h.nodup.subperm hsub).length_le
  rwa [length_range, s.tableSize] at hle

theorem Inv.length_ne (h : s.Inv) (hi : i < s.table.length) (hnot : i ∉ s.sort) :
    s.sort.length ≠ s.cb.cfg.maxLePairedDevice := by
  have hsub : s.sort ⊆ (List.range s.table.length).erase i := fun j hj => by
    rw [nodup_range.mem_erase_iff]
    exact ⟨fun hji => hnot (hji ▸ hj), mem_range.mpr (h.used j hj).1⟩
  have hle := (h.nodup.subperm hsub).length_le
  rw [length_erase_of_mem (mem_range.mpr hi), length_range, s.tableSize] at hle
  rw [s.tableSize] at hi
  omega

theorem Inv.setEntry (h : s.Inv) (hused : i ∈ s.sort → e.isUsed = true)
    (hidx : e.isUsed = true → e.idx = i)
    (hbd : e.isUsed = true → e.flags.remoteBd = true → i ∈ s.sort) : (s.setEntry i e).Inv := by
  refine ⟨h.nodup, fun j hj => ?_, fun j hj hju hjf => ?_, fun j hj hju => ?_⟩
  . obtain ⟨hlt, hju⟩ := h.used j hj
    refine ⟨by rwa [setEntry_length], ?_⟩
    by_cases hji : j = i
    . rw [hji, entry_setEntry_self (hji ▸ hlt)]
      exact hused (hji ▸ hj)
    . rwa [entry_setEntry_ne hji]
  . rw [setEntry_length] at hj
    by_cases hji : j = i
    . rw [hji, entry_setEntry_self (hji ▸ hj)] at hju hjf
      rw [hji]
      exact hbd hju hjf
    . rw [entry_setEntry_ne hji] at hju hjf
      exact h.queued j hj hju hjf
  . rw [setEntry_length] at hj
    by_cases hji : j = i
    . rw [hji, entry_setEntry_self (hji ▸ hj)] at hju ⊢
      exact hidx hju
    . rw [entry_setEntry_ne hji] at hju ⊢
      exact h.idx j hj hju

end

section

variable {s : LeStore} {i idx : Nat}

theorem priorityQueueAdd_ram : (s.priorityQueueAdd idx).table = s.table ∧
    (s.priorityQueueAdd idx).sort = (s.sort.queueAdd s.cb.cfg.maxLePairedDevice idx).1 ∧
    (s.priorityQueueAdd idx).cb = s.cb := by
  unfold priorityQueueAdd
  dsimp only
  split <;> exact ⟨rfl, rfl, rfl⟩

theorem priorityQueueDelete_ram : (s.priorityQueueDelete idx).table = s.table ∧
    (s.priorityQueueDelete idx).sort = s.sort.erase idx ∧
    (s.priorityQueueDelete idx).cb = s.cb := by
  unfold priorityQueueDelete
  rw [BondPriority.queueDelete_eq]
  dsimp only
  split
  . exact ⟨rfl, rfl, rfl⟩
  . next hnot => exact ⟨rfl, (erase_of_not_mem (by simpa using hnot)).symm, rfl⟩

theorem setHighPriority_ram : (s.setHighPriority idx).table = s.table ∧
    (s.setHighPriority idx).sort = (s.sort.setHighPriority idx).1 ∧
    (s.setHighPriority idx).cb = s.cb := by
  unfold setHighPriority
  dsimp only
  split <;> exact ⟨rfl, rfl, rfl⟩

theorem priorityQueueClear_ram : s.priorityQueueClear.table = s.table ∧
    s.priorityQueueClear.sort = [] ∧ s.priorityQueueClear.cb = s.cb := by
  unfold priorityQueueClear
  split
  . next h => exact ⟨rfl, h, rfl⟩
  . exact ⟨rfl, rfl, rfl⟩

theorem Inv.setSort (h : s.Inv) {t : LeStore} (htable : t.table = s.table) (hnodup : t.sort.Nodup)
    (hsub : ∀ j ∈ s.sort, j ∈ t.sort)
    (hused : ∀ j ∈ t.sort, j ∈ s.sort ∨ j < s.table.length ∧ (s.entry j).isUsed = true) :
    t.Inv := by
  have hentry : ∀ j, t.entry j = s.entry j := fun j => by rw [entry, htable, entry]
  refine ⟨hnodup, fun j hj => ?_, fun j hj hju hjf => ?_, fun j hj hju => ?_⟩
  . rw [htable, hentry]
    exact (hused j hj).elim (h.used j) id
  . rw [htable] at hj
    rw [hentry] at hju hjf
    exact hsub j (h.queued j hj hju hjf)
  . rw [htable] at hj
    rw [hentry] at hju ⊢
    exact h.idx j hj hju

theorem Inv.priorityQueueAdd (h : s.Inv) (hi : i < s.table.length)
    (hused : (s.entry i).isUsed = true) :
    (s.priorityQueueAdd i).Inv ∧ i ∈ (s.priorityQueueAdd i).sort := by
  obtain ⟨htable, hsort, -⟩ := @priorityQueueAdd_ram s i
  by_cases hmem : i ∈ s.sort
  . rw [BondPriority.queueAdd_mem hmem] at hsort
    have hiff := fun j => @BondPriority.mem_raise s.sort i h.nodup j
    refine ⟨h.setSort htable ?_ (fun j hj => ?_) fun j hj => ?_, ?_⟩
    . rw [hsort]
      exact BondPriority.nodup_raise h.nodup
    . rw [hsort, hiff]
      exact .inr hj
    . rw [hsort, hiff] at hj
      obtain rfl | hj := hj
      . exact .inl hmem
      . exact .inl hj
    . rw [hsort, hiff]
      exact .inl rfl
  . rw [BondPriority.queueAdd_not_mem hmem (h.length_ne hi hmem)] at hsort
    refine ⟨h.setSort htable ?_ (fun j hj => ?_) fun j hj => ?_, ?_⟩
    . rw [hsort, nodup_append]
      refine ⟨h.nodup, nodup_singleton i, fun x hx y hy => ?_⟩
      rw [mem_singleton.mp hy]
      rintro rfl
      exact hmem hx
    . rw [hsort]
      exact mem_append_left _ hj
    . rw [hsort] at hj
      obtain hj | hj := mem_append.mp hj
      . exact .inl hj
      . rw [mem_singleton.mp hj]
        exact .inr ⟨hi, hused⟩
    . rw [hsort]
      exact mem_append_right _ (mem_singleton_self i)

theorem Inv.setHighPriority (h : s.Inv) : (s.setHighPriority idx).Inv := by
  obtain ⟨htable, hsort, -⟩ := @setHighPriority_ram s idx
  by_cases hmem : idx ∈ s.sort
  . rw [BondPriority.setHighPriority_mem hmem] at hsort
    have hiff := fun j => @BondPriority.mem_raise s.sort idx h.nodup j
    refine h.setSort htable ?_ (fun j hj => ?_) fun j hj => ?_
    . rw [hsort]
      exact BondPriority.nodup_raise h.nodup
    . rw [hsort, hiff]
      exact .inr hj
    . rw [hsort, hiff] at hj
      obtain rfl | hj := hj
      . exact .inl hmem
      . exact .inl hj
  . rw [BondPriority.setHighPriority_not_mem hmem] at hsort
    refine h.setSort htable ?_ (fun j hj => ?_) fun j hj => ?_
    . rw [hsort]
      exact h.nodup
    . rw [hsort]
      exact hj
    . rw [hsort] at hj
      exact .inl hj

end

end LeStore

end Bond
