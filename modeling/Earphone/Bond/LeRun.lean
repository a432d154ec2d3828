import Earphone.Bond.LeOps

namespace Bond

open List

namespace LeStore

section

variable (s : LeStore)

structure Fresh (s : LeStore) : Prop where
  table : ∀ i, s.entry i = .zero
  sort : s.sort = []

def Stored (i : Nat) : Prop :=
  ((s.ftlLoadLeRemoteBd i).getD .zero).bondFlag &&& leBondExistBit ≠ 0
  deriving Decidable

def loaded (i : Nat) : LeBondEntry × Bool := s.btLeKeyEntryInit { LeBondEntry.zero with idx := i }

def firstRefused : Nat := (List.range s.table.length).findIdx fun i => !(s.loaded i).2

def InitClean : Prop := s.firstRefused < s.table.length → ∀ i < s.firstRefused, ¬s.Stored i

instance : Decidable s.InitClean := inferInstanceAs (Decidable (_ → _))

def flashSort : BondPriority :=
  match s.ftlLoadBondPriority with
  | none => []
  | some (bondNum, bondIdx) => bondIdx.take bondNum

def flashBondNum : Nat := (s.ftlLoadBondPriority.map Prod.fst).getD 0

structure FlashConsistent : Prop where
  bondNum : s.flashBondNum ≤ 19
  nodup : s.flashSort.Nodup
  stored : ∀ i ∈ s.flashSort, i < s.table.length ∧ s.Stored i
  queued : ∀ i < s.table.length, s.Stored i → i ∈ s.flashSort

instance : Decidable s.FlashConsistent :=
  decidable_of_iff (s.flashBondNum ≤ 19 ∧ s.flashSort.Nodup ∧
      (∀ i ∈ s.flashSort, i < s.table.length ∧ s.Stored i) ∧
      ∀ i < s.table.length, s.Stored i → i ∈ s.flashSort)
    ⟨fun h => ⟨h.1, h.2.1, h.2.2.1, h.2.2.2⟩, fun h => ⟨h.bondNum, h.nodup, h.stored, h.queued⟩⟩

variable {s} {t : LeStore} {i n : Nat}

theorem loaded_spec (i : Nat) :
    (s.loaded i).1.idx = i ∧ ((s.loaded i).1.isUsed = true ↔ s.Stored i) ∧
      (s.Stored i → (s.loaded i).1.flags.remoteBd = true) ∧
      ((s.loaded i).2 = false → s.Stored i) := by
  unfold loaded Stored btLeKeyEntryInit
  dsimp only [LeBondEntry.zero]
  generalize (s.ftlLoadLeRemoteBd i).getD .zero = b
  split
  . next hflag => simp [hflag]
  . next hflag =>
    split
    . simp [hflag]
    . split
      . simp [hflag]
      . split
        . simp [hflag]
        . split <;> simp [hflag]

theorem cleanUp_unused (h : (s.entry i).isUsed = false) : s.cleanUp i n = s := by
  induction n with
  | zero => rfl
  | succ n ih =>
    rw [cleanUp, if_neg (by rw [h]; decide)]
    exact ih

theorem cleanUp_ram (hused : (s.entry i).isUsed = true) (hidx : (s.entry i).idx = i) :
    SameRam (s.setEntry i .zero) (s.cleanUp i (n + 1)) := by
  have hlt := lt_of_used hused
  have hram := btLeDeleteKeyEntry_ram (s := s) (i := i) (by rwa [hidx])
  rw [cleanUp, if_pos hused, cleanUp_unused]
  . exact hram
  . rw [hram.entry, entry_setEntry_self hlt]
    rfl

theorem initEntries_ram {k : Nat} (hlength : i + n = s.table.length) (hle : i ≤ k)
    (haccepted : ∀ j, i ≤ j → j < k → (s.loaded j).2 = true)
    (hend : k = s.table.length ∨ k < s.table.length ∧ (s.loaded k).2 = false)
    (hzero : ∀ j, i ≤ j → s.entry j = .zero) :
    (∀ j, (s.initEntries i n).entry j = if i ≤ j ∧ j < k then (s.loaded j).1 else s.entry j) ∧
      (s.initEntries i n).sort = (if k = s.table.length then s.sort else []) ∧
      (s.initEntries i n).table.length = s.table.length := by
  induction n generalizing s i with
  | zero =>
    have hk : k = s.table.length := by omega
    refine ⟨fun j => ?_, ?_, rfl⟩
    . rw [if_neg (by omega)]
      rfl
    . rw [if_pos hk]
      rfl
  | succ n ih =>
    have hlt : i < s.table.length := by omega
    have hloaded : s.btLeKeyEntryInit { s.entry i with idx := i } = s.loaded i := by
      rw [hzero i (Nat.le_refl i)]
      rfl
    rw [initEntries]
    dsimp only
    rw [hloaded]
    by_cases hik : i = k
    . -- the entry is refused
      obtain ⟨-, hrefused⟩ := hend.resolve_left (by omega)
      rw [← hik] at hrefused
      rw [if_neg (by rw [hrefused]; decide)]
      obtain ⟨hidx, hused, -, hstored⟩ := s.loaded_spec i
      have hself : (s.setEntry i (s.loaded i).1).entry i = (s.loaded i).1 := entry_setEntry_self hlt
      have hram := cleanUp_ram (s := s.setEntry i (s.loaded i).1) (i := i) (n := i)
        (by rw [hself]; exact hused.mpr (hstored hrefused)) (by rw [hself]; exact hidx)
      obtain ⟨htable, hsort, -⟩ :=
        @priorityQueueClear_ram ((s.setEntry i (s.loaded i).1).cleanUp i (i + 1))
      refine ⟨fun j => ?_, ?_, ?_⟩
      . rw [if_neg (by omega), entry, htable, ← entry, hram.entry]
        by_cases hji : j = i
        . rw [hji, entry_setEntry_self (by rw [setEntry_length]; exact hlt),
            hzero i (Nat.le_refl i)]
        . rw [entry_setEntry_ne hji, entry_setEntry_ne hji]
      . rw [hsort, if_neg (by omega)]
      . rw [htable, hram.table]
        exact (setEntry_length).trans setEntry_length
    . rw [if_pos (haccepted i (Nat.le_refl i) (by omega))]
      obtain ⟨hentry, hsort, hlen⟩ := @ih (s.setEntry i (s.loaded i).1) (i + 1)
        (by rw [setEntry_length]; omega) (by omega) (fun j hj hjk => haccepted j (by omega) hjk)
        (by rw [setEntry_length]; exact hend)
        (fun j hj => by rw [entry_setEntry_ne (by omega)]; exact hzero j (by omega))
      rw [setEntry_length] at hsort hlen
      refine ⟨fun j => ?_, hsort, hlen⟩
      rw [hentry]
      by_cases hji : j = i
      . rw [hji, if_neg (by omega), if_pos (by omega), entry_setEntry_self hlt]
      . rw [entry_setEntry_ne hji]
        exact if_congr (by omega) rfl rfl

theorem firstRefused_spec :
    (∀ j < s.firstRefused, (s.loaded j).2 = true) ∧
      (s.firstRefused = s.table.length ∨
        s.firstRefused < s.table.length ∧ (s.loaded s.firstRefused).2 = false) := by
  have hle : s.firstRefused ≤ s.table.length := by
    have h : s.firstRefused ≤ (List.range s.table.length).length := findIdx_le_length
    rwa [length_range] at h
  refine ⟨fun j hj => ?_, ?_⟩
  . have hnot := not_of_lt_findIdx hj
    rw [getElem_range] at hnot
    simpa using hnot
  . obtain heq | hlt := Nat.eq_or_lt_of_le hle
    . exact .inl heq
    . have hrange : s.firstRefused < (List.range s.table.length).length := by
        rwa [length_range]
      have hfound : (!(s.loaded (List.range s.table.length)[s.firstRefused]).2) = true :=
        findIdx_getElem (w := hrange)
      rw [getElem_range] at hfound
      exact .inr ⟨hlt, by simpa using hfound⟩

section

variable (hfresh : s.Fresh) (hflash : s.FlashConsistent)

include hfresh hflash

theorem btLeKeyInit_ram :
    s.btLeKeyInit.table.length = s.table.length ∧
      (∀ j, s.btLeKeyInit.entry j =
        if j < s.firstRefused then (s.loaded j).1 else .zero) ∧
      (s.firstRefused < s.table.length → s.btLeKeyInit.sort = []) ∧
      (s.firstRefused = s.table.length → s.btLeKeyInit.sort = s.flashSort) := by
  obtain ⟨haccepted, hend⟩ := @firstRefused_spec s
  -- the loop from the list that the flash has
  have hloop : ∀ sort : BondPriority,
      let t := (s.setSort sort).initEntries 0 s.table.length
      t.table.length = s.table.length ∧
        (∀ j, t.entry j = if j < s.firstRefused then (s.loaded j).1 else .zero) ∧
        (s.firstRefused < s.table.length → t.sort = []) ∧
        (s.firstRefused = s.table.length → t.sort = sort) := by
    intro sort
    obtain ⟨hentry, hsort, hlen⟩ := @initEntries_ram (s.setSort sort) 0 s.table.length
      s.firstRefused (Nat.zero_add _) (Nat.zero_le _) (fun j _ hj => haccepted j hj) hend
      (fun j _ => hfresh.table j)
    refine ⟨hlen, fun j => ?_, fun hlt => ?_, fun heq => ?_⟩
    . rw [hentry]
      exact if_congr (by omega) rfl (hfresh.table j)
    . rw [hsort]
      exact if_neg (Nat.ne_of_lt hlt)
    . rw [hsort]
      exact if_pos heq
  have hnum := hflash.bondNum
  unfold btLeKeyInit
  split
  . next hempty =>
    refine ⟨rfl, fun j => ?_, fun hlt => absurd hlt (by omega), fun _ => ?_⟩
    . rw [if_neg (by omega)]
      exact hfresh.table j
    . rw [hfresh.sort, eq_comm, eq_nil_iff_forall_not_mem]
      intro j hj
      have hlt := (hflash.stored j hj).1
      omega
  . cases hload : s.ftlLoadBondPriority with
    | none =>
      have hsort : s.flashSort = [] := by simp only [flashSort, hload]
      have hnil : s.setSort [] = s := by
        rw [← hfresh.sort]
        rfl
      have h := hloop []
      rw [hnil] at h
      rw [hsort]
      exact h
    | some record =>
      have hsort : s.flashSort = record.2.take record.1 := by simp only [flashSort, hload]
      have hle : record.1 ≤ 19 := by
        unfold flashBondNum at hnum
        rw [hload] at hnum
        exact hnum
      dsimp only
      rw [if_neg (Nat.not_lt_of_le hle), hsort]
      exact hloop (record.2.take record.1)

theorem btLeKeyInit_inv (hclean : s.InitClean) : s.btLeKeyInit.Inv := by
  obtain ⟨hlength, hentry, hrefused, hall⟩ := btLeKeyInit_ram hfresh hflash
  obtain ⟨-, hend⟩ := @firstRefused_spec s
  have hused : ∀ j, (s.btLeKeyInit.entry j).isUsed = true → j < s.firstRefused ∧ s.Stored j ∧
      (s.btLeKeyInit.entry j).idx = j := by
    intro j hj
    rw [hentry] at hj ⊢
    split at hj
    . next hlt =>
      obtain ⟨hidx, hstored, -, -⟩ := s.loaded_spec j
      rw [if_pos hlt]
      exact ⟨hlt, hstored.mp hj, hidx⟩
    . cases hj
  obtain heq | ⟨hlt, -⟩ := hend
  . have hsort := hall heq
    refine ⟨?_, fun j hj => ?_, fun j hj hju _ => ?_, fun j _ hju => (hused j hju).2.2⟩
    . rw [hsort]
      exact hflash.nodup
    . rw [hsort] at hj
      obtain ⟨hjlt, hstored⟩ := hflash.stored j hj
      refine ⟨hlength ▸ hjlt, ?_⟩
      rw [hentry, if_pos (heq ▸ hjlt)]
      exact (s.loaded_spec j).2.1.mpr hstored
    . rw [hsort]
      exact hflash.queued j (hlength ▸ hj) (hused j hju).2.1
  . refine inv_of_unused (hrefused hlt) fun j _ => ?_
    rw [Bool.eq_false_iff]
    intro hju
    obtain ⟨hjlt, hstored, -⟩ := hused j hju
    exact hclean hlt j hjlt hstored

theorem initClean_of_agrees (h : s.btLeKeyInit.Agrees) : s.InitClean := by
  obtain ⟨hlength, hentry, hrefused, -⟩ := btLeKeyInit_ram hfresh hflash
  intro hlt j hj hstored
  obtain ⟨-, hused, hbd, -⟩ := s.loaded_spec j
  have hloaded : s.btLeKeyInit.entry j = (s.loaded j).1 := (hentry j).trans (if_pos hj)
  have hmem := h.queued j (by omega) (by rw [hloaded]; exact hused.mpr hstored)
    (by rw [hloaded]; exact hbd hstored)
  rw [hrefused hlt] at hmem
  cases hmem

end

end

end LeStore

inductive LeOp where
  | allocateKeyEntry (bdAddr : BdAddr) (bdType : UInt8) (localBd : Option BdAddr)
      (localBdType : UInt8) (resolved : Option (BdAddr × UInt8))
  | saveKey (i : Nat) (key : LeKey)
  | deleteBond (i : Nat)
  | setHighPriorityBond (i : Nat)
  | clearAllKeys
  | devInfoSet (b : BondInfo) (info : LeStore.DevInfo) (deleted : List Nat) (alloc : Bool)
  | devInfoPreSet (b : BondInfo) (keyLength : UInt8) (key : List UInt8) (deleted : List Nat)
  | devInfoRemove (b : BondInfo)
  | stack (padding : UInt8 × UInt8 × UInt8)

def leStep (s : LeStore) : LeOp → LeStore
  | .allocateKeyEntry bdAddr bdType localBd localBdType resolved =>
    (s.btLeAllocateKeyEntry bdAddr bdType localBd localBdType resolved).1
  | .saveKey i key => if (s.entry i).isUsed then (s.btLeSaveKey i key).1 else s
  | .deleteBond i => if (s.entry i).isUsed then s.btLeDeleteBond i else s
  | .setHighPriorityBond i => if (s.entry i).isUsed then s.btLeSetHighPriorityBond i else s
  | .clearAllKeys => s.btLeClearAllKeys
  | .devInfoSet b info deleted alloc => s.btLeDevInfoSet b info deleted alloc
  | .devInfoPreSet b keyLength key deleted => s.btLeDevInfoPreSet b keyLength key deleted
  | .devInfoRemove b => s.btLeDevInfoRemove b
  | .stack padding => { s with padding }

theorem leStep_inv (h : s.Inv) (op : LeOp) : (leStep s op).Inv := by
  cases op with
  | allocateKeyEntry bdAddr bdType localBd localBdType resolved => exact h.btLeAllocateKeyEntry.1
  | saveKey i key =>
    rw [leStep]
    split
    . next hused => exact (LeStore.Has.btLeSaveKey ⟨h, hused⟩).inv
    . exact h
  | deleteBond i =>
    rw [leStep]
    split
    . next hused => exact LeStore.Has.btLeDeleteBond ⟨h, hused⟩
    . exact h
  | setHighPriorityBond i =>
    rw [leStep]
    split
    . unfold LeStore.btLeSetHighPriorityBond
      split
      . exact h
      . exact h.setHighPriority
    . exact h
  | clearAllKeys => exact h.btLeClearAllKeys
  | devInfoSet b info deleted alloc => exact h.btLeDevInfoSet
  | devInfoPreSet b keyLength key deleted => exact h.btLeDevInfoPreSet
  | devInfoRemove b => exact h.btLeDevInfoRemove
  | stack padding => exact h.sameRam ⟨rfl, rfl, rfl⟩

theorem le_agrees_iff (s : LeStore) (hfresh : s.Fresh) (hflash : s.FlashConsistent) :
    (∀ ops, (Run.exec leStep s.btLeKeyInit ops).Agrees) ↔ s.InitClean := by
  constructor
  . intro h
    exact LeStore.initClean_of_agrees hfresh hflash (h [])
  . intro hclean ops
    have hinit := LeStore.btLeKeyInit_inv hfresh hflash hclean
    have hinv := @Run.exec_inv _ _ leStep (fun _ _ => True) LeStore.Inv
      (fun s op h _ => leStep_inv h op) s.btLeKeyInit ops hinit
      (Run.along_true s.btLeKeyInit ops)
    exact hinv.agrees

def LeStore.ofBonds (type₀ type₁ : UInt8) : LeStore where
  cb :=
    { cfg := { BondCb.dual.cfg with maxLePairedDevice := 2 }
      fits := by decide }
  flash :=
    Flash.save
      (Flash.save (Flash.save (fun _ => some 0) 244 [2, 0, 1]) 264
        { BondInfo.zero with remoteBdType := type₀, bondFlag := 1 }.bytes)
      372 { BondInfo.zero with remoteBdType := type₁, bondFlag := 1 }.bytes
  table := [.zero, .zero]
  sort := []
  sendBondFull := false
  padding := (0, 0, 0)
  tableSize := rfl
  bondIdxSize := by decide

theorem LeStore.fresh_ofBonds (type₀ type₁ : UInt8) : (LeStore.ofBonds type₀ type₁).Fresh where
  table i := by
    match i with
    | 0 => rfl
    | 1 => rfl
    | i + 2 => rfl
  sort := rfl

theorem le_agrees_iff_ofBonds :
    (∀ ops, (Run.exec leStep (LeStore.ofBonds 0 1).btLeKeyInit ops).Agrees) ↔
      (LeStore.ofBonds 0 1).InitClean :=
  le_agrees_iff (.ofBonds 0 1) (LeStore.fresh_ofBonds 0 1) (by decide +kernel)

theorem not_le_agrees : (LeStore.ofBonds 0 4).Fresh ∧ (LeStore.ofBonds 0 4).FlashConsistent ∧
    ¬(Run.exec leStep (LeStore.ofBonds 0 4).btLeKeyInit []).Agrees := by
  refine ⟨LeStore.fresh_ofBonds 0 4, by decide +kernel, fun h => ?_⟩
  have hmem := h.queued 0 (by decide +kernel) (by decide +kernel) (by decide +kernel)
  exact absurd hmem (by decide +kernel)

end Bond
