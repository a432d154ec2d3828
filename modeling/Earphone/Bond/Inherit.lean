import Earphone.Bond.Store

namespace Bond

namespace LegacyStore

def NoFeatures (s : LegacyStore) (index : Nat) : Prop :=
  ∀ data ∈ s.cb.ftlLoadRemoteClientSupportedFeatures s.flash .legacy index, data.head? = some 0
  deriving Decidable

def OwnState (s : LegacyStore) (addr : BdAddr) (linkkey : Vector UInt8 16) : Prop :=
  ∀ index, s.btLegacyGetPairedIdx addr = some index →
    s.btLegacyGetBondFlag addr = some 0 ∧
    s.cb.btBondGetCccdData s.flash .legacy index = none ∧ s.NoFeatures index ∧
    ∀ r ∈ s.btLegacyGetBond addr, r.1 = linkkey.toList

def SlotClean (s : LegacyStore) (index : Nat) (linkkey : Vector UInt8 16) (keyType : UInt8)
    (a : Writes) : Prop :=
  (keyType ≠ gapKeyAuthenP256 ∧ keyType ≠ gapKeyUnauthenP256 ∨
    (s.table.getD index .zero).bondFlag = 0) ∧
  s.cb.btBondGetCccdData s.flash .legacy index = none ∧ s.NoFeatures index ∧
  (a.remoteBd = 0 ∧ a.linkKey = 0 ∨ ∀ key ∈ s.ftlLoadLegacyLinkKey index, key = linkkey.toList)
  deriving Decidable

section

variable {s : LegacyStore} {addr : BdAddr} {linkkey : Vector UInt8 16} {keyType : UInt8}
variable {a : Writes} {index o : Nat}

theorem length_bytes (b : BondInfo) : b.bytes.length = OtpBondCfg.bondInfoSize := by
  simp [BondInfo.bytes, bytesOfAddr, bytesOfFlag, OtpBondCfg.bondInfoSize]

theorem impFtlSave_of_not {flash : Flash} {data : List UInt8} {start size err : Nat}
    (h : ¬(start + index * size ≤ o ∧ o < start + index * size + data.length)) :
    (BondCb.impFtlSave flash data start size index err).1 o = flash o := by
  unfold BondCb.impFtlSave
  dsimp only
  split
  . exact Flash.save_of_not h
  . rfl

theorem ftlSaveBondPriority_flash (ho : legacyLinkInfoBdOffset ≤ o) :
    (s.ftlSaveBondPriority err).flash o = s.flash o := by
  refine impFtlSave_of_not fun hin => ?_
  have hlen := @List.length_take_le _ OtpBondCfg.bondPrioritySize
    ((s.sort.length :: s.sort).map UInt8.ofNat ++ List.replicate 19 0)
  simp only [legacyLinkInfoBdOffset, legacyBondPriorityOffset, OtpBondCfg.bondPrioritySize]
    at hin hlen ho
  omega

theorem ftlSaveLegacyRemoteBd_flash
    (ho : o < legacyLinkInfoBdOffset + index * OtpBondCfg.legacyLinkInfoSize ∨
      legacyLinkInfoLinkkeyOffset + index * OtpBondCfg.legacyLinkInfoSize ≤ o) :
    (s.ftlSaveLegacyRemoteBd b index err).1.flash o = s.flash o := by
  unfold ftlSaveLegacyRemoteBd
  split
  . rfl
  . refine impFtlSave_of_not fun hin => ?_
    rw [length_bytes] at hin
    simp only [legacyLinkInfoLinkkeyOffset] at ho
    omega

theorem ftlSaveLegacyLinkKey_flash
    (ho : legacyLinkInfoBdOffset + (index + 1) * OtpBondCfg.legacyLinkInfoSize ≤ o) :
    (s.ftlSaveLegacyLinkKey linkkey index err).1.flash o = s.flash o := by
  unfold ftlSaveLegacyLinkKey
  split
  . rfl
  . refine impFtlSave_of_not fun hin => ?_
    rw [Vector.length_toList] at hin
    simp only [legacyLinkInfoLinkkeyOffset, OtpBondCfg.legacyLinkInfoSize,
      OtpBondCfg.bondInfoSize] at ho hin
    omega

theorem linkInfo_le (h : index < s.cb.cfg.maxLegacyPairedDevice) :
    legacyLinkInfoBdOffset + (index + 1) * OtpBondCfg.legacyLinkInfoSize ≤
      s.cb.cfg.leStartOffset := by
  have hmul := Nat.mul_le_mul_right OtpBondCfg.legacyLinkInfoSize (show index + 1 ≤ _ from h)
  simp only [legacyLinkInfoBdOffset, OtpBondCfg.leStartOffset, OtpBondCfg.linkInfoStartOffset]
  omega

theorem leStartOffset_le (h : s.cb.InBlock .legacy index o) : s.cb.cfg.leStartOffset ≤ o := by
  obtain ⟨start, hstart, hle, -⟩ := h
  obtain ⟨hle', -⟩ | ⟨-, -, rfl⟩ := s.cb.blockOffset_cases hstart
  . cases hle'
  . simp only [OtpBondCfg.commonBredrOffset, OtpBondCfg.stackFtlUsedSize] at hle
    omega

theorem btLegacySaveBond_flash (hslot : s.saveSlot addr = some index) (h : index < s.table.length) :
    (s.btLegacySaveBond addr linkkey keyType a).1.cb = s.cb ∧
    (∀ o, s.cb.cfg.leStartOffset ≤ o →
      (s.btLegacySaveBond addr linkkey keyType a).1.flash o = s.flash o) ∧
    (s.btLegacySaveBond addr linkkey keyType a).1.ftlLoadLegacyLinkKey index =
      if a.remoteBd = 0 ∧ a.linkKey = 0 then some linkkey.toList
      else s.ftlLoadLegacyLinkKey index := by
  have hmax : index < s.cb.cfg.maxLegacyPairedDevice := s.tableSize ▸ h
  have hinfo := linkInfo_le hmax
  have hlt : (s.cb.cfg.maxLegacyPairedDevice ≤ index) = False := by simp [hmax]
  let b := bonded (s.table.getD index .zero) addr keyType
  let s1 := ((s.setSlot index b).ftlSaveLegacyRemoteBd b index a.remoteBd).1
  let s2 := (s1.ftlSaveLegacyLinkKey linkkey index a.linkKey).1
  have hcb1 : s1.cb = s.cb := ftlSaveLegacyRemoteBd_cb
  have hcb2 : s2.cb = s.cb := ftlSaveLegacyLinkKey_cb.trans hcb1
  have hmul : (index + 1) * OtpBondCfg.legacyLinkInfoSize =
      index * OtpBondCfg.legacyLinkInfoSize + OtpBondCfg.legacyLinkInfoSize := Nat.succ_mul ..
  have hsize : OtpBondCfg.legacyLinkInfoSize = OtpBondCfg.bondInfoSize + 16 := rfl
  have hflash1 : ∀ o, legacyLinkInfoLinkkeyOffset + index * OtpBondCfg.legacyLinkInfoSize ≤ o →
      s1.flash o = s.flash o := fun o ho =>
    ftlSaveLegacyRemoteBd_flash (.inr ho)
  have hkey1 : s1.ftlLoadLegacyLinkKey index = s.ftlLoadLegacyLinkKey index := by
    simp only [ftlLoadLegacyLinkKey, hcb1, hlt, if_false]
    exact Flash.load_congr fun o hle _ => hflash1 o hle
  have hrest1 : ∀ o, s.cb.cfg.leStartOffset ≤ o → s1.flash o = s.flash o := fun o ho =>
    hflash1 o (by simp only [legacyLinkInfoLinkkeyOffset]; omega)
  have hrest2 : ∀ o, s.cb.cfg.leStartOffset ≤ o → s2.flash o = s.flash o := fun o ho =>
    (ftlSaveLegacyLinkKey_flash (Nat.le_trans hinfo ho)).trans (hrest1 o ho)
  have hkey2 : a.linkKey = 0 → s2.ftlLoadLegacyLinkKey index = some linkkey.toList := fun hkey => by
    have hsaved : s2.flash = s1.flash.save
        (legacyLinkInfoLinkkeyOffset + index * OtpBondCfg.legacyLinkInfoSize) linkkey.toList := by
      simp only [s2, ftlSaveLegacyLinkKey, hcb1, hlt, if_false, BondCb.impFtlSave, hkey,
        if_true]
      rfl
    have hload := Flash.load_save s1.flash
      (legacyLinkInfoLinkkeyOffset + index * OtpBondCfg.legacyLinkInfoSize) linkkey.toList
    rw [Vector.length_toList] at hload
    simp only [ftlLoadLegacyLinkKey, hcb2, hlt, if_false, BondCb.impFtlLoad, hsaved]
    exact hload
  have hbd : ((s.setSlot index b).ftlSaveLegacyRemoteBd b index a.remoteBd).2 = a.remoteBd :=
    ftlSaveLegacyRemoteBd_err (by simpa using h)
  have herr2 : (s1.ftlSaveLegacyLinkKey linkkey index a.linkKey).2 = a.linkKey :=
    ftlSaveLegacyLinkKey_err (by rwa [hcb1])
  -- the link key is written only after the address, the priority only after the link key
  by_cases hremote : a.remoteBd = 0
  . by_cases hkey : a.linkKey = 0
    . rw [if_pos ⟨hremote, hkey⟩]
      have hload : ∀ sort err, ((s2.setSort sort).ftlSaveBondPriority err).ftlLoadLegacyLinkKey
          index = s2.ftlLoadLegacyLinkKey index := fun sort err => by
        have hcb : ((s2.setSort sort).ftlSaveBondPriority err).cb = s.cb := hcb2
        simp only [ftlLoadLegacyLinkKey, hcb, hcb2, hlt, if_false]
        refine Flash.load_congr fun o hle _ => ftlSaveBondPriority_flash ?_
        simp only [legacyLinkInfoLinkkeyOffset] at hle
        omega
      have hrun : (s.btLegacySaveBond addr linkkey keyType a).1 =
          if (s2.sort.queueAdd s2.cb.cfg.maxLegacyPairedDevice index).2 ∧ s2.sort.Moves index then
            (s2.setSort
              (s2.sort.queueAdd s2.cb.cfg.maxLegacyPairedDevice index).1).ftlSaveBondPriority
                a.priority
          else
            s2.setSort (s2.sort.queueAdd s2.cb.cfg.maxLegacyPairedDevice index).1 := by
        simp only [btLegacySaveBond, hslot]
        rw [hbd, if_neg (by simp [hremote]), herr2, if_neg (by simp [hkey])]
        split <;> rfl
      rw [hrun]
      split
      . refine ⟨hcb2, fun o ho => ?_, (hload _ _).trans (hkey2 hkey)⟩
        exact (ftlSaveBondPriority_flash (by omega)).trans (hrest2 o ho)
      . exact ⟨hcb2, hrest2, hkey2 hkey⟩
    . have hrun : (s.btLegacySaveBond addr linkkey keyType a).1 = s2 := by
        simp only [btLegacySaveBond, hslot]
        rw [hbd, if_neg (by simp [hremote]), herr2, if_pos hkey]
      rw [hrun, if_neg fun hboth => hkey hboth.2]
      refine ⟨hcb2, hrest2, ?_⟩
      have hsame : s2.flash = s1.flash := by
        simp only [s2, ftlSaveLegacyLinkKey, hcb1, hlt, if_false, BondCb.impFtlSave,
          hkey]
        rfl
      rw [← hkey1]
      simp only [ftlLoadLegacyLinkKey, hcb1, hcb2, hsame]
  . have hrun : (s.btLegacySaveBond addr linkkey keyType a).1 = s1 := by
      simp only [btLegacySaveBond, hslot]
      rw [hbd, if_pos hremote]
    rw [hrun, if_neg fun hboth => hremote hboth.1]
    exact ⟨hcb1, hrest1, hkey1⟩

end

section

variable {s : LegacyStore} {addr : BdAddr} {linkkey : Vector UInt8 16} {keyType : UInt8}
variable {a : Writes} {index : Nat}

theorem paired_saved (haddr : s.btLegacyGetPairedIdx addr = none) {t : LegacyStore} {b : BondInfo}
    (ht : t.table = s.table.set index b) (h : index < s.table.length) (hb : b.bondState ≠ 0)
    (hremote : b.remoteBd = addr) : t.btLegacyGetPairedIdx addr = some index := by
  have hbonded : t.table[index]? = some b := by rw [ht, List.getElem?_set_self h]
  cases hfind : t.btLegacyGetPairedIdx addr with
  | none => exact absurd hremote (paired_none hfind hbonded hb)
  | some j =>
    obtain ⟨c, hc, hne, hcaddr⟩ := paired_some hfind
    by_cases hj : index = j
    . rw [hj]
    . rw [ht, List.getElem?_set_ne hj] at hc
      exact absurd hcaddr (paired_none haddr hc hne)

theorem btLegacySaveBond_own_iff (s : LegacyStore) (addr : BdAddr) (linkkey : Vector UInt8 16)
    (keyType : UInt8) (a : Writes) (haddr : s.btLegacyGetPairedIdx addr = none) :
    (s.btLegacySaveBond addr linkkey keyType a).1.OwnState addr linkkey ↔
      ∀ index, s.saveSlot addr = some index → s.SlotClean index linkkey keyType a := by
  cases hslot : s.saveSlot addr with
  | none =>
    have hsame : (s.btLegacySaveBond addr linkkey keyType a).1 = s := by
      simp only [btLegacySaveBond, hslot]
    rw [hsame]
    exact iff_of_true (fun index hindex => by rw [haddr] at hindex; cases hindex)
      fun index hindex => by cases hindex
  | some index =>
    have hlt : index < s.table.length := by
      unfold saveSlot at hslot
      rw [haddr] at hslot
      dsimp only at hslot
      split at hslot
      . obtain ⟨tmpAddr, -, hidx⟩ := Option.bind_eq_some_iff.mp hslot
        obtain ⟨b, hb, hne, -⟩ := paired_some hidx
        exact bonded_lt ⟨b, hb, hne⟩
      . next hempty =>
        cases hslot
        exact (searchEmptyDev_lt hempty).1
    obtain ⟨htable, -⟩ := @btLegacySaveBond_ram s addr linkkey keyType a index hslot hlt
    obtain ⟨hcb, hflash, hkey⟩ := @btLegacySaveBond_flash s addr linkkey keyType a index hslot hlt
    generalize (s.btLegacySaveBond addr linkkey keyType a).1 = t at htable hcb hflash hkey
    have hpaired : t.btLegacyGetPairedIdx addr = some index :=
      paired_saved haddr htable hlt (by simp [bonded, bondInfoExistFlag]) rfl
    have hget : t.table[index]? = some (bonded (s.table.getD index .zero) addr keyType) := by
      rw [htable, List.getElem?_set_self hlt]
    have hflag : t.btLegacyGetBondFlag addr = some 0 ↔
        (keyType ≠ gapKeyAuthenP256 ∧ keyType ≠ gapKeyUnauthenP256 ∨
          (s.table.getD index .zero).bondFlag = 0) := by
      simp only [btLegacyGetBondFlag, hpaired, hget, Option.bind_eq_bind, Option.bind_some, bonded,
        Option.pure_def, Option.some.injEq]
      split
      . next hp => simp [hp]
      . next hp => simp [hp]
    have hblock : ∀ o, s.cb.InBlock .legacy index o → t.flash o = s.flash o := fun o ho =>
      hflash o (leStartOffset_le ho)
    have hcccd : t.cb.btBondGetCccdData t.flash .legacy index =
        s.cb.btBondGetCccdData s.flash .legacy index := by
      rw [hcb]
      unfold BondCb.btBondGetCccdData
      rw [s.cb.ftlLoadCccd_congr hblock]
    have hfeatures : t.NoFeatures index ↔ s.NoFeatures index := by
      unfold NoFeatures
      rw [hcb, s.cb.ftlLoadFeatures_congr hblock]
    have hlinkkey : (∀ r ∈ t.btLegacyGetBond addr, r.1 = linkkey.toList) ↔
        (a.remoteBd = 0 ∧ a.linkKey = 0 ∨
          ∀ key ∈ s.ftlLoadLegacyLinkKey index, key = linkkey.toList) := by
      simp only [btLegacyGetBond, hpaired, hget, hkey, Option.bind_eq_bind, Option.bind_some]
      by_cases hboth : a.remoteBd = 0 ∧ a.linkKey = 0
      . simp [hboth]
      . rw [if_neg hboth]
        cases s.ftlLoadLegacyLinkKey index <;> simp [hboth]
    simp only [OwnState, SlotClean, hpaired, Option.some.injEq, forall_eq', hflag, hcccd, hfeatures,
      hlinkkey]

end

theorem btLegacySaveBond_own_first :
    (pair.btLegacySaveBond 9 (Vector.replicate 16 7) 7 (.answer 0)).1.OwnState 9
      (Vector.replicate 16 7) :=
  (btLegacySaveBond_own_iff pair 9 (Vector.replicate 16 7) 7 (.answer 0) (by decide)).mpr
    fun index hindex => by
      have hzero : 0 = index := Option.some.inj (show some 0 = some index from hindex)
      rw [← hzero]
      decide

def paired : LegacyStore :=
  let b : BondInfo := { BondInfo.zero with bondState := 1, keyType := 7 }
  { pair with
    flash := fun o => if o = 788 then some 4 else some 0
    table := [{ b with remoteBd := 1, bondFlag := 5 }, { b with remoteBd := 2 }]
    sort := [0, 1]
    tableSize := rfl
    tableAlloc := by decide }

theorem consistent_paired : paired.Consistent where
  distinct i j b c hb hc hne hne' heq := by
    have hnodup : (paired.table.map BondInfo.remoteBd).Nodup := by decide
    have hi : (paired.table.map BondInfo.remoteBd)[i]? = some b.remoteBd := by
      rw [List.getElem?_map, hb, Option.map_some]
    have hj : (paired.table.map BondInfo.remoteBd)[j]? = some b.remoteBd := by
      rw [List.getElem?_map, hc, Option.map_some, heq]
    obtain ⟨hlt, -⟩ := List.getElem?_eq_some_iff.mp hi
    exact (List.getElem?_inj hlt hnodup).mp (hi.trans hj.symm)
  nodup := by decide
  listed i := by
    match i with
    | 0 => exact iff_of_true (by decide) ⟨_, rfl, by decide⟩
    | 1 => exact iff_of_true (by decide) ⟨_, rfl, by decide⟩
    | i + 2 => exact iff_of_false (by simp [paired]) (by rintro ⟨b, ⟨⟩, -⟩)

theorem not_btLegacySaveBond_own :
    paired.Consistent ∧ paired.btLegacyGetPairedIdx 3 = none ∧
      ¬(paired.btLegacySaveBond 3 (Vector.replicate 16 7) 7 (.answer 0)).1.OwnState 3
        (Vector.replicate 16 7) := by
  refine ⟨consistent_paired, by decide, fun h => ?_⟩
  have hflag := (h 0 (by decide)).1
  exact absurd hflag (by decide)

end LegacyStore

end Bond
