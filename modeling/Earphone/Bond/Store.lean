import Earphone.Bond.Legacy
import Mathlib.Data.List.Perm.Subperm

namespace Bond

open List (erase_cons_head exists_cons_of_length_pos findIdx?_eq_none_iff
  findIdx?_eq_some_iff_getElem findIdx_le_length getD_eq_getElem?_getD getElem?_cons_zero
  getElem?_eq_getElem getElem?_map getElem?_set length_erase_of_mem length_range mem_append
  mem_cons_self mem_of_getElem? mem_range mem_singleton nodup_append nodup_nil nodup_range
  nodup_singleton not_mem_nil perm_ext_iff_of_nodup)

namespace LegacyStore

structure Consistent (s : LegacyStore) : Prop where
  distinct : ∀ (i j : Nat) (b c : BondInfo), s.table[i]? = some b → s.table[j]? = some c →
    b.bondState ≠ 0 → c.bondState ≠ 0 → b.remoteBd = c.remoteBd → i = j
  nodup : s.sort.Nodup
  listed : ∀ i, i ∈ s.sort ↔ s.Bonded i

def FullReplaces (s : LegacyStore) : Prop :=
  0 < s.table.length → (∀ i < s.table.length, s.Bonded i) →
    ∀ addr linkkey keyType a, s.btLegacyGetPairedIdx addr = none → a.remoteBd = 0 →
      a.linkKey = 0 → ∃ low rest, s.sort = low :: rest ∧
        (s.btLegacySaveBond addr linkkey keyType a).2 = true ∧
        (s.btLegacySaveBond addr linkkey keyType a).1.table =
          s.table.set low (bonded (s.table.getD low .zero) addr keyType) ∧
        (s.btLegacySaveBond addr linkkey keyType a).1.sort = rest ++ [low]

section

variable {s : LegacyStore} {addr : BdAddr} {i index : Nat} {b : BondInfo}

theorem paired_some (h : s.btLegacyGetPairedIdx addr = some i) :
    ∃ b, s.table[i]? = some b ∧ b.bondState ≠ 0 ∧ b.remoteBd = addr := by
  obtain ⟨hlt, hfound, -⟩ := findIdx?_eq_some_iff_getElem.mp h
  refine ⟨s.table[i], getElem?_eq_getElem hlt, ?_⟩
  simpa [isPaired] using hfound

theorem paired_none (h : s.btLegacyGetPairedIdx addr = none) (hb : s.table[i]? = some b)
    (hne : b.bondState ≠ 0) : b.remoteBd ≠ addr := by
  rintro rfl
  have hnot := findIdx?_eq_none_iff.mp h b (mem_of_getElem? hb)
  simp [isPaired, hne] at hnot

theorem bonded_lt (h : s.Bonded i) : i < s.table.length := by
  obtain ⟨b, hb, -⟩ := h
  exact (List.getElem?_eq_some_iff.mp hb).1

theorem searchEmptyDev_lt (h : s.btLegacySearchEmptyDev ≠ s.table.length) :
    s.btLegacySearchEmptyDev < s.table.length ∧ ¬s.Bonded s.btLegacySearchEmptyDev := by
  have hlt : s.btLegacySearchEmptyDev < s.table.length := Nat.lt_of_le_of_ne findIdx_le_length h
  refine ⟨hlt, ?_⟩
  rintro ⟨b, hb, hne⟩
  have hfree : (s.table[s.btLegacySearchEmptyDev].bondState == 0) = true :=
    @List.findIdx_getElem _ (fun b : BondInfo => b.bondState == 0) s.table hlt
  rw [getElem?_eq_getElem hlt, Option.mem_some_iff] at hb
  rw [hb, beq_iff_eq] at hfree
  exact hne hfree

theorem length_sort_lt (h : s.Consistent) (hi : i < s.table.length) (hfree : ¬s.Bonded i) :
    s.sort.length < s.table.length := by
  have hsub : s.sort ⊆ (List.range s.table.length).erase i := fun j hj => by
    have hbonded := (h.listed j).mp hj
    rw [nodup_range.mem_erase_iff]
    exact ⟨fun hji => hfree (hji ▸ hbonded), mem_range.mpr (bonded_lt hbonded)⟩
  have hle := (h.nodup.subperm hsub).length_le
  rw [length_erase_of_mem (mem_range.mpr hi), length_range] at hle
  omega

theorem length_sort_full (h : s.Consistent) (hfull : ∀ i < s.table.length, s.Bonded i) :
    s.sort.length = s.table.length := by
  have hperm : s.sort.Perm (List.range s.table.length) :=
    (perm_ext_iff_of_nodup h.nodup nodup_range).mpr fun i => by
      rw [h.listed, mem_range]
      exact ⟨bonded_lt, hfull i⟩
  rw [hperm.length_eq, length_range]

theorem saveSlot_full (h : s.Consistent) (hfull : ∀ i < s.table.length, s.Bonded i)
    (hpos : 0 < s.table.length) (haddr : s.btLegacyGetPairedIdx addr = none) :
    ∃ low rest, s.sort = low :: rest ∧ s.saveSlot addr = some low := by
  have hlen := length_sort_full h hfull
  obtain ⟨low, rest, hsort⟩ := exists_cons_of_length_pos (Nat.lt_of_lt_of_eq hpos hlen.symm)
  refine ⟨low, rest, hsort, ?_⟩
  have hempty : s.btLegacySearchEmptyDev = s.table.length := by
    by_contra hne
    obtain ⟨hlt, hfree⟩ := searchEmptyDev_lt hne
    exact hfree (hfull _ hlt)
  obtain ⟨b, hb, hne⟩ : s.Bonded low := (h.listed low).mp (by rw [hsort]; exact mem_cons_self)
  have hprio : s.btLegacyGetAddrByPriority s.table.length = some b.remoteBd := by
    have hindex : s.sort.getIndexByPriority s.table.length = some low := by
      unfold BondPriority.getIndexByPriority
      rw [if_neg (by omega), hlen, Nat.sub_self, hsort, getElem?_cons_zero]
    simp only [btLegacyGetAddrByPriority, hindex, Option.bind_eq_bind, Option.bind_some]
    rw [show s.table[low]? = some b from hb]
    rfl
  have hidx : s.btLegacyGetPairedIdx b.remoteBd = some low := by
    cases hfind : s.btLegacyGetPairedIdx b.remoteBd with
    | none => exact absurd rfl (paired_none hfind hb hne)
    | some j =>
      obtain ⟨c, hc, hcne, hceq⟩ := paired_some hfind
      rw [h.distinct j low c b hc hb hcne hne hceq]
  unfold saveSlot
  rw [haddr]
  simp only [hempty, if_true, hprio, Option.bind_eq_bind, Option.bind_some, hidx]

theorem saveSlot_spec (h : s.Consistent) (hslot : s.saveSlot addr = some index) :
    index < s.table.length ∧
      (∀ j b, s.table[j]? = some b → b.bondState ≠ 0 → b.remoteBd = addr → j = index) ∧
      (s.Bonded index ∨ ¬s.Bonded index ∧ s.btLegacyGetPairedIdx addr = none ∧
        s.btLegacySearchEmptyDev ≠ s.table.length) := by
  unfold saveSlot at hslot
  cases hpaired : s.btLegacyGetPairedIdx addr with
  | some i =>
    rw [hpaired] at hslot
    cases hslot
    obtain ⟨b, hb, hne, haddr⟩ := paired_some hpaired
    have hbonded : s.Bonded index := ⟨b, hb, hne⟩
    exact ⟨bonded_lt hbonded, fun j c hc hcne hcaddr =>
      h.distinct j index c b hc hb hcne hne (hcaddr.trans haddr.symm), .inl hbonded⟩
  | none =>
    rw [hpaired] at hslot
    have hother : ∀ j b, s.table[j]? = some b → b.bondState ≠ 0 → b.remoteBd = addr → j = index :=
      fun j b hb hne haddr => absurd haddr (paired_none hpaired hb hne)
    dsimp only at hslot
    split at hslot
    . next hempty =>
      simp only [Option.bind_eq_bind] at hslot
      obtain ⟨tmpAddr, -, hidx⟩ := Option.bind_eq_some_iff.mp hslot
      obtain ⟨b, hb, hne, -⟩ := paired_some hidx
      have hbonded : s.Bonded index := ⟨b, hb, hne⟩
      exact ⟨bonded_lt hbonded, hother, .inl hbonded⟩
    . next hempty =>
      cases hslot
      obtain ⟨hlt, hfree⟩ := searchEmptyDev_lt hempty
      exact ⟨hlt, hother, .inr ⟨hfree, rfl, hempty⟩⟩

end

section

variable {s : LegacyStore} {addr : BdAddr} {linkkey : Vector UInt8 16} {keyType : UInt8}
variable {a : Writes} {index : Nat}

theorem ftlSaveLegacyRemoteBd_err (h : index < s.table.length) :
    (s.ftlSaveLegacyRemoteBd b index err).2 = err := by
  rw [s.tableSize] at h
  simp only [ftlSaveLegacyRemoteBd, if_neg (Nat.not_le_of_lt h), BondCb.impFtlSave]

theorem ftlSaveLegacyLinkKey_err (h : index < s.cb.cfg.maxLegacyPairedDevice) :
    (s.ftlSaveLegacyLinkKey linkkey index err).2 = err := by
  simp only [ftlSaveLegacyLinkKey, if_neg (Nat.not_le_of_lt h), BondCb.impFtlSave]

theorem btLegacySaveBond_ram (hslot : s.saveSlot addr = some index) (h : index < s.table.length) :
    (s.btLegacySaveBond addr linkkey keyType a).1.table =
      s.table.set index (bonded (s.table.getD index .zero) addr keyType) ∧
    ((s.btLegacySaveBond addr linkkey keyType a).1.sort,
      (s.btLegacySaveBond addr linkkey keyType a).2) =
      if a.remoteBd = 0 ∧ a.linkKey = 0 then
        s.sort.queueAdd s.table.length index
      else
        (s.sort, false) := by
  have hmax : index < s.cb.cfg.maxLegacyPairedDevice := s.tableSize ▸ h
  have hbd : ∀ b, ((s.setSlot index b).ftlSaveLegacyRemoteBd b index a.remoteBd).2 = a.remoteBd :=
    fun b => ftlSaveLegacyRemoteBd_err (by simpa using h)
  simp only [btLegacySaveBond, hslot, hbd]
  by_cases hremote : a.remoteBd = 0
  . rw [ftlSaveLegacyLinkKey_err (by simpa [setSlot] using hmax)]
    by_cases hkey : a.linkKey = 0
    . simp only [hremote, hkey, ne_eq, not_true_eq_false, if_false, and_self, if_true]
      split
      . simp [s.tableSize, setSlot, setSort]
      . simp [s.tableSize, setSlot, setSort]
    . simp [hremote, hkey]
  . simp [hremote]

theorem bonded_setSlot {t : LegacyStore} {b : BondInfo} {i : Nat}
    (ht : t.table = s.table.set index b) (h : index < s.table.length) :
    t.Bonded i ↔ (i = index ∧ b.bondState ≠ 0) ∨ (i ≠ index ∧ s.Bonded i) := by
  unfold Bonded
  rw [ht, getElem?_set]
  by_cases hi : index = i
  . rw [if_pos hi, if_pos (hi ▸ h)]
    simp [hi]
  . rw [if_neg hi]
    simp [Ne.symm hi]

theorem Consistent.setSlot (h : s.Consistent) {t : LegacyStore} {b : BondInfo}
    (ht : t.table = s.table.set index b) (hlt : index < s.table.length)
    (hother : b.bondState ≠ 0 → ∀ j c, s.table[j]? = some c → c.bondState ≠ 0 →
      c.remoteBd = b.remoteBd → j = index)
    (hnodup : t.sort.Nodup) (hlisted : ∀ i, i ∈ t.sort ↔ t.Bonded i) : t.Consistent := by
  refine ⟨fun i j c d hc hd hcne hdne heq => ?_, hnodup, hlisted⟩
  rw [ht, getElem?_set] at hc hd
  by_cases hi : index = i
  . rw [if_pos hi, if_pos (hi ▸ hlt)] at hc
    cases hc
    by_cases hj : index = j
    . rw [← hi, hj]
    . rw [if_neg hj] at hd
      rw [hother hcne j d hd hdne heq.symm, hi]
  . rw [if_neg hi] at hc
    by_cases hj : index = j
    . rw [if_pos hj, if_pos (hj ▸ hlt)] at hd
      cases hd
      rw [hother hdne i c hc hcne heq, hj]
    . rw [if_neg hj] at hd
      exact h.distinct i j c d hc hd hcne hdne heq

theorem Consistent.save_iff (h : s.Consistent) :
    (s.btLegacySaveBond addr linkkey keyType a).1.Consistent ↔
      (s.btLegacyGetPairedIdx addr = none → s.btLegacySearchEmptyDev ≠ s.table.length →
        a.remoteBd = 0 ∧ a.linkKey = 0) := by
  cases hslot : s.saveSlot addr with
  | none =>
    have hsame : (s.btLegacySaveBond addr linkkey keyType a).1 = s := by
      simp only [btLegacySaveBond, hslot]
    rw [hsame]
    refine iff_of_true h fun hpaired hempty => ?_
    rw [saveSlot, hpaired] at hslot
    simp [hempty] at hslot
  | some index =>
    obtain ⟨hlt, hother, hcase⟩ := saveSlot_spec h hslot
    obtain ⟨htable, hram⟩ := @btLegacySaveBond_ram s addr linkkey keyType a index hslot hlt
    generalize (s.btLegacySaveBond addr linkkey keyType a) = r at htable hram
    obtain ⟨t, ret⟩ := r
    dsimp only at htable hram ⊢
    have hbonded : ∀ i, t.Bonded i ↔ i = index ∨ i ≠ index ∧ s.Bonded i := fun i => by
      rw [bonded_setSlot htable hlt]
      simp [bonded, bondInfoExistFlag]
    have hset : t.sort.Nodup → (∀ i, i ∈ t.sort ↔ t.Bonded i) → t.Consistent :=
      h.setSlot htable hlt fun _ => hother
    obtain hused | ⟨hfree, hpaired, hempty⟩ := hcase
    . -- the slot is in the list already, and stays there
      refine iff_of_true (hset ?_ fun i => ?_) fun hpaired hempty => ?_
      . split at hram
        . rw [BondPriority.queueAdd_mem ((h.listed index).mpr hused)] at hram
          rw [(Prod.mk.inj hram).1]
          exact BondPriority.nodup_raise h.nodup
        . rw [(Prod.mk.inj hram).1]
          exact h.nodup
      . rw [hbonded]
        have hmem : i ∈ t.sort ↔ i ∈ s.sort := by
          split at hram
          . rw [BondPriority.queueAdd_mem ((h.listed index).mpr hused)] at hram
            rw [(Prod.mk.inj hram).1, BondPriority.mem_raise h.nodup]
            constructor
            . rintro (rfl | hi)
              . exact (h.listed i).mpr hused
              . exact hi
            . exact .inr
          . rw [(Prod.mk.inj hram).1]
        rw [hmem, h.listed]
        by_cases hi : i = index
        . simp [hi, hused]
        . simp [hi]
      . rw [saveSlot, hpaired] at hslot
        simp only [hempty, if_false, Option.some.injEq] at hslot
        exact absurd (hslot ▸ hused) (searchEmptyDev_lt hempty).2
    . have hnew : index ∉ s.sort := fun hmem => hfree ((h.listed index).mp hmem)
      constructor
      . intro ht _ _
        by_contra hsaved
        rw [if_neg hsaved] at hram
        have hindex := (ht.listed index).mpr ((hbonded index).mpr (.inl rfl))
        rw [(Prod.mk.inj hram).1] at hindex
        exact hnew hindex
      . intro hok
        rw [if_pos (hok hpaired hempty), BondPriority.queueAdd_not_mem hnew
          (Nat.ne_of_lt (length_sort_lt h hlt hfree))] at hram
        have hsort : t.sort = s.sort ++ [index] := (Prod.mk.inj hram).1
        refine hset ?_ fun i => ?_
        . rw [hsort, nodup_append]
          refine ⟨h.nodup, nodup_singleton index, fun x hx y hy => ?_⟩
          rw [mem_singleton.mp hy]
          rintro rfl
          exact hnew hx
        . rw [hsort, mem_append, mem_singleton, hbonded, h.listed]
          by_cases hi : i = index
          . simp [hi]
          . simp [hi]

theorem btLegacyDeleteBond_ram (hpaired : s.btLegacyGetPairedIdx addr = some index)
    (hmem : index ∈ s.sort) : (s.btLegacyDeleteBond addr a).1.table = s.table.set index .zero ∧
      (s.btLegacyDeleteBond addr a).1.sort = s.sort.erase index := by
  simp only [btLegacyDeleteBond, hpaired, BondPriority.queueDelete_eq, hmem, decide_true, if_true]
  split <;> simp [setSort]

theorem Consistent.delete (h : s.Consistent) : (s.btLegacyDeleteBond addr a).1.Consistent := by
  cases hpaired : s.btLegacyGetPairedIdx addr with
  | none => simpa only [btLegacyDeleteBond, hpaired] using h
  | some index =>
    obtain ⟨b, hb, hne, -⟩ := paired_some hpaired
    have hbonded : s.Bonded index := ⟨b, hb, hne⟩
    have hmem := (h.listed index).mpr hbonded
    obtain ⟨htable, hsort⟩ := @btLegacyDeleteBond_ram s addr a index hpaired hmem
    refine h.setSlot htable (bonded_lt hbonded) (fun hzero => absurd rfl hzero) ?_ fun i => ?_
    . rw [hsort]
      exact h.nodup.erase index
    . rw [hsort, h.nodup.mem_erase_iff, h.listed, bonded_setSlot htable (bonded_lt hbonded)]
      simp [BondInfo.zero]

theorem btLegacyAdjustDevPriority_ram (hpaired : s.btLegacyGetPairedIdx addr = some index)
    (hmem : index ∈ s.sort) : (s.btLegacyAdjustDevPriority addr a).1.table = s.table ∧
      (s.btLegacyAdjustDevPriority addr a).1.sort = s.sort.erase index ++ [index] := by
  simp only [btLegacyAdjustDevPriority, hpaired, BondPriority.setHighPriority_mem hmem]
  split <;> exact ⟨rfl, rfl⟩

theorem Consistent.adjust (h : s.Consistent) :
    (s.btLegacyAdjustDevPriority addr a).1.Consistent := by
  cases hpaired : s.btLegacyGetPairedIdx addr with
  | none => simpa only [btLegacyAdjustDevPriority, hpaired] using h
  | some index =>
    obtain ⟨b, hb, hne, -⟩ := paired_some hpaired
    have hmem := (h.listed index).mpr ⟨b, hb, hne⟩
    obtain ⟨htable, hsort⟩ := @btLegacyAdjustDevPriority_ram s addr a index hpaired hmem
    refine ⟨?_, ?_, fun i => ?_⟩
    . rw [htable]
      exact h.distinct
    . rw [hsort]
      exact BondPriority.nodup_raise h.nodup
    . rw [hsort, BondPriority.mem_raise h.nodup, Bonded, htable]
      constructor
      . rintro (rfl | hi)
        . exact ⟨b, hb, hne⟩
        . exact (h.listed i).mp hi
      . exact fun hi => .inr ((h.listed i).mpr hi)

theorem Consistent.setFlag (h : s.Consistent) {bondFlag : UInt32} :
    (s.btLegacySetBondFlag addr bondFlag a).1.Consistent := by
  unfold btLegacySetBondFlag
  split
  . exact h
  . next index hpaired =>
    obtain ⟨b, hb, hne, -⟩ := paired_some hpaired
    have hbonded : s.Bonded index := ⟨b, hb, hne⟩
    have hget : s.table.getD index .zero = b := by rw [getD_eq_getElem?_getD, hb]; rfl
    have htable : ((s.setSlot index { s.table.getD index .zero with
        bondFlag }).ftlSaveLegacyRemoteBd { s.table.getD index .zero with bondFlag } index
          a.remoteBd).1.table = s.table.set index { b with bondFlag } := by
      rw [ftlSaveLegacyRemoteBd_table, setSlot_table, hget]
    refine h.setSlot htable (bonded_lt hbonded) (fun _ j c hc hcne heq =>
      h.distinct j index c b hc hb hcne hne heq) ?_ fun i => ?_
    . rw [ftlSaveLegacyRemoteBd_sort]
      exact h.nodup
    . rw [ftlSaveLegacyRemoteBd_sort, setSlot_sort, h.listed,
        bonded_setSlot htable (bonded_lt hbonded)]
      by_cases hi : i = index
      . simp [hi, hbonded, hne]
      . simp [hi]

theorem consistent_clear (priority : Nat) (as : Nat → Writes) :
    (s.btLegacyClearAllKeys priority as).Consistent := by
  have hram : (s.btLegacyClearAllKeys priority as).table = s.table.map (fun _ => .zero) ∧
      (s.btLegacyClearAllKeys priority as).sort = [] := by
    unfold btLegacyClearAllKeys
    dsimp only
    rw [(clearFlash_ram as _).1, (clearFlash_ram as _).2]
    split
    . next hempty => exact ⟨rfl, hempty⟩
    . exact ⟨rfl, rfl⟩
  obtain ⟨htable, hsort⟩ := hram
  have hzero : ∀ (i : Nat) (b : BondInfo),
      (s.btLegacyClearAllKeys priority as).table[i]? = some b → b.bondState = 0 := by
    intro i b hb
    rw [htable, getElem?_map, Option.map_eq_some_iff] at hb
    obtain ⟨c, -, rfl⟩ := hb
    rfl
  refine ⟨fun i j b c hb hc hne => absurd (hzero i b hb) hne, ?_, fun i => ?_⟩
  . rw [hsort]
    exact nodup_nil
  . rw [hsort]
    refine iff_of_false not_mem_nil ?_
    rintro ⟨b, hb, hne⟩
    exact hne (hzero i b hb)

end

theorem Consistent.fullReplaces {s : LegacyStore} (h : s.Consistent) : s.FullReplaces := by
  intro hpos hfull addr linkkey keyType a haddr hremote hkey
  obtain ⟨low, rest, hsort, hslot⟩ := saveSlot_full h hfull hpos haddr
  have hmem : low ∈ s.sort := by
    rw [hsort]
    exact mem_cons_self
  obtain ⟨htable, hram⟩ := @btLegacySaveBond_ram s addr linkkey keyType a low hslot
    (bonded_lt ((h.listed low).mp hmem))
  rw [if_pos ⟨hremote, hkey⟩, BondPriority.queueAdd_mem hmem, hsort, erase_cons_head] at hram
  exact ⟨low, rest, hsort, (Prod.mk.inj hram).2, htable, (Prod.mk.inj hram).1⟩

end LegacyStore

inductive LegacyOp where
  | save (addr : BdAddr) (linkkey : Vector UInt8 16) (keyType : UInt8) (a : Writes)
  | delete (addr : BdAddr) (a : Writes)
  | adjust (addr : BdAddr) (a : Writes)
  | setFlag (addr : BdAddr) (bondFlag : UInt32) (a : Writes)
  | clear (priority : Nat) (as : Nat → Writes)

def legacyStep (s : LegacyStore) : LegacyOp → LegacyStore
  | .save addr linkkey keyType a => (s.btLegacySaveBond addr linkkey keyType a).1
  | .delete addr a => (s.btLegacyDeleteBond addr a).1
  | .adjust addr a => (s.btLegacyAdjustDevPriority addr a).1
  | .setFlag addr bondFlag a => (s.btLegacySetBondFlag addr bondFlag a).1
  | .clear priority as => s.btLegacyClearAllKeys priority as

def SavesNew (s : LegacyStore) : LegacyOp → Prop
  | .save addr _ _ a => s.btLegacyGetPairedIdx addr = none →
      s.btLegacySearchEmptyDev ≠ s.table.length → a.remoteBd = 0 ∧ a.linkKey = 0
  | _ => True

instance (s : LegacyStore) : (op : LegacyOp) → Decidable (SavesNew s op)
  | .save .. => inferInstanceAs (Decidable (_ → _ → _))
  | .delete .. | .adjust .. | .setFlag .. | .clear .. => .isTrue trivial

theorem consistent_step_iff (h : s.Consistent) (op : LegacyOp) :
    (legacyStep s op).Consistent ↔ SavesNew s op := by
  cases op with
  | save addr linkkey keyType a => exact h.save_iff
  | delete addr a => exact iff_of_true h.delete trivial
  | adjust addr a => exact iff_of_true h.adjust trivial
  | setFlag addr bondFlag a => exact iff_of_true h.setFlag trivial
  | clear priority as => exact iff_of_true (LegacyStore.consistent_clear priority as) trivial

theorem legacy_consistent (s : LegacyStore) (ops : List LegacyOp) (hs : s.Consistent)
    (hok : Run.Along legacyStep SavesNew s ops) :
    (Run.exec legacyStep s ops).Consistent ∧ (Run.exec legacyStep s ops).FullReplaces ∧
      ∀ op, (legacyStep (Run.exec legacyStep s ops) op).Consistent ↔
        SavesNew (Run.exec legacyStep s ops) op := by
  have hinv := @Run.exec_inv _ _ legacyStep SavesNew LegacyStore.Consistent
    (fun s op h hop => (consistent_step_iff h op).mpr hop) s ops hs hok
  exact ⟨hinv, hinv.fullReplaces, consistent_step_iff hinv⟩

def LegacyStore.pair : LegacyStore where
  cb :=
    { cfg := { BondCb.dual.cfg with maxLegacyPairedDevice := 2 }
      fits := by decide }
  flash := fun _ => none
  table := [.zero, .zero]
  sort := []
  tableSize := rfl
  tableAlloc := by decide

theorem consistent_pair : LegacyStore.pair.Consistent where
  distinct i j b c hb hc hne := by
    have hzero : b = .zero := by
      have hmem := mem_of_getElem? hb
      simpa [LegacyStore.pair] using hmem
    exact absurd (hzero ▸ rfl) hne
  nodup := nodup_nil
  listed i := by
    refine iff_of_false not_mem_nil ?_
    rintro ⟨b, hb, hne⟩
    have hmem := mem_of_getElem? hb
    have hzero : b = .zero := by simpa [LegacyStore.pair] using hmem
    exact hne (hzero ▸ rfl)

def Writes.answer (remoteBd : Nat) : Writes where
  priority := 0
  remoteBd := remoteBd
  linkKey := 0
  features := 0
  cccd := 0
  padding₁ := (0, 0, 0)
  padding₂ := (0, 0, 0)

def LegacyOp.saveWith (addr : BdAddr) (remoteBd : Nat) : LegacyOp :=
  .save addr (Vector.replicate 16 7) 4 (.answer remoteBd)

theorem legacy_consistent_replaced :
    let s := Run.exec legacyStep .pair
      [.saveWith 1 0, .saveWith 2 0, .adjust 1 (.answer 0), .saveWith 3 5, .delete 1 (.answer 5)]
    s.Consistent ∧ s.FullReplaces ∧ ∀ op, (legacyStep s op).Consistent ↔ SavesNew s op :=
  legacy_consistent .pair _ consistent_pair (by decide)

theorem not_legacy_consistent : ¬(Run.exec legacyStep .pair [.saveWith 1 5]).Consistent := by
  intro h
  have hbonded : (Run.exec legacyStep .pair [.saveWith 1 5]).Bonded 0 := ⟨_, rfl, by decide⟩
  exact absurd ((h.listed 0).mpr hbonded) (by decide)

end Bond
