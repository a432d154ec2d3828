import Earphone.Lib.First
import Earphone.Bass.BrsBlock

namespace Brs

open Scan Slices Run
open List (append_nil drop_zero flatten_cons length_append length_cons length_flatten length_map
  length_replicate length_set map_cons mem_map)
open Bass (PaSyncState PaSync BigEncryptionState)

def metadataLens : Option BisBlock → Nat
  | none => 0
  | some block => (block.infos.map BisInfo.metadataLen).sum

structure Laid (pCpBisInfo : Option BisBlock) (num size : Nat) (supplied : List (List UInt8)) :
    Prop where
  null : pCpBisInfo = none ↔ num = 0
  extent : size = sizeofBisInfo * num + metadataLens pCpBisInfo
  block : ∀ block, pCpBisInfo = some block → block.Holds num size supplied

structure BrsDb.WellFormed (db : BrsDb) : Prop where
  laid : Laid db.brsData.pCpBisInfo db.brsData.numSubgroups db.brsData.bisInfoSize db.supplied
  cp : db.bisSyncInfo.cpSubgroupNum ≤ 4
  base : db.bisSyncInfo.baseDataSubgroupNum ≤ 4
  char : ∃ bytes, genCharData db.brsData = .ok bytes

structure BrsDb.Inv (db : BrsDb) : Prop where
  laid : Laid db.brsData.pCpBisInfo db.brsData.numSubgroups db.brsData.bisInfoSize db.supplied
  cp : db.bisSyncInfo.cpSubgroupNum ≤ 4
  base : db.bisSyncInfo.baseDataSubgroupNum ≤ 4
  pending : ∀ bis, db.pPendingCpData = some bis → bis.length ≤ 4

section

variable {pCpBisInfo : Option BisBlock} {block : BisBlock} {num size : Nat}
  {supplied : List (List UInt8)} {data : BrsData}

theorem laid_none (supplied : List (List UInt8)) : Laid none 0 0 supplied :=
  ⟨⟨fun _ => rfl, fun _ => rfl⟩, rfl, nofun⟩

theorem laid_some (h : block.Holds num size supplied) (hnum : num ≠ 0) :
    Laid (some block) num size supplied := by
  refine ⟨⟨nofun, fun h0 => absurd h0 hnum⟩, ?_, ?_⟩
  . rw [metadataLens, h.lens, ← length_flatten, ← h.total]
    exact h.area
  . intro block' hblock
    cases hblock
    exact h

theorem genHead_length : (genHead data).length ≤ bstCodeLen := by
  unfold genHead bstCodeLen
  by_cases hbad : data.bigEncryption = .badCode
  . rw [if_pos hbad]
    simp
  . rw [if_neg hbad]
    simp

theorem Laid.genCharData_ok
    (h : Laid data.pCpBisInfo data.numSubgroups data.bisInfoSize supplied) :
    ∃ bytes, genCharData data = .ok bytes := by
  unfold genCharData
  cases data.brsIsUsed with
  | false => exact ⟨[], rfl⟩
  | true =>
    have hhead := @genHead_length data
    rw [if_pos rfl]
    cases hblock : data.pCpBisInfo with
    | none =>
      have hnum := h.null.mp hblock
      simp only [hnum, genSubgroups, bind, Except.bind]
      rw [append_nil, if_pos (by omega)]
      exact ⟨_, rfl⟩
    | some block =>
      have hholds := h.block block hblock
      have hbytes := genSubgroups_bytes hholds (Nat.zero_add data.numSubgroups)
      have hlen := @Contents.bytes_length (block.held supplied)
      have harea := hholds.area
      rw [hholds.held_length, hholds.held_metadata, ← hholds.total] at hlen
      rw [drop_zero] at hbytes
      simp only [hbytes, bind, Except.bind]
      rw [if_pos (by rw [length_append]; unfold sizeofBisInfo at harea; omega)]
      exact ⟨_, rfl⟩

end

section

variable {db db' : BrsDb} {answers : Answers} {tbl : SubgroupTbl}

theorem BrsDb.Inv.wellFormed (h : db.Inv) : db.WellFormed :=
  ⟨h.laid, h.cp, h.base, h.laid.genCharData_ok⟩

def BrsDb.layout (db : BrsDb) : (Option BisBlock × Nat × Nat × List (List UInt8)) × Nat × Nat ×
    Option (List UInt32) :=
  ((db.brsData.pCpBisInfo, db.brsData.numSubgroups, db.brsData.bisInfoSize, db.supplied),
    db.bisSyncInfo.cpSubgroupNum, db.bisSyncInfo.baseDataSubgroupNum, db.pPendingCpData)

theorem BrsDb.Inv.frame (h : db.Inv) (hlayout : db'.layout = db.layout) : db'.Inv := by
  simp only [BrsDb.layout, Prod.mk.injEq] at hlayout
  obtain ⟨⟨hblock, hnum, hsize, hsupplied⟩, hcp, hbase, hpending⟩ := hlayout
  constructor
  . rw [hblock, hnum, hsize, hsupplied]
    exact h.laid
  . rw [hcp]
    exact h.cp
  . rw [hbase]
    exact h.base
  . rw [hpending]
    exact h.pending

theorem BrsDb.Inv.setBlock (h : db.Inv) {pCpBisInfo : Option BisBlock} {num size : Nat}
    {supplied : List (List UInt8)} (hlaid : Laid pCpBisInfo num size supplied) :
    (db.setBlock pCpBisInfo num size supplied).Inv := ⟨hlaid, h.cp, h.base, h.pending⟩

theorem inv_zeroed (sourceId : UInt8) : (BrsDb.zeroed sourceId).Inv :=
  ⟨laid_none [], Nat.zero_le 4, Nat.zero_le 4, nofun⟩

@[simp]
theorem SubgroupTbl.metadata_length (tbl : SubgroupTbl) :
    tbl.metadata.length = tbl.subgroups.length := List.length_map ..

@[simp]
theorem SubgroupTbl.bis_length (tbl : SubgroupTbl) : tbl.bis.length = tbl.subgroups.length :=
  length_map ..

theorem flatten_metadata_le (subgroups : List Subgroup) :
    (subgroups.map Subgroup.metadata).flatten.length ≤ 255 * subgroups.length := by
  induction subgroups with
  | nil => exact Nat.le_refl _
  | cons subgroup rest ih =>
    have hshort := subgroup.short
    rw [map_cons, flatten_cons, length_append, length_cons]
    omega

theorem roomy_of_le (hfour : tbl.subgroups.length ≤ 4) : Roomy tbl.metadata := by
  have hflat := flatten_metadata_le tbl.subgroups
  unfold Roomy sizeofBisInfo
  rw [SubgroupTbl.metadata_length, SubgroupTbl.metadata]
  omega

theorem fill_laid (hadvance : Advances advance tbl.metadata) (hroomy : Roomy tbl.metadata)
    (hbis : bisSyncs.length = tbl.subgroups.length) (hnum : tbl.subgroups.length ≠ 0) :
    ∃ block, fillBisInfo advance bisSyncs tbl.metadata (bisInfoSizeOf tbl.metadata) = .ok block ∧
      Laid (some block) tbl.subgroups.length (bisInfoSizeOf tbl.metadata) tbl.metadata := by
  have hlen : bisSyncs.length = tbl.metadata.length := by rw [hbis, SubgroupTbl.metadata_length]
  have hholds := filled_holds hlen hroomy
  rw [SubgroupTbl.metadata_length] at hholds
  exact ⟨_, fillBisInfo_eq hadvance hroomy, laid_some hholds hnum⟩

theorem fillSubgroupBis_ok {array : Vector UInt32 4} {bis : List UInt32} (h : bis.length ≤ 4) :
    ∃ array', fillSubgroupBis array bis = .ok array' := by
  rw [fillSubgroupBis, if_pos h]
  exact ⟨_, rfl⟩

theorem BrsDb.Inv.sameMetadata_ok (h : db.Inv)
    (hnum : tbl.subgroups.length = db.brsData.numSubgroups) (hne : tbl.subgroups.length ≠ 0) :
    ∃ same, sameMetadata db.brsData.pCpBisInfo 0 tbl.metadata = .ok same ∧
      (same = true → tbl.metadata = db.supplied) := by
  cases hblock : db.brsData.pCpBisInfo with
  | none =>
    have h0 := h.laid.null.mp hblock
    omega
  | some block =>
    have hlen : 0 + tbl.metadata.length = db.brsData.numSubgroups := by
      rw [Nat.zero_add, SubgroupTbl.metadata_length, hnum]
    exact Brs.sameMetadata_ok (h.laid.block block hblock) hlen

def FitsBase (answers : Answers) (tbl : SubgroupTbl) (db : BrsDb) : Prop :=
  tbl.subgroups.length ≤ 4 ∧
    (db.brsData.pCpBisInfo = none → answers.allocated = true →
      tbl.subgroups.length ≠ 0 ∧ Advances (fun _ => firstLen tbl.metadata) tbl.metadata)

def FitsMetadata (answers : Answers) (tbl : SubgroupTbl) (db : BrsDb) : Prop :=
  answers.allocated = true →
    tbl.subgroups.length = db.brsData.numSubgroups ∨ db.brsData.pCpBisInfo = none →
      Roomy tbl.metadata

def FitsCp (answers : Answers) (tbl : SubgroupTbl) (db : BrsDb) : Prop :=
  refuses answers tbl db = .ok false → tbl.subgroups.length ≤ 4

section

variable (h : db.Inv)

include h

theorem setBaseData_inv (hfits : ∀ tbl, mapping = some tbl → tbl.subgroups.length ≤ 4) :
    ∃ db', setBaseData mapping db = .ok db' ∧ db'.Inv ∧
      db'.brsData.pCpBisInfo = db.brsData.pCpBisInfo := by
  cases mapping with
  | none => exact ⟨_, rfl, ⟨h.laid, h.cp, Nat.zero_le 4, h.pending⟩, rfl⟩
  | some tbl =>
    have hfour := hfits tbl rfl
    obtain ⟨array, harray⟩ := @fillSubgroupBis_ok db.bisSyncInfo.baseDataSubgroupBis tbl.bis
      (by rw [SubgroupTbl.bis_length]; exact hfour)
    simp only [setBaseData, harray, bind, Except.bind]
    exact ⟨_, rfl, ⟨h.laid, h.cp, hfour, h.pending⟩, rfl⟩

theorem handleBaseData_inv (hfits : ∀ tbl, mapping = some tbl → FitsBase answers tbl db) :
    ∃ db', handleBaseData answers mapping db = .ok db' ∧ db'.Inv := by
  obtain ⟨db', hset, hinv, hblock⟩ := setBaseData_inv h fun tbl htbl => (hfits tbl htbl).1
  simp only [handleBaseData, hset, bind, Except.bind]
  cases mapping with
  | none => exact ⟨db', rfl, hinv⟩
  | some tbl =>
    by_cases hnew : db'.brsData.pCpBisInfo = none ∧ answers.allocated = true
    . obtain ⟨hfour, hadvances⟩ := hfits tbl rfl
      obtain ⟨hne, hadvance⟩ := hadvances (hblock ▸ hnew.1) hnew.2
      have hbis : (List.replicate tbl.subgroups.length (0 : UInt32)).length =
          tbl.subgroups.length := length_replicate ..
      obtain ⟨block, hfill, hlaid⟩ := fill_laid hadvance (roomy_of_le hfour) hbis hne
      simp only [if_pos hnew, hfill]
      exact ⟨_, rfl, (hinv.setBlock hlaid).frame rfl⟩
    . simp only [if_neg hnew]
      exact ⟨db', rfl, hinv⟩

theorem renewMetadata_inv (hroomy : answers.allocated = true → Roomy tbl.metadata)
    (hne : tbl.subgroups.length ≠ 0) :
    ∃ r, renewMetadata answers tbl db = .ok r ∧ r.2.Inv := by
  unfold renewMetadata
  by_cases halloc : answers.allocated = true
  . have hbis : ((List.range tbl.subgroups.length).map
        (oldBisSync answers db.brsData.pCpBisInfo)).length = tbl.subgroups.length := by simp
    obtain ⟨block, hfill, hlaid⟩ := fill_laid advances_id (hroomy halloc) hbis hne
    simp only [if_pos halloc, hfill, bind, Except.bind]
    exact ⟨_, rfl, (h.setBlock hlaid).frame rfl⟩
  . rw [if_neg halloc]
    exact ⟨_, rfl, h⟩

theorem updateMetadata_inv (hfits : FitsMetadata answers tbl db) :
    ∃ r, updateMetadata answers tbl db = .ok r ∧ r.2.Inv := by
  unfold updateMetadata
  by_cases hne : tbl.subgroups.length = 0
  . rw [if_pos hne]
    exact ⟨_, rfl, h⟩
  . rw [if_neg hne]
    by_cases hnum : tbl.subgroups.length = db.brsData.numSubgroups
    . obtain ⟨same, hsame, heq⟩ := h.sameMetadata_ok hnum hne
      simp only [if_pos hnum, hsame, bind, Except.bind]
      cases same with
      | true =>
        refine ⟨_, rfl, h.frame ?_⟩
        rw [BrsDb.layout, heq rfl]
        rfl
      | false => exact renewMetadata_inv h (fun halloc => hfits halloc (.inl hnum)) hne
    . rw [if_neg hnum]
      by_cases hblock : db.brsData.pCpBisInfo = none
      . rw [if_neg (not_not.mpr hblock)]
        exact renewMetadata_inv h (fun halloc => hfits halloc (.inr hblock)) hne
      . rw [if_pos hblock]
        exact ⟨_, rfl, h⟩

theorem bisInfoEqual_ok :
    ∃ equal, bisInfoEqual tbl db = .ok equal ∧
      (equal = true → Laid db.brsData.pCpBisInfo tbl.subgroups.length (bisInfoSizeOf tbl.metadata)
        tbl.metadata) := by
  unfold bisInfoEqual
  by_cases hcond : db.brsData.pCpBisInfo ≠ none ∧
      db.brsData.bisInfoSize = bisInfoSizeOf tbl.metadata ∧
      db.brsData.numSubgroups = tbl.subgroups.length
  . obtain ⟨hblock, hsize, hnum⟩ := hcond
    have hne : tbl.subgroups.length ≠ 0 := fun h0 => hblock (h.laid.null.mpr (hnum.trans h0))
    obtain ⟨same, hsame, heq⟩ := h.sameMetadata_ok hnum.symm hne
    rw [if_pos ⟨hblock, hsize, hnum⟩, hsame]
    refine ⟨same, rfl, fun htrue => ?_⟩
    rw [← hsize, ← hnum, heq htrue]
    exact h.laid
  . rw [if_neg hcond]
    exact ⟨false, rfl, fun htrue => by cases htrue⟩

theorem refuses_ok : ∃ refused, refuses answers tbl db = .ok refused := by
  obtain ⟨equal, hequal, -⟩ := @bisInfoEqual_ok db tbl h
  simp only [refuses, hequal, bind, Except.bind]
  by_cases hsize : 0 < bisInfoSizeOf tbl.metadata
  . rw [if_pos hsize]
    by_cases hprefer : bisSyncOf tbl.bis = noPrefer ∧ db.brsData.bisSyncState ≠ 0
    . rw [if_pos hprefer]
      exact ⟨true, rfl⟩
    . rw [if_neg hprefer]
      exact ⟨_, rfl⟩
  . rw [if_neg hsize]
    exact ⟨false, rfl⟩

end

theorem renewBisInfo_laid {isAdd : Bool} (h : db.Inv) (hroomy : Roomy tbl.metadata) :
    ∃ r, renewBisInfo answers isAdd tbl db = .ok r ∧
      Laid r.2.2.1 tbl.subgroups.length (bisInfoSizeOf tbl.metadata) tbl.metadata := by
  have hsizeOf := bisInfoSizeOf_roomy hroomy
  rw [SubgroupTbl.metadata_length] at hsizeOf
  unfold renewBisInfo
  by_cases hsize : 0 < bisInfoSizeOf tbl.metadata
  . obtain ⟨equal, hequal, hsame⟩ := @bisInfoEqual_ok db tbl h
    simp only [if_pos hsize, hequal, bind, Except.bind]
    cases equal with
    | true => exact ⟨_, rfl, hsame rfl⟩
    | false =>
      have hne : tbl.subgroups.length ≠ 0 := by
        intro h0
        have hflat := flatten_metadata_le tbl.subgroups
        rw [← SubgroupTbl.metadata, h0] at hflat
        rw [h0] at hsizeOf
        omega
      have hbis : (tbl.bis.mapIdx (newBisSync answers db)).length = tbl.subgroups.length := by simp
      obtain ⟨block, hfill, hlaid⟩ := fill_laid advances_id hroomy hbis hne
      simp only [Bool.false_eq_true, if_false, hfill]
      exact ⟨_, rfl, hlaid⟩
  . have hzero : bisInfoSizeOf tbl.metadata = 0 := by omega
    have hnum : tbl.subgroups.length = 0 := by unfold sizeofBisInfo at hsizeOf; omega
    rw [if_neg hsize, hzero, hnum]
    exact ⟨_, rfl, laid_none _⟩

theorem setCpSubgroups_inv {bisSync : UInt32} (h : db.Inv) (hfour : tbl.subgroups.length ≤ 4) :
    ∃ db', setCpSubgroups bisSync tbl db = .ok db' ∧ db'.Inv := by
  have hlen : tbl.bis.length ≤ 4 := by rw [SubgroupTbl.bis_length]; exact hfour
  have harray : ∃ array, setCpSubgroupBis db.bisSyncInfo.cpSubgroupBis tbl.bis = .ok array := by
    unfold setCpSubgroupBis
    by_cases hne : tbl.bis.length ≠ 0
    . rw [if_pos hne]
      exact fillSubgroupBis_ok hlen
    . rw [if_neg hne]
      exact ⟨_, rfl⟩
  obtain ⟨array, harray⟩ := harray
  simp only [setCpSubgroups, harray, bind, Except.bind]
  exact ⟨_, rfl, ⟨h.laid, hfour, h.base, h.pending⟩⟩

theorem handleUpdateBisInfo_inv {isAdd : Bool} (h : db.Inv) (hfits : FitsCp answers tbl db) :
    ∃ r, handleUpdateBisInfo answers isAdd tbl db = .ok r ∧ r.2.Inv ∧
      (r.1 = true → tbl.subgroups.length ≤ 4) := by
  obtain ⟨refused, hrefused⟩ := @refuses_ok db answers tbl h
  simp only [handleUpdateBisInfo, hrefused, bind, Except.bind]
  cases refused with
  | true => exact ⟨_, rfl, h, fun hfalse => by cases hfalse⟩
  | false =>
    have hfour := hfits hrefused
    obtain ⟨r, hr, hlaid⟩ := @renewBisInfo_laid db answers tbl isAdd h (roomy_of_le hfour)
    obtain ⟨db', hdb', hinv⟩ := @setCpSubgroups_inv db tbl r.1 h hfour
    simp only [Bool.false_eq_true, if_false, hr, hdb']
    exact ⟨_, rfl, (hinv.setBlock hlaid).frame rfl, fun _ => hfour⟩

theorem brsDelete_inv (sendNotify : Bool) (h : db.Inv) :
    (brsDelete answers sendNotify db).2.Inv := by
  unfold brsDelete
  split
  . exact h
  . split
    . exact h
    . exact (inv_zeroed _).frame rfl

section

variable (h : db.Inv)

include h

theorem notify_inv : db.notify.Inv := by
  unfold BrsDb.notify
  split
  . exact h.frame rfl
  . exact h

theorem setPending_inv (hfour : tbl.subgroups.length ≤ 4) : (setPending tbl db).Inv := by
  unfold setPending
  split
  . refine ⟨h.laid, h.cp, h.base, fun bis hbis => ?_⟩
    cases hbis
    rw [SubgroupTbl.bis_length]
    exact hfour
  . exact h

theorem addSource_inv (hfits : answers.handle ≠ none → FitsCp answers tbl db) :
    ∃ db', addSource answers source paSync tbl db = .ok db' ∧ db'.Inv := by
  unfold addSource
  cases hhandle : answers.handle with
  | none => exact ⟨_, rfl, brsDelete_inv false (h.frame rfl)⟩
  | some handle =>
    have htaken : ({ db.take source with handle := some handle } : BrsDb).Inv := h.frame rfl
    have hfits' : FitsCp answers tbl { db.take source with handle := some handle } :=
      hfits (by rw [hhandle]; exact Option.some_ne_none handle)
    obtain ⟨r, hr, hinv, hfour⟩ := @handleUpdateBisInfo_inv _ answers tbl true htaken hfits'
    simp only [hr, bind, Except.bind]
    by_cases hupdated : r.1 = false
    . rw [if_pos hupdated]
      exact ⟨_, rfl, brsDelete_inv false hinv⟩
    . rw [if_neg hupdated]
      by_cases hsync : r.2.bisSyncInfo.cpBigSync ≠ 0 ∧ paSync = .notSync
      . rw [if_pos hsync]
        exact ⟨_, rfl, brsDelete_inv false hinv⟩
      . rw [if_neg hsync]
        exact ⟨_, rfl, notify_inv (setPending_inv (hinv.frame rfl)
          (hfour (Bool.of_not_eq_false hupdated)))⟩

theorem modifySource_inv (hfits : FitsCp answers tbl db) :
    ∃ db', modifySource answers tbl db = .ok db' ∧ db'.Inv := by
  obtain ⟨r, hr, hinv, hfour⟩ := @handleUpdateBisInfo_inv _ answers tbl false h hfits
  simp only [modifySource, hr, bind, Except.bind]
  by_cases hupdated : r.1 = false
  . rw [if_pos hupdated]
    exact ⟨_, rfl, hinv⟩
  . rw [if_neg hupdated]
    exact ⟨_, rfl, notify_inv (setPending_inv hinv (hfour (Bool.of_not_eq_false hupdated)))⟩

theorem deleteSourceInt_inv : (deleteSourceInt answers db).2.Inv := by
  unfold deleteSourceInt
  split
  . exact h
  . exact brsDelete_inv true (h.frame rfl)

theorem removeSource_inv : (removeSource answers db).Inv := by
  unfold removeSource
  split
  . exact h
  . have hinv := @deleteSourceInt_inv db answers h
    dsimp only
    split
    . exact hinv.frame rfl
    . exact hinv

end

theorem handleReleased_inv (isLocal : Bool) (h : db.Inv) :
    (handleReleased answers isLocal db).Inv := by
  have hinv : ({ db with handle := none } : BrsDb).Inv := h.frame rfl
  unfold handleReleased
  dsimp only
  split
  . exact notify_inv (brsDelete_inv true hinv)
  . exact hinv

theorem writeBisSync_laid (h : Laid pCpBisInfo num size supplied)
    (bisSync : Nat → Option UInt32) :
    ∃ block, writeBisSync num bisSync pCpBisInfo = .ok block ∧ Laid block num size supplied := by
  cases pCpBisInfo with
  | none =>
    have hnum := h.null.mp rfl
    rw [writeBisSync, if_pos hnum]
    exact ⟨none, rfl, h⟩
  | some block =>
    have hholds := h.block block rfl
    have hnum : num ≠ 0 := fun h0 => Option.some_ne_none block (h.null.mpr h0)
    rw [writeBisSync, if_pos (Nat.le_of_eq hholds.infos.symm)]
    exact ⟨_, rfl, laid_some (withBisSync_holds hholds num bisSync) hnum⟩

theorem setBisState_inv {bisState : UInt32} {role : ActionRole} (h : db.Inv) :
    ∃ db', setBisState bisState role db = .ok db' ∧ db'.Inv := by
  unfold setBisState bigUpdateBisState
  by_cases hstate : db.brsData.bisSyncState ≠ bisState
  . obtain ⟨block, hblock, hlaid⟩ :=
      writeBisSync_laid h.laid (bisSyncFor role bisState db.bisSyncInfo)
    simp only [if_pos hstate, hblock, bind, Except.bind]
    exact ⟨_, rfl, ⟨hlaid, h.cp, h.base, h.pending⟩⟩
  . simp only [if_neg hstate, bind, Except.bind]
    exact ⟨_, rfl, h.frame rfl⟩

theorem setBigEncryption_inv (h : db.Inv) (bigEncryption : BigEncryptionState) :
    (db.setBigEncryption bigEncryption).Inv := by
  unfold BrsDb.setBigEncryption
  split
  . exact h
  . exact h.frame rfl

theorem clearPending_inv (h : db.Inv) : (clearPending db).Inv := by
  unfold clearPending
  split
  . exact h
  . exact ⟨h.laid, h.cp, h.base, nofun⟩

theorem bigCheckInfoProc_inv (codeRequired : Bool) (h : db.Inv) :
    (bigCheckInfoProc codeRequired db).Inv := by
  unfold bigCheckInfoProc
  apply clearPending_inv
  split
  . exact setBigEncryption_inv h _
  . exact h

theorem setPaSyncState_inv (state : PaSyncState) (h : db.Inv) : (setPaSyncState state db).Inv := by
  unfold setPaSyncState
  split
  . exact h
  . exact h.frame rfl

theorem machineAction_inv (action : MachineAction) (h : db.Inv) :
    ∃ db', machineAction action db = .ok db' ∧ db'.Inv := by
  cases action with
  | paState state => exact ⟨_, rfl, setPaSyncState_inv state h⟩
  | bigSynchronized syncState role encryption =>
    cases syncState with
    | none => exact ⟨_, rfl, setBigEncryption_inv h _⟩
    | some syncState =>
      obtain ⟨db', hdb', hinv⟩ := @setBisState_inv db syncState role h
      simp only [machineAction, bigSynchronizedProc, hdb', bind, Except.bind]
      exact ⟨_, rfl, setBigEncryption_inv hinv _⟩
  | bigTerminated role refused badCode =>
    obtain ⟨db', hdb', hinv⟩ := @setBisState_inv db 0 role h
    simp only [machineAction, bigTerminatedProc, hdb', bind, Except.bind]
    cases refused with
    | true =>
      refine ⟨_, rfl, ?_⟩
      apply setBigEncryption_inv
      exact hinv.frame rfl
    | false => exact ⟨_, rfl, setBigEncryption_inv hinv _⟩
  | bigSyncFailed => exact setBisState_inv h
  | bigCheckInfo codeRequired => exact ⟨_, rfl, bigCheckInfoProc_inv codeRequired h⟩
  | bigInfo numBis => exact ⟨_, rfl, h.frame rfl⟩

theorem cfgPreferBisSync_inv (idx : Nat) (bisSync : UInt32) (h : db.Inv) :
    ∃ r, cfgPreferBisSync idx bisSync db = .ok r ∧ r.2.Inv := by
  unfold cfgPreferBisSync
  cases hpending : db.pPendingCpData with
  | none => exact ⟨_, rfl, h⟩
  | some bis =>
    have hfour := h.pending bis hpending
    by_cases hidx : bis[idx]? = some noPrefer
    . have hlt : idx < 4 := by
        obtain ⟨hbound, -⟩ := List.getElem?_eq_some_iff.mp hidx
        omega
      have hset : ∀ bis', some (bis.set idx bisSync) = some bis' → bis'.length ≤ 4 := by
        intro bis' hbis'
        cases hbis'
        rw [length_set]
        exact hfour
      simp only [if_pos hidx]
      cases preferLoop 0 false (bis.set idx bisSync) with
      | none => exact ⟨_, rfl, h⟩
      | some result =>
        dsimp only
        by_cases hbig : 2 ^ db.biginfoBisNum ≤ result.1.toNat
        . rw [if_pos hbig]
          exact ⟨_, rfl, h⟩
        . rw [if_neg hbig]
          by_cases hleft : result.2 = true
          . rw [if_pos hleft]
            exact ⟨_, rfl, ⟨h.laid, h.cp, h.base, hset⟩⟩
          . rw [if_neg hleft, dif_pos hlt]
            exact ⟨_, rfl, ⟨h.laid, h.cp, h.base, hset⟩⟩
    . simp only [if_neg hidx]
      exact ⟨_, rfl, h⟩

end

inductive Event where
  | addSource (source : Source) (paSync : PaSync) (tbl : SubgroupTbl)
  | modifySource (sourceId : UInt8) (tbl : SubgroupTbl)
  | removeSource (sourceId : UInt8)
  | localAdd (handle : Nat) (source : Source)
  | addrUpdate (handle : Nat) (address : Vector UInt8 6)
  | handleReleased (handle : Nat) (isLocal : Bool)
  | baseData (handle : Nat) (mapping : Option SubgroupTbl)
  | updateMetadata (sourceId : UInt8) (tbl : SubgroupTbl)
  | machine (sourceId : UInt8) (action : MachineAction)
  | cfgPreferBisSync (sourceId : UInt8) (idx : Nat) (bisSync : UInt32)
  | sendBroadcastCodeRequired (sourceId : UInt8)

def BrsDb.hasId (sourceId : UInt8) (db : BrsDb) : Bool :=
  db.brsData.brsIsUsed && db.brsData.sourceId == sourceId

def BrsDb.hasHandle (handle : Nat) (db : BrsDb) : Bool := db.handle == some handle

def BrsDb.isEmpty (db : BrsDb) : Bool := !db.brsData.brsIsUsed

def BrsDb.hasSource (source : Source) (db : BrsDb) : Bool :=
  db.brsData.sourceAddressType == source.addressType && db.brsData.sourceAdvSid == source.advSid &&
    decide (db.brsData.broadcastId = source.broadcastId)

def Event.picks : Event → BrsDb → Bool
  | .addSource _ _ _ => BrsDb.isEmpty
  | .modifySource sourceId _ => BrsDb.hasId sourceId
  | .removeSource sourceId => BrsDb.hasId sourceId
  | .localAdd _ _ => BrsDb.isEmpty
  | .addrUpdate handle _ => BrsDb.hasHandle handle
  | .handleReleased handle _ => BrsDb.hasHandle handle
  | .baseData handle _ => BrsDb.hasHandle handle
  | .updateMetadata sourceId _ => BrsDb.hasId sourceId
  -- The machines run on an entry, whether it is in use or not.
  | .machine sourceId _ => fun db => db.brsData.sourceId == sourceId
  | .cfgPreferBisSync sourceId _ _ => BrsDb.hasId sourceId
  | .sendBroadcastCodeRequired sourceId => BrsDb.hasId sourceId

def sendBroadcastCodeRequired (db : BrsDb) : BrsDb :=
  if db.brsData.bigEncryption = .notEncrypted ∨ db.brsData.bigEncryption = .badCode then
    BrsDb.sendAllNotify
      { db with brsData := { db.brsData with bigEncryption := .broadcastCodeRequired } }
  else
    db

def act (answers : Answers) (db : BrsDb) : Event → Except Stuck BrsDb
  | .addSource source paSync tbl => addSource answers source paSync tbl db
  | .modifySource _ tbl => modifySource answers tbl db
  | .removeSource _ => return removeSource answers db
  | .localAdd handle source => return { db.take source with handle := some handle }.sendAllNotify
  | .addrUpdate _ address =>
    return BrsDb.sendAllNotify { db with brsData := { db.brsData with sourceAddress := address } }
  | .handleReleased _ isLocal => return handleReleased answers isLocal db
  | .baseData _ mapping => handleBaseData answers mapping db
  | .updateMetadata _ tbl => do
    let r ← updateMetadata answers tbl db
    return r.2
  | .machine _ action => machineAction action db
  | .cfgPreferBisSync _ idx bisSync => do
    let r ← cfgPreferBisSync idx bisSync db
    return r.2
  | .sendBroadcastCodeRequired _ => return sendBroadcastCodeRequired db

def Event.isKnown (table : List BrsDb) : Event → Bool
  | .addSource source _ _ => table.any (BrsDb.hasSource source)
  | .localAdd _ source => table.any (BrsDb.hasSource source)
  | _ => false

def stepTable (table : List BrsDb) (event : Event × Answers) : Except Stuck (List BrsDb) :=
  if event.1.isKnown table then
    .ok table
  else
    First.modifyM event.1.picks (fun db => act event.2 db event.1) table

def step (state : Except Stuck (List BrsDb)) (event : Event × Answers) :
    Except Stuck (List BrsDb) := do
  let table ← state
  stepTable table event

def init (brsNum : Nat) : Except Stuck (List BrsDb) :=
  .ok ((List.range brsNum).map fun i => BrsDb.zeroed (UInt8.ofNat (i + 1)))

def Event.Fits (answers : Answers) (db : BrsDb) : Event → Prop
  | .addSource _ _ tbl => answers.handle ≠ none → FitsCp answers tbl db
  | .modifySource _ tbl => FitsCp answers tbl db
  | .baseData _ mapping => ∀ tbl, mapping = some tbl → FitsBase answers tbl db
  | .updateMetadata _ tbl => FitsMetadata answers tbl db
  | _ => True

def Fits (state : Except Stuck (List BrsDb)) (event : Event × Answers) : Prop :=
  ∀ table, state = .ok table → event.1.isKnown table = false →
    ∀ db, table.find? event.1.picks = some db → event.1.Fits event.2 db

def StateInv (state : Except Stuck (List BrsDb)) : Prop :=
  ∃ table, state = .ok table ∧ ∀ db ∈ table, db.Inv

theorem sendBroadcastCodeRequired_inv (h : db.Inv) : (sendBroadcastCodeRequired db).Inv := by
  unfold sendBroadcastCodeRequired
  split
  . exact h.frame rfl
  . exact h

theorem act_inv (h : db.Inv)
    (hfits : event.Fits answers db) : ∃ db', act answers db event = .ok db' ∧ db'.Inv := by
  cases event with
  | addSource source paSync tbl => exact addSource_inv h hfits
  | modifySource sourceId tbl => exact modifySource_inv h hfits
  | removeSource sourceId => exact ⟨_, rfl, removeSource_inv h⟩
  | localAdd handle source => exact ⟨_, rfl, h.frame rfl⟩
  | addrUpdate handle address => exact ⟨_, rfl, h.frame rfl⟩
  | handleReleased handle isLocal => exact ⟨_, rfl, handleReleased_inv isLocal h⟩
  | baseData handle mapping => exact handleBaseData_inv h hfits
  | updateMetadata sourceId tbl =>
    obtain ⟨r, hr, hinv⟩ := updateMetadata_inv h hfits
    simp only [act, hr, bind, Except.bind]
    exact ⟨r.2, rfl, hinv⟩
  | machine sourceId action => exact machineAction_inv action h
  | cfgPreferBisSync sourceId idx bisSync =>
    obtain ⟨r, hr, hinv⟩ := cfgPreferBisSync_inv idx bisSync h
    simp only [act, hr, bind, Except.bind]
    exact ⟨r.2, rfl, hinv⟩
  | sendBroadcastCodeRequired sourceId => exact ⟨_, rfl, sendBroadcastCodeRequired_inv h⟩

theorem step_inv (state : Except Stuck (List BrsDb)) (event : Event × Answers)
    (h : StateInv state) (hfits : Fits state event) : StateInv (step state event) := by
  obtain ⟨table, rfl, hall⟩ := h
  change StateInv (stepTable table event)
  unfold stepTable
  cases hknown : event.1.isKnown table with
  | true => exact ⟨table, rfl, hall⟩
  | false =>
    rw [if_neg Bool.false_ne_true]
    exact First.modifyM_ok hall fun db hfind hinv => act_inv hinv (hfits table rfl hknown db hfind)

theorem init_inv (brsNum : Nat) : StateInv (init brsNum) := by
  refine ⟨_, rfl, fun db hdb => ?_⟩
  obtain ⟨i, -, rfl⟩ := mem_map.mp hdb
  exact inv_zeroed _

theorem run_wellFormed (brsNum : Nat) (events : List (Event × Answers))
    (hfits : Along step Fits (init brsNum) events) :
    ∃ table, exec step (init brsNum) events = .ok table ∧ ∀ db ∈ table, db.WellFormed := by
  obtain ⟨table, htable, hall⟩ := exec_inv step_inv (init brsNum) events (init_inv brsNum) hfits
  exact ⟨table, htable, fun db hdb => (hall db hdb).wellFormed⟩

def plenty : Answers where
  allocated := true
  beyond := 0
  handle := some 7
  released := true

def source : Source where
  addressType := 1
  address := .replicate 6 1
  advSid := 3
  broadcastId := .replicate 3 9

def stereoBase : SubgroupTbl :=
  ⟨[⟨1, [3, 2, 4, 0], by decide⟩, ⟨2, [3, 2, 2, 0, 1], by decide⟩], by decide⟩

def stereoRun : List (Event × Answers) :=
  [(.localAdd 7 source, plenty), (.baseData 7 (some stereoBase), plenty),
    (.modifySource 1 ⟨[⟨1, [], Subgroup.short_nil⟩, ⟨0, [5], by decide⟩], by decide⟩, plenty)]

theorem run_wellFormed_stereo :
    Along step Fits (init 2) stereoRun ∧
      ∃ table, exec step (init 2) stereoRun = .ok table ∧ ∀ db ∈ table, db.WellFormed := by
  have hfits : Along step Fits (init 2) stereoRun := by
    refine ⟨fun _ _ _ _ _ => trivial, fun _ _ _ db hdb tbl htbl => ?_, fun _ _ _ _ _ _ => by decide,
      trivial⟩
    cases htbl
    refine ⟨by decide, fun _ _ => ⟨by decide, ?_⟩⟩
    exact ⟨fun _ _ => rfl, fun _ hleft => by simp at hleft, trivial⟩
  exact ⟨hfits, run_wellFormed 2 stereoRun hfits⟩

def unevenBase : SubgroupTbl :=
  ⟨[⟨1, [3, 2, 4, 0], by decide⟩, ⟨2, [1, 5], by decide⟩, ⟨4, [1, 6, 7], by decide⟩], by decide⟩

theorem not_run_wellFormed :
    ¬∀ (brsNum : Nat) (events : List (Event × Answers)),
      ∃ table, exec step (init brsNum) events = .ok table ∧ ∀ db ∈ table, db.WellFormed := by
  intro h
  obtain ⟨table, htable, -⟩ :=
    h 1 [(.localAdd 7 source, plenty), (.baseData 7 (some unevenBase), plenty)]
  have hstuck : exec step (init 1) [(.localAdd 7 source, plenty),
      (.baseData 7 (some unevenBase), plenty)] = .error .overflow := by rfl
  rw [hstuck] at htable
  cases htable

end Brs
