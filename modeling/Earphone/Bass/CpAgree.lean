import Earphone.Bass.CpRound
import Earphone.Bass.CpSafe
import Earphone.Bass.BrsRun

namespace Brs

open Scan Slices
open Bass (PaSyncState PaSync BigEncryptionState)

def Exclusive (bis : List UInt32) : Prop :=
  bis.Pairwise fun a b => a ≠ noPrefer → b ≠ noPrefer → a &&& b = 0
  deriving Decidable

theorem or_and_eq (a b c : UInt32) : (a ||| b) &&& c = (a &&& c) ||| (b &&& c) := by
  apply UInt32.toBitVec_inj.mp
  simp [BitVec.and_or_distrib_right]

theorem bisSyncCheck_exclusive (hexclusive : Exclusive bis)
    (hcheck : ∀ b ∈ bis, b ≠ noPrefer → check &&& b = 0) :
    ∃ check', bis.foldlM bisSyncCheck check = some check' := by
  induction bis generalizing check with
  | nil => exact ⟨check, rfl⟩
  | cons b rest ih =>
    obtain ⟨hb, hrest⟩ := List.pairwise_cons.mp hexclusive
    obtain ⟨hfirst, hleft⟩ := List.forall_mem_cons.mp hcheck
    rw [List.foldlM_cons]
    by_cases hprefer : b ≠ noPrefer
    . have hadd : bisSyncCheck check b = some (check ||| b) := by
        rw [bisSyncCheck, if_pos hprefer, if_neg (not_not.mpr (hfirst hprefer))]
      rw [hadd]
      apply ih hrest
      intro c hc hcprefer
      rw [or_and_eq, hleft c hc hcprefer, hb c hc hprefer hcprefer]
      rfl
    . have hadd : bisSyncCheck check b = some check := by rw [bisSyncCheck, if_neg hprefer]
      rw [hadd]
      exact ih hrest hleft

section

variable {subgroups : Contents} {known : UInt8 → Bool}

theorem paSyncOf_byte (paSync : PaSync) : paSyncOf (paSyncByte paSync) = some paSync := by
  cases paSync <;> rfl

theorem toNat_ofNat_few (hfew : subgroups.length < 256) :
    (UInt8.ofNat subgroups.length).toNat = subgroups.length := by
  rw [UInt8.toNat_ofNat']
  exact Nat.mod_eq_of_lt hfew

theorem checkSubgroups_bytes {head : List UInt8} {minLen : Nat} (hhead : head.length = minLen)
    (hlast : ∀ l, readAt (head ++ l) (minLen - 1) = .ok (UInt8.ofNat subgroups.length))
    (hshort : subgroups.Short) (hfew : subgroups.length < 256)
    (hroom : minLen + bisInfoSizeOf subgroups.metadata < 65536)
    (hroomy : Roomy subgroups.metadata) :
    checkSubgroups (head ++ (subgroups.bytes ++ [])) minLen =
      .ok (some (bisInfoSizeOf subgroups.metadata)) := by
  have hsize := bisInfoSizeOf_roomy hroomy
  have hbytes := @Contents.bytes_length subgroups
  rw [Contents.metadata_length] at hsize
  unfold sizeofBisInfo at hsize
  have hcount := @countSubgroups_bytes subgroups head [] 0 minLen 0 hshort (by omega) (by omega)
    (by omega)
  unfold checkSubgroups
  rw [if_neg (by rw [List.length_append]; omega), hlast]
  simp only [bind, Except.bind, toNat_ofNat_few hfew, hcount]
  rw [if_neg (by rw [List.length_append, List.length_append, hhead]; simp)]
  simp only [pure, Except.pure, Nat.zero_add]
  unfold sizeofBisInfo
  rw [Nat.add_comm, ← hsize]
  simp [bisInfoSizeOf]

structure Contents.Fits (subgroups : Contents) (minLen : Nat) : Prop where
  short : subgroups.Short
  few : subgroups.length < 256
  room : minLen + sizeofBisInfo * subgroups.length + subgroups.metadata.flatten.length < 65536
  exclusive : Exclusive subgroups.bis

namespace Contents.Fits

section

variable (h : subgroups.Fits minLen)

include h

theorem roomy : Roomy subgroups.metadata := by
  have hroom := h.room
  unfold Roomy
  rw [Contents.metadata_length]
  omega

theorem size_eq : bisInfoSizeOf subgroups.metadata =
    sizeofBisInfo * subgroups.length + subgroups.metadata.flatten.length := by
  rw [bisInfoSizeOf_roomy h.roomy, Contents.metadata_length]

theorem size_lt : minLen + bisInfoSizeOf subgroups.metadata < 65536 := by
  rw [h.size_eq]
  have hroom := h.room
  omega

theorem bytes_le : subgroups.bytes.length ≤ bisInfoSizeOf subgroups.metadata := by
  rw [h.size_eq, Contents.bytes_length]
  unfold sizeofBisInfo
  omega

theorem gen_eq (hmem : minLen + bisInfoSizeOf subgroups.metadata ≤ allocated) :
    genCpSubgroups allocated (minLen + bisInfoSizeOf subgroups.metadata) minLen subgroups =
      .ok (some subgroups.bytes) :=
  genCpSubgroups_ok hmem (Nat.add_le_add_left h.bytes_le minLen)

theorem prase_eq (hhead : head.length = minLen) :
    ∃ check, praseBlock bisSyncCheck (head ++ subgroups.bytes) subgroups.length minLen
      (bisInfoSizeOf subgroups.metadata) =
        .ok (some (check, filled subgroups.bis subgroups.metadata)) := by
  obtain ⟨check, hcheck⟩ := bisSyncCheck_exclusive h.exclusive
    (fun b _ _ => UInt32.zero_and : ∀ b ∈ subgroups.bis, b ≠ noPrefer → 0 &&& b = 0)
  have hblock := @praseBlock_bytes subgroups head [] bisSyncCheck check h.short hcheck h.roomy
  rw [List.append_nil, hhead] at hblock
  exact ⟨check, hblock⟩

end

end Contents.Fits

theorem cpAddSource_eq (h : param.subgroups.Fits 16) :
    cpAddSource param = .ok (some (addSourceHead param ++ param.subgroups.bytes)) := by
  have hsize := h.size_lt
  unfold cpAddSource
  dsimp only
  rw [Nat.mod_eq_of_lt hsize, if_neg (by omega), h.gen_eq (Nat.le_refl _)]
  rfl

theorem cpModifySource_eq (h : param.subgroups.Fits 6) :
    cpModifySource param = .ok (some (modifySourceHead param ++ param.subgroups.bytes)) := by
  unfold cpModifySource
  dsimp only
  rw [Nat.mod_eq_of_lt h.size_lt, h.gen_eq (Nat.le_refl _)]
  rfl

theorem addSourceHead_length {param : AddSourceParam} : (addSourceHead param).length = 16 := by
  simp [addSourceHead, le16]

theorem modifySourceHead_length {param : ModifySourceParam} :
    (modifySourceHead param).length = 6 := by
  simp [modifySourceHead, le16]

theorem cpPraseData_addSource {param : AddSourceParam} (h : param.subgroups.Fits 16)
    (haddress : param.source.addressType ≤ 1) (hsid : param.source.advSid ≤ 15) :
    cpPraseData true known (addSourceHead param ++ param.subgroups.bytes) =
      .ok (.ok (.addSource param.source param.paSync param.paInterval param.subgroups.length
        (bisInfoSizeOf param.subgroups.metadata)
        (filled param.subgroups.bis param.subgroups.metadata))) := by
  have hcheck := @checkSubgroups_bytes param.subgroups (addSourceHead param) 16 addSourceHead_length
    (fun l => by simp [readAt, addSourceHead, le16, List.getElem?_append]) h.short h.few h.size_lt
    h.roomy
  rw [List.append_nil] at hcheck
  obtain ⟨check, hblock⟩ := h.prase_eq (@addSourceHead_length param)
  generalize param.subgroups.bytes = l at hcheck hblock ⊢
  have hop : readAt (addSourceHead param ++ l) 0 = .ok 2 := rfl
  have htype : readAt (addSourceHead param ++ l) 1 = .ok param.source.addressType := rfl
  have hsidAt : readAt (addSourceHead param ++ l) 8 = .ok param.source.advSid := by
    simp [readAt, addSourceHead]
  have hpa : readAt (addSourceHead param ++ l) 12 = .ok (paSyncByte param.paSync) := by
    simp [readAt, addSourceHead, List.getElem?_append]
  have hnum : readAt (addSourceHead param ++ l) 15 = .ok (UInt8.ofNat param.subgroups.length) := by
    simp [readAt, addSourceHead, le16, List.getElem?_append]
  have haddressAt : readArray 6 (addSourceHead param ++ l) 2 = .ok param.source.address := by
    have hread := @readArray_pre [2, param.source.addressType] (param.source.address.toList ++
      ([param.source.advSid] ++ param.source.broadcastId.toList ++ [paSyncByte param.paSync] ++
        le16 param.paInterval ++ [UInt8.ofNat param.subgroups.length] ++ l)) 0 6
    rw [readArray_toList] at hread
    simpa [addSourceHead] using hread
  have hidAt : readArray 3 (addSourceHead param ++ l) 9 = .ok param.source.broadcastId := by
    have hread := @readArray_pre ([2, param.source.addressType] ++ param.source.address.toList ++
      [param.source.advSid]) (param.source.broadcastId.toList ++ ([paSyncByte param.paSync] ++
        le16 param.paInterval ++ [UInt8.ofNat param.subgroups.length] ++ l)) 0 3
    rw [readArray_toList] at hread
    simpa [addSourceHead] using hread
  have hinterval : read16 (addSourceHead param ++ l) 13 = .ok param.paInterval := by
    have hread := @readArray_pre ([2, param.source.addressType] ++ param.source.address.toList ++
      [param.source.advSid] ++ param.source.broadcastId.toList ++ [paSyncByte param.paSync])
      (le16 param.paInterval ++ ([UInt8.ofNat param.subgroups.length] ++ l)) 0 2
    have hvalue := @read16_le16 ([UInt8.ofNat param.subgroups.length] ++ l) param.paInterval
    unfold read16 at hvalue ⊢
    rw [← hread] at hvalue
    simpa [addSourceHead] using hvalue
  have hle : ¬(1 < param.source.addressType ∨ 15 < param.source.advSid) :=
    fun hor => hor.elim (UInt8.not_lt.mpr haddress) (UInt8.not_lt.mpr hsid)
  simp only [cpPraseData, hop, cpCheckMsgLen, if_true, hcheck, bind, Except.bind, praseAddSource,
    htype, haddressAt, hsidAt, hidAt, hpa, hinterval, hnum, toNat_ofNat_few h.few, hblock,
    paSyncOf_byte, if_neg hle]
  rfl

theorem cpPraseData_modifySource {param : ModifySourceParam} (h : param.subgroups.Fits 6)
    (hknown : param.sourceId = 0xff ∨ known param.sourceId = true) :
    cpPraseData true known (modifySourceHead param ++ param.subgroups.bytes) =
      .ok (.ok (.modifySource param.sourceId param.paSync param.paInterval param.subgroups.length
        (bisInfoSizeOf param.subgroups.metadata)
        (filled param.subgroups.bis param.subgroups.metadata))) := by
  have hcheck := @checkSubgroups_bytes param.subgroups (modifySourceHead param) 6
    modifySourceHead_length (fun l => rfl) h.short h.few h.size_lt h.roomy
  rw [List.append_nil] at hcheck
  obtain ⟨check, hblock⟩ := h.prase_eq (@modifySourceHead_length param)
  generalize param.subgroups.bytes = l at hcheck hblock ⊢
  have hop : readAt (modifySourceHead param ++ l) 0 = .ok 3 := rfl
  have hid : readAt (modifySourceHead param ++ l) 1 = .ok param.sourceId := rfl
  have hpa : readAt (modifySourceHead param ++ l) 2 = .ok (paSyncByte param.paSync) := rfl
  have hnum : readAt (modifySourceHead param ++ l) 5 = .ok (UInt8.ofNat param.subgroups.length) :=
    rfl
  have hinterval : read16 (modifySourceHead param ++ l) 3 = .ok param.paInterval := by
    have hread := @readArray_pre [3, param.sourceId, paSyncByte param.paSync]
      (le16 param.paInterval ++ ([UInt8.ofNat param.subgroups.length] ++ l)) 0 2
    have hvalue := @read16_le16 ([UInt8.ofNat param.subgroups.length] ++ l) param.paInterval
    unfold read16 at hvalue ⊢
    rw [← hread] at hvalue
    simpa [modifySourceHead] using hvalue
  have hsource : checkSourceId known param.sourceId
      (.modifySource param.sourceId param.paSync param.paInterval param.subgroups.length
        (bisInfoSizeOf param.subgroups.metadata)
        (filled param.subgroups.bis param.subgroups.metadata)) =
      .ok (.modifySource param.sourceId param.paSync param.paInterval param.subgroups.length
        (bisInfoSizeOf param.subgroups.metadata)
        (filled param.subgroups.bis param.subgroups.metadata)) := by
    unfold checkSourceId
    rw [if_neg]
    rintro ⟨hne, hfalse⟩
    rcases hknown with hff | htrue
    . exact hne hff
    . rw [htrue] at hfalse
      cases hfalse
  simp only [cpPraseData, hop, cpCheckMsgLen, if_neg (show ¬(5 : UInt8) < 3 by decide),
    if_neg (show ¬(3 : UInt8) = 2 by decide), if_neg (show ¬(3 : UInt8) = 0 by decide),
    if_neg (show ¬(3 : UInt8) = 1 by decide), if_true, hcheck, bind, Except.bind,
    praseModifySource, hid, hpa, hinterval, hnum, toNat_ofNat_few h.few, hblock, paSyncOf_byte,
    hsource]
  rfl

theorem bySyncInfo_eq (hadvance : Advances (fun _ => firstLen tbl.metadata) tbl.metadata)
    (hroomy : Roomy tbl.metadata)
    (hbis : bisArray = noPrefer ∨
      bisArray = tbl.bis.foldl (fun temp b => temp ||| (b &&& bisArray)) 0) :
    bySyncInfo bisArray (some tbl) =
      .ok (some (tbl.subgroups.map fun subgroup =>
        (if bisArray = noPrefer then noPrefer else subgroup.bis &&& bisArray,
          subgroup.metadata))) := by
  have hcond : ¬(bisArray ≠ noPrefer ∧
      bisArray ≠ tbl.bis.foldl (fun temp b => temp ||| (b &&& bisArray)) 0) := by
    rintro ⟨hne, hne'⟩
    exact hbis.elim hne hne'
  let subgroups : Contents := tbl.subgroups.map fun subgroup =>
    (if bisArray = noPrefer then noPrefer else subgroup.bis &&& bisArray, subgroup.metadata)
  have hmetadata : tbl.metadata = subgroups.metadata := by
    simp [subgroups, SubgroupTbl.metadata, Contents.metadata]
  have hbisSyncs : (tbl.bis.map fun b => if bisArray = noPrefer then noPrefer else b &&& bisArray) =
      subgroups.bis := by
    simp [subgroups, SubgroupTbl.bis, Contents.bis]
  have hfill := @fillBisInfo_eq _ subgroups.bis tbl.metadata hadvance hroomy
  have hcontents := @filled_contents subgroups (hmetadata ▸ hroomy)
  rw [← hmetadata] at hcontents
  simp only [bySyncInfo, if_neg hcond, hbisSyncs, hfill, hcontents, bind, Except.bind]
  rfl

end

section

variable {data : BrsData} {old : RemoteBrs} {block : BisBlock} {num size : Nat}
  {supplied : List (List UInt8)}

def blockContents : Option BisBlock → Except Stuck Contents
  | none => .ok []
  | some block => block.contents

structure RemoteBrs.Shows (brs : RemoteBrs) (data : BrsData) : Prop where
  brsIsUsed : brs.brsIsUsed = data.brsIsUsed
  sourceId : brs.sourceId = data.sourceId
  sourceAddressType : brs.sourceAddressType = data.sourceAddressType
  sourceAddress : brs.sourceAddress = data.sourceAddress
  sourceAdvSid : brs.sourceAdvSid = data.sourceAdvSid
  broadcastId : brs.broadcastId = data.broadcastId
  paSyncState : brs.paSyncState = paSyncStateByte data.paSyncState
  bigEncryption : brs.bigEncryption = bigEncryptionByte data.bigEncryption
  badCode : data.bigEncryption = .badCode → brs.badCode = data.badCode
  numSubgroups : brs.numSubgroups = data.numSubgroups
  bisInfoSize : brs.bisInfoSize = data.bisInfoSize
  contents : blockContents brs.pCpBisInfo = blockContents data.pCpBisInfo

structure Contents.Narrow (subgroups : Contents) : Prop where
  short : subgroups.Short
  few : subgroups.length < 256
  roomy : Roomy subgroups.metadata

theorem bisSyncState_some {bis : List UInt32} {state : UInt32} :
    ∃ state', bis.foldlM bisSyncState state = some state' := by
  induction bis generalizing state with
  | nil => exact ⟨state, rfl⟩
  | cons b rest ih => exact ih

theorem praseRemoteSubgroups_bytes {subgroups : Contents} {brs : RemoteBrs} {pre : List UInt8}
    (h : subgroups.Narrow) (hsize : brs.bisInfoSize = 0) (hblock : brs.pCpBisInfo = none) :
    ∃ state block, praseRemoteSubgroups true old brs
      (pre ++ (UInt8.ofNat subgroups.length :: subgroups.bytes)) pre.length =
        .ok (true,
          { brs with
            bisSyncState := state
            numSubgroups := subgroups.length
            bisInfoSize := bisInfoSizeOf subgroups.metadata
            pCpBisInfo := block }) ∧ blockContents block = .ok subgroups := by
  have hlen := bisInfoSizeOf_roomy h.roomy
  have hbytes := @Contents.bytes_length subgroups
  have hnum := toNat_ofNat_few h.few
  rw [Contents.metadata_length] at hlen
  unfold sizeofBisInfo at hlen
  have hroomy := h.roomy
  unfold Roomy sizeofBisInfo at hroomy
  rw [Contents.metadata_length] at hroomy
  have happend : pre ++ (UInt8.ofNat subgroups.length :: subgroups.bytes) =
      (pre ++ [UInt8.ofNat subgroups.length]) ++ (subgroups.bytes ++ []) := by simp
  have hcount := @countSubgroups_bytes subgroups (pre ++ [UInt8.ofNat subgroups.length]) []
    (pre.length + 1) 0 0 h.short (by simp) (by omega) (by omega)
  have hread : readAt (pre ++ [UInt8.ofNat subgroups.length] ++ (subgroups.bytes ++ []))
      pre.length = .ok (UInt8.ofNat subgroups.length) := by
    rw [List.append_assoc]
    exact @readAt_pre pre _ 0
  have hend : ¬(pre ++ [UInt8.ofNat subgroups.length] ++ (subgroups.bytes ++ [])).length <
      pre.length + 1 + (0 + subgroups.bytes.length) := by
    simp only [List.length_append, List.length_cons, List.length_nil]
    omega
  have hmod : (sizeofBisInfo * subgroups.length + (0 + subgroups.metadata.flatten.length)) % 65536 =
      bisInfoSizeOf subgroups.metadata := by
    rw [Nat.zero_add, bisInfoSizeOf, Contents.metadata_length]
  rw [happend]
  simp only [praseRemoteSubgroups, hread, hnum, hcount, if_neg hend, hmod, bind, Except.bind]
  by_cases hzero : bisInfoSizeOf subgroups.metadata = 0
  . have hnil : subgroups = [] := List.eq_nil_of_length_eq_zero (by omega)
    rw [if_pos hzero]
    refine ⟨brs.bisSyncState, none, ?_, by rw [hnil]; rfl⟩
    rw [hzero, ← hsize, ← hblock]
    rfl
  . obtain ⟨state, hstate⟩ := @bisSyncState_some subgroups.bis 0
    have hparse := @praseBlock_bytes subgroups (pre ++ [UInt8.ofNat subgroups.length]) []
      bisSyncState state h.short hstate h.roomy
    rw [List.length_append, List.length_cons, List.length_nil, Nat.zero_add] at hparse
    rw [if_neg hzero]
    simp only [Bool.true_eq_false, if_false, hparse]
    exact ⟨state, _, rfl, filled_contents h.roomy⟩

def charHead (data : BrsData) : List UInt8 :=
  [data.sourceId, data.sourceAddressType] ++ data.sourceAddress.toList ++ [data.sourceAdvSid] ++
    data.broadcastId.toList ++
    [paSyncStateByte data.paSyncState, bigEncryptionByte data.bigEncryption]

theorem charHead_length : (charHead data).length = 14 := by
  simp [charHead]

theorem praseHead_charHead :
    praseHead (charHead data ++ l) =
      .ok
        { RemoteBrs.zero with
          brsIsUsed := true
          sourceId := data.sourceId
          sourceAddressType := data.sourceAddressType
          sourceAddress := data.sourceAddress
          sourceAdvSid := data.sourceAdvSid
          broadcastId := data.broadcastId
          paSyncState := paSyncStateByte data.paSyncState
          bigEncryption := bigEncryptionByte data.bigEncryption } := by
  have hid : readAt (charHead data ++ l) 0 = .ok data.sourceId := rfl
  have htype : readAt (charHead data ++ l) 1 = .ok data.sourceAddressType := rfl
  have hsid : readAt (charHead data ++ l) 8 = .ok data.sourceAdvSid := by
    simp [readAt, charHead]
  have hpa : readAt (charHead data ++ l) 12 = .ok (paSyncStateByte data.paSyncState) := by
    simp [readAt, charHead, List.getElem?_append]
  have hbig : readAt (charHead data ++ l) 13 = .ok (bigEncryptionByte data.bigEncryption) := by
    simp [readAt, charHead, List.getElem?_append]
  have haddress : readArray 6 (charHead data ++ l) 2 = .ok data.sourceAddress := by
    have hread := @readArray_pre [data.sourceId, data.sourceAddressType]
      (data.sourceAddress.toList ++ ([data.sourceAdvSid] ++ data.broadcastId.toList ++
        [paSyncStateByte data.paSyncState, bigEncryptionByte data.bigEncryption] ++ l)) 0 6
    rw [readArray_toList] at hread
    simpa [charHead] using hread
  have hbroadcast : readArray 3 (charHead data ++ l) 9 = .ok data.broadcastId := by
    have hread := @readArray_pre ([data.sourceId, data.sourceAddressType] ++
      data.sourceAddress.toList ++ [data.sourceAdvSid]) (data.broadcastId.toList ++
        ([paSyncStateByte data.paSyncState, bigEncryptionByte data.bigEncryption] ++ l)) 0 3
    rw [readArray_toList] at hread
    simpa [charHead] using hread
  simp only [praseHead, hid, htype, hsid, hpa, hbig, haddress, hbroadcast, bind, Except.bind]

theorem genHead_eq : genHead data =
    charHead data ++ (if data.bigEncryption = .badCode then data.badCode.toList else []) ++
      [UInt8.ofNat data.numSubgroups] := rfl

theorem bigEncryptionByte_eq : bigEncryptionByte state = 3 ↔ state = .badCode := by
  cases state <;> decide

theorem clientPraseBrs_gen {subgroups : Contents} (hused : data.brsIsUsed = true)
    (h : subgroups.Narrow) (hnum : data.numSubgroups = subgroups.length)
    (hsize : data.bisInfoSize = bisInfoSizeOf subgroups.metadata)
    (hcontents : blockContents data.pCpBisInfo = .ok subgroups) :
    ∃ brs, clientPraseBrs true old (genHead data ++ subgroups.bytes) = .ok (true, brs) ∧
      brs.Shows data := by
  have hlong : 15 ≤ (genHead data ++ subgroups.bytes).length := by
    rw [genHead_eq]
    simp only [List.length_append, charHead_length, List.length_cons, List.length_nil]
    omega
  unfold clientPraseBrs
  rw [if_neg (by omega), if_neg (by omega)]
  -- the code of 16 bytes is there only with a bad code, and moves the subgroups back
  by_cases hbad : data.bigEncryption = .badCode
  . have hbytes : genHead data ++ subgroups.bytes =
        charHead data ++ (data.badCode.toList ++
          (UInt8.ofNat subgroups.length :: subgroups.bytes)) := by
      rw [genHead_eq, if_pos hbad, hnum]
      simp
    have hcode : readArray 16 (charHead data ++ (data.badCode.toList ++
        (UInt8.ofNat subgroups.length :: subgroups.bytes))) 14 = .ok data.badCode := by
      have hread := @readArray_pre (charHead data) (data.badCode.toList ++
        (UInt8.ofNat subgroups.length :: subgroups.bytes)) 0 16
      rw [readArray_toList, charHead_length] at hread
      exact hread
    have hbig : bigEncryptionByte data.bigEncryption = 3 := bigEncryptionByte_eq.mpr hbad
    have hlong' : ¬(charHead data ++ (data.badCode.toList ++
        (UInt8.ofNat subgroups.length :: subgroups.bytes))).length < 31 := by
      simp only [List.length_append, charHead_length, List.length_cons, Vector.length_toList]
      omega
    simp only [hbytes, praseHead_charHead, hbig, if_true, if_neg hlong', hcode, bind, Except.bind]
    obtain ⟨state, block, hprase, hblock⟩ := @praseRemoteSubgroups_bytes old subgroups
      { RemoteBrs.zero with
        brsIsUsed := true
        sourceId := data.sourceId
        sourceAddressType := data.sourceAddressType
        sourceAddress := data.sourceAddress
        sourceAdvSid := data.sourceAdvSid
        broadcastId := data.broadcastId
        paSyncState := paSyncStateByte data.paSyncState
        bigEncryption := 3
        badCode := data.badCode } (charHead data ++ data.badCode.toList) h rfl rfl
    rw [List.append_assoc, List.length_append, charHead_length, Vector.length_toList] at hprase
    exact ⟨_, hprase, hused.symm, rfl, rfl, rfl, rfl, rfl, rfl, hbig.symm, fun _ => rfl, hnum.symm,
      hsize.symm, hblock.trans hcontents.symm⟩
  . have hbytes : genHead data ++ subgroups.bytes =
        charHead data ++ (UInt8.ofNat subgroups.length :: subgroups.bytes) := by
      rw [genHead_eq, if_neg hbad, hnum]
      simp
    have hbig : ¬bigEncryptionByte data.bigEncryption = 3 :=
      fun h => hbad (bigEncryptionByte_eq.mp h)
    simp only [hbytes, praseHead_charHead, if_neg hbig, bind, Except.bind]
    obtain ⟨state, block, hprase, hblock⟩ := @praseRemoteSubgroups_bytes old subgroups
      { RemoteBrs.zero with
        brsIsUsed := true
        sourceId := data.sourceId
        sourceAddressType := data.sourceAddressType
        sourceAddress := data.sourceAddress
        sourceAdvSid := data.sourceAdvSid
        broadcastId := data.broadcastId
        paSyncState := paSyncStateByte data.paSyncState
        bigEncryption := bigEncryptionByte data.bigEncryption } (charHead data) h rfl rfl
    rw [charHead_length] at hprase
    exact ⟨_, hprase, hused.symm, rfl, rfl, rfl, rfl, rfl, rfl, rfl, fun h => absurd h hbad,
      hnum.symm, hsize.symm, hblock.trans hcontents.symm⟩

structure BrsData.Narrow (data : BrsData) (supplied : List (List UInt8)) : Prop where
  short : ∀ metadata ∈ supplied, metadata.length < 256
  few : data.numSubgroups < 256
  size : data.bisInfoSize < 65536

theorem Laid.genSubgroups_contents
    (h : Laid data.pCpBisInfo data.numSubgroups data.bisInfoSize supplied)
    (hnarrow : data.Narrow supplied) :
    ∃ subgroups : Contents, subgroups.Narrow ∧ data.numSubgroups = subgroups.length ∧
      data.bisInfoSize = bisInfoSizeOf subgroups.metadata ∧
      blockContents data.pCpBisInfo = .ok subgroups ∧
      genSubgroups data.pCpBisInfo 0 data.numSubgroups = .ok subgroups.bytes := by
  cases hblock : data.pCpBisInfo with
  | none =>
    have hnum := h.null.mp hblock
    have hsize := h.extent
    rw [hblock, hnum] at hsize
    refine ⟨[], ⟨fun _ hmem => (List.not_mem_nil hmem).elim, by decide, ?_⟩, hnum, hsize, rfl, ?_⟩
    . unfold Roomy
      decide
    . rw [hnum]
      rfl
  | some block =>
    have hholds := h.block block hblock
    have hnum := hholds.held_length
    have hmetadata := hholds.held_metadata
    have harea := hholds.area
    have hsmall := hnarrow.size
    have hroomy : Roomy supplied := by
      unfold Roomy
      rw [hholds.given, ← hholds.total, ← harea]
      exact hsmall
    refine ⟨block.held supplied, ⟨fun x hx => ?_, ?_, ?_⟩, hnum.symm, ?_, hholds.contents_eq, ?_⟩
    . exact hnarrow.short x.2 (List.of_mem_zip hx).2
    . rw [hnum]
      exact hnarrow.few
    . rw [hmetadata]
      exact hroomy
    . rw [hmetadata, bisInfoSizeOf_roomy hroomy, hholds.given, ← hholds.total]
      exact harea
    . have hgen := genSubgroups_bytes hholds (Nat.zero_add data.numSubgroups)
      rw [List.drop_zero] at hgen
      exact hgen

theorem clientPraseBrs_genCharData (hused : data.brsIsUsed = true)
    (h : Laid data.pCpBisInfo data.numSubgroups data.bisInfoSize supplied)
    (hnarrow : data.Narrow supplied) :
    ∃ bytes brs, genCharData data = .ok bytes ∧
      clientPraseBrs true old bytes = .ok (true, brs) ∧ brs.Shows data := by
  obtain ⟨subgroups, hsub, hnum, hsize, hcontents, hgen⟩ := h.genSubgroups_contents hnarrow
  obtain ⟨bytes, hbytes⟩ := h.genCharData_ok
  obtain ⟨brs, hprase, hshows⟩ := @clientPraseBrs_gen data old subgroups hused hsub hnum hsize
    hcontents
  have heq : bytes = genHead data ++ subgroups.bytes := by
    unfold genCharData at hbytes
    rw [hused, if_pos rfl] at hbytes
    simp only [hgen, bind, Except.bind] at hbytes
    split_ifs at hbytes
    cases hbytes
    rfl
  exact ⟨bytes, brs, hbytes, heq ▸ hprase, hshows⟩

end

section

variable {tbl : SubgroupTbl} {info : SyncInfo} {bisArray : UInt32} {minLen : Nat}

def SubgroupTbl.Fits (tbl : SubgroupTbl) (minLen : Nat) : Prop :=
  minLen + sizeofBisInfo * tbl.subgroups.length + tbl.metadata.flatten.length < 65536 ∧
    Exclusive tbl.bis

theorem SubgroupTbl.contents_metadata : tbl.contents.metadata = tbl.metadata := by
  simp [SubgroupTbl.contents, SubgroupTbl.metadata, Contents.metadata]

theorem SubgroupTbl.contents_length : tbl.contents.length = tbl.subgroups.length :=
  List.length_map ..

theorem SubgroupTbl.contents_fits (h : tbl.Fits minLen) : tbl.contents.Fits minLen := by
  have hbis : tbl.contents.bis = tbl.bis := by
    simp [SubgroupTbl.contents, SubgroupTbl.bis, Contents.bis]
  constructor
  . intro x hx
    obtain ⟨subgroup, -, rfl⟩ := List.mem_map.mp hx
    exact subgroup.short
  . rw [SubgroupTbl.contents_length]
    exact tbl.few
  . rw [SubgroupTbl.contents_length, SubgroupTbl.contents_metadata]
    exact h.1
  . rw [hbis]
    exact h.2

def Subgroup.mask (bisArray : UInt32) (subgroup : Subgroup) : Subgroup :=
  { subgroup with bis := if bisArray = noPrefer then noPrefer else subgroup.bis &&& bisArray }

def SyncInfo.subgroupTbl (info : SyncInfo) (bisArray : UInt32) : SubgroupTbl :=
  match info.baseMapping with
  | none => ⟨[⟨bisArray, [], Subgroup.short_nil⟩], by rw [List.length_singleton]; decide⟩
  | some tbl => ⟨tbl.subgroups.map (Subgroup.mask bisArray), by rw [List.length_map]; exact tbl.few⟩

def SyncInfo.Even (info : SyncInfo) (bisArray : UInt32) : Prop :=
  ∀ tbl, info.baseMapping = some tbl →
    Advances (fun _ => firstLen tbl.metadata) tbl.metadata ∧
      (bisArray = noPrefer ∨ bisArray = tbl.bis.foldl (fun temp b => temp ||| (b &&& bisArray)) 0)

theorem bySyncInfo_tbl (hfits : (info.subgroupTbl bisArray).Fits minLen)
    (heven : info.Even bisArray) :
    bySyncInfo bisArray info.baseMapping = .ok (some (info.subgroupTbl bisArray).contents) := by
  have hroomy := (SubgroupTbl.contents_fits hfits).roomy
  rw [SubgroupTbl.contents_metadata] at hroomy
  unfold SyncInfo.subgroupTbl at hroomy ⊢
  cases hmapping : info.baseMapping with
  | none => rfl
  | some tbl =>
    obtain ⟨hadvance, hbis⟩ := heven tbl hmapping
    rw [hmapping] at hroomy
    have hmetadata : (⟨tbl.subgroups.map (Subgroup.mask bisArray), by
        rw [List.length_map]; exact tbl.few⟩ : SubgroupTbl).metadata = tbl.metadata := by
      simp only [SubgroupTbl.metadata, List.map_map]
      rfl
    rw [bySyncInfo_eq hadvance (hmetadata ▸ hroomy) hbis]
    simp only [SubgroupTbl.contents, List.map_map]
    rfl

def Parsed (known : UInt8 → Bool) (built : Except Stuck (Option (List UInt8))) (tbl : SubgroupTbl)
    (data : Nat → Nat → BisBlock → CpData) : Prop :=
  ∃ bytes block, built = .ok (some bytes) ∧
    cpPraseData true known bytes =
      .ok (.ok (data tbl.subgroups.length (bisInfoSizeOf tbl.metadata) block)) ∧
    block.contents = .ok tbl.contents

theorem addSource_parsed {known : UInt8 → Bool} {source : Source} {paSync : PaSync}
    {paInterval : UInt16} (haddress : source.addressType ≤ 1) (hsid : source.advSid ≤ 15)
    (hfits : tbl.Fits 16) :
    Parsed known (cpAddSource ⟨source, paSync, paInterval, tbl.contents⟩) tbl
      (.addSource source paSync paInterval) := by
  have hcontents := SubgroupTbl.contents_fits hfits
  have hprase := @cpPraseData_addSource known ⟨source, paSync, paInterval, tbl.contents⟩ hcontents
    haddress hsid
  rw [SubgroupTbl.contents_metadata, SubgroupTbl.contents_length] at hprase
  have hblock := filled_contents hcontents.roomy
  rw [SubgroupTbl.contents_metadata] at hblock
  exact ⟨_, _, cpAddSource_eq hcontents, hprase, hblock⟩

theorem modifySource_parsed {known : UInt8 → Bool} {sourceId : UInt8} {paSync : PaSync}
    {paInterval : UInt16} (hknown : sourceId = 0xff ∨ known sourceId = true)
    (hfits : tbl.Fits 6) :
    Parsed known (cpModifySource ⟨sourceId, paSync, paInterval, tbl.contents⟩) tbl
      (.modifySource sourceId paSync paInterval) := by
  have hcontents := SubgroupTbl.contents_fits hfits
  have hprase := @cpPraseData_modifySource known ⟨sourceId, paSync, paInterval, tbl.contents⟩
    hcontents hknown
  rw [SubgroupTbl.contents_metadata, SubgroupTbl.contents_length] at hprase
  have hblock := filled_contents hcontents.roomy
  rw [SubgroupTbl.contents_metadata] at hblock
  exact ⟨_, _, cpModifySource_eq hcontents, hprase, hblock⟩

theorem cpAddSourceBySyncInfo_eq {paSync : PaSync} (hfits : (info.subgroupTbl bisArray).Fits minLen)
    (heven : info.Even bisArray) :
    cpAddSourceBySyncInfo info paSync bisArray =
      cpAddSource ⟨info.source, paSync, info.interval, (info.subgroupTbl bisArray).contents⟩ := by
  unfold cpAddSourceBySyncInfo
  rw [bySyncInfo_tbl hfits heven]
  rfl

theorem cpModifySourceBySyncInfo_eq {sourceId : UInt8} {paSync : PaSync}
    (hfits : (info.subgroupTbl bisArray).Fits minLen) (heven : info.Even bisArray) :
    cpModifySourceBySyncInfo info sourceId paSync bisArray =
      cpModifySource ⟨sourceId, paSync, info.interval, (info.subgroupTbl bisArray).contents⟩ := by
  unfold cpModifySourceBySyncInfo
  rw [bySyncInfo_tbl hfits heven]
  rfl

theorem bass_agree :
    (∀ known source paSync paInterval tbl, source.addressType ≤ 1 → source.advSid ≤ 15 →
      tbl.Fits 16 → Parsed known (cpAddSource ⟨source, paSync, paInterval, tbl.contents⟩) tbl
        (.addSource source paSync paInterval)) ∧
    (∀ known sourceId paSync paInterval tbl, sourceId = 0xff ∨ known sourceId = true →
      tbl.Fits 6 → Parsed known (cpModifySource ⟨sourceId, paSync, paInterval, tbl.contents⟩) tbl
        (.modifySource sourceId paSync paInterval)) ∧
    (∀ known info paSync bisArray, info.source.addressType ≤ 1 → info.source.advSid ≤ 15 →
      (info.subgroupTbl bisArray).Fits 16 → info.Even bisArray →
      Parsed known (cpAddSourceBySyncInfo info paSync bisArray) (info.subgroupTbl bisArray)
        (.addSource info.source paSync info.interval)) ∧
    (∀ known info sourceId paSync bisArray, sourceId = 0xff ∨ known sourceId = true →
      (info.subgroupTbl bisArray).Fits 6 → info.Even bisArray →
      Parsed known (cpModifySourceBySyncInfo info sourceId paSync bisArray)
        (info.subgroupTbl bisArray) (.modifySource sourceId paSync info.interval)) ∧
    (∀ (old : RemoteBrs) (data : BrsData) supplied, data.brsIsUsed = true →
      Laid data.pCpBisInfo data.numSubgroups data.bisInfoSize supplied → data.Narrow supplied →
      ∃ bytes brs, genCharData data = .ok bytes ∧
        clientPraseBrs true old bytes = .ok (true, brs) ∧ brs.Shows data) ∧
    (∀ memory (old : RemoteBrs) (data : BrsData), data.brsIsUsed = false →
      old.pCpBisInfo ≠ none → genCharData data = .ok [] ∧
        clientPraseBrs memory old [] = .ok (true, .zero)) ∧
    (∀ memory known (bytes : List UInt8), bytes ≠ [] → bytes.length ≤ maxLen →
      ∃ r, cpPraseData memory known bytes = .ok r) ∧
    ∀ memory (old : RemoteBrs) (bytes : List UInt8), bytes.length ≤ maxLen →
      ∃ r, clientPraseBrs memory old bytes = .ok r ∧ (r.1 = false → r.2 = old) := by
  refine ⟨?_, ?_, ?_, ?_, ?_, ?_, ?_, ?_⟩
  . intro known source paSync paInterval tbl haddress hsid hfits
    exact addSource_parsed haddress hsid hfits
  . intro known sourceId paSync paInterval tbl hknown hfits
    exact modifySource_parsed hknown hfits
  . intro known info paSync bisArray haddress hsid hfits heven
    rw [cpAddSourceBySyncInfo_eq hfits heven]
    exact addSource_parsed haddress hsid hfits
  . intro known info sourceId paSync bisArray hknown hfits heven
    rw [cpModifySourceBySyncInfo_eq hfits heven]
    exact modifySource_parsed hknown hfits
  . intro old data supplied hused hlaid hnarrow
    exact clientPraseBrs_genCharData hused hlaid hnarrow
  . intro memory old data hunused hblock
    constructor
    . unfold genCharData
      rw [hunused]
      rfl
    . unfold clientPraseBrs
      rw [if_pos List.length_nil, if_pos hblock]
      rfl
  . intro memory known bytes hne hlen
    exact cpPraseData_safe memory known hne hlen
  . intro memory old bytes hlen
    exact clientPraseBrs_safe memory old hlen

def evenBase : SubgroupTbl := ⟨[⟨1, [3, 2, 4], by decide⟩, ⟨2, [3, 2, 2], by decide⟩], by decide⟩

def evenInfo : SyncInfo := { source, paInterval := 0, baseMapping := some evenBase }

def knownBrs : RemoteBrs :=
  { RemoteBrs.zero with
    brsIsUsed := true
    numSubgroups := 1
    bisInfoSize := 12
    pCpBisInfo := some { size := 12, infos := [⟨1, 0, none⟩], area := [] } }

theorem bass_agree_even :
    (∃ bytes, cpAddSource ⟨source, .syncPast, 40, evenBase.contents⟩ = .ok (some bytes)) ∧
      (∃ bytes, cpModifySource ⟨1, .syncPast, 40, evenBase.contents⟩ = .ok (some bytes)) ∧
      (∃ bytes, cpAddSourceBySyncInfo evenInfo .syncPast 3 = .ok (some bytes)) ∧
      (∃ bytes, cpModifySourceBySyncInfo evenInfo 1 .syncPast noPrefer = .ok (some bytes)) ∧
      (∃ brs, clientPraseBrs true knownBrs (genHead { (BrsDb.zeroed 1).brsData with
        brsIsUsed := true }) = .ok (true, brs)) ∧
      clientPraseBrs true knownBrs [] = .ok (true, .zero) ∧
      (∃ r, cpPraseData true (fun _ => true) [5, 1] = .ok r) ∧
      ∃ r, clientPraseBrs true knownBrs [1, 2] = .ok r ∧ (r.1 = false → r.2 = knownBrs) := by
  obtain ⟨hadd, hmodify, haddSync, hmodifySync, hused, hunused, hserver, hclient⟩ := bass_agree
  have heven : ∀ bisArray, (bisArray = noPrefer ∨
      bisArray = evenBase.bis.foldl (fun temp b => temp ||| (b &&& bisArray)) 0) →
      evenInfo.Even bisArray := by
    intro bisArray hbis tbl htbl
    cases htbl
    exact ⟨⟨fun _ _ => rfl, fun _ _ => rfl, trivial⟩, hbis⟩
  refine ⟨?_, ?_, ?_, ?_, ?_, ?_, ?_, ?_⟩
  . obtain ⟨bytes, -, hbytes, -⟩ := hadd (fun _ => true) source .syncPast 40 evenBase (by decide)
      (by decide) ⟨by decide, by decide⟩
    exact ⟨bytes, hbytes⟩
  . obtain ⟨bytes, -, hbytes, -⟩ := hmodify (fun _ => true) 1 .syncPast 40 evenBase (.inr rfl)
      ⟨by decide, by decide⟩
    exact ⟨bytes, hbytes⟩
  . obtain ⟨bytes, -, hbytes, -⟩ := haddSync (fun _ => true) evenInfo .syncPast 3 (by decide)
      (by decide) ⟨by decide, by decide⟩ (heven 3 (.inr rfl))
    exact ⟨bytes, hbytes⟩
  . obtain ⟨bytes, -, hbytes, -⟩ := hmodifySync (fun _ => true) evenInfo 1 .syncPast noPrefer
      (.inr rfl) ⟨by decide, by decide⟩ (heven noPrefer (.inl rfl))
    exact ⟨bytes, hbytes⟩
  . obtain ⟨bytes, brs, hbytes, hprase, -⟩ := hused knownBrs
      { (BrsDb.zeroed 1).brsData with brsIsUsed := true } [] rfl (laid_none [])
      ⟨nofun, by decide, by decide⟩
    cases hbytes
    exact ⟨brs, hprase⟩
  . exact (hunused true knownBrs (BrsDb.zeroed 1).brsData rfl (Option.some_ne_none _)).2
  . exact hserver true (fun _ => true) [5, 1] (List.cons_ne_nil _ _) (by decide)
  . exact hclient true knownBrs [1, 2] (by decide)

theorem not_bass_agree :
    (¬∀ known source paSync paInterval tbl, tbl.Fits 16 →
      Parsed known (cpAddSource ⟨source, paSync, paInterval, tbl.contents⟩) tbl
        (.addSource source paSync paInterval)) ∧
    (¬∀ (old : RemoteBrs) (data : BrsData), data.brsIsUsed = false →
      ∃ bytes brs, genCharData data = .ok bytes ∧
        clientPraseBrs true old bytes = .ok (true, brs) ∧ brs.brsIsUsed = data.brsIsUsed) ∧
    ¬∀ memory known (bytes : List UInt8), ∃ r, cpPraseData memory known bytes = .ok r := by
  refine ⟨fun h => ?_, fun h => ?_, fun h => ?_⟩
  . obtain ⟨bytes, block, hbytes, hprase, -⟩ := h (fun _ => true)
      { source with addressType := 2 } .syncPast 40 evenBase ⟨by decide, by decide⟩
    cases hbytes
    cases hprase
  . obtain ⟨bytes, brs, hbytes, hprase, hused⟩ := h { RemoteBrs.zero with brsIsUsed := true }
      (BrsDb.zeroed 1).brsData rfl
    cases hbytes
    cases hprase
    cases hused
  . obtain ⟨r, hr⟩ := h true (fun _ => true) []
    cases hr

end

end Brs
