import Earphone.Bass.BrsBlock

namespace Brs

open Scan Slices
open Bass (PaSyncState PaSync BigEncryptionState)

def SubgroupTbl.contents (tbl : SubgroupTbl) : Contents :=
  tbl.subgroups.map fun subgroup => (subgroup.bis, subgroup.metadata)

def le16 (n : UInt16) : List UInt8 := [n.toUInt8, (n >>> 8).toUInt8]

def paSyncByte : PaSync → UInt8
  | .notSync => 0
  | .syncPast => 1
  | .syncNoPast => 2

structure AddSourceParam where
  source : Source
  paSync : PaSync
  paInterval : UInt16
  subgroups : Contents

structure ModifySourceParam where
  sourceId : UInt8
  paSync : PaSync
  paInterval : UInt16
  subgroups : Contents

def genCpSubgroups (allocated memSize : Nat) : Nat → Contents → Except Stuck (Option (List UInt8))
  | _, [] => .ok (some [])
  | idx, subgroup :: rest =>
    if allocated < idx + 5 then
      .error .overflow
    else if memSize < idx + 5 + subgroup.2.length then
      .ok none
    else do
      let bytes ← genCpSubgroups allocated memSize (idx + 5 + subgroup.2.length) rest
      return bytes.map (subgroupBytes subgroup ++ ·)

def addSourceHead (param : AddSourceParam) : List UInt8 :=
  [2, param.source.addressType] ++ param.source.address.toList ++ [param.source.advSid] ++
    param.source.broadcastId.toList ++ [paSyncByte param.paSync] ++ le16 param.paInterval ++
    [UInt8.ofNat param.subgroups.length]

def cpAddSource (param : AddSourceParam) : Except Stuck (Option (List UInt8)) :=
  let memSize := (16 + bisInfoSizeOf param.subgroups.metadata) % 65536
  if memSize < 16 then
    .error .overflow
  else do
    let bytes ← genCpSubgroups memSize memSize 16 param.subgroups
    return bytes.map (addSourceHead param ++ ·)

def modifySourceHead (param : ModifySourceParam) : List UInt8 :=
  [3, param.sourceId, paSyncByte param.paSync] ++ le16 param.paInterval ++
    [UInt8.ofNat param.subgroups.length]

def cpModifySource (param : ModifySourceParam) : Except Stuck (Option (List UInt8)) := do
  let size := 6 + bisInfoSizeOf param.subgroups.metadata
  let bytes ← genCpSubgroups size (size % 65536) 6 param.subgroups
  return bytes.map (modifySourceHead param ++ ·)

structure SyncInfo where
  source : Source
  paInterval : UInt16
  baseMapping : Option SubgroupTbl

def bySyncInfo (bisArray : UInt32) (mapping : Option SubgroupTbl) :
    Except Stuck (Option Contents) :=
  match mapping with
  | none => .ok (some [(bisArray, [])])
  | some tbl =>
    if bisArray ≠ noPrefer ∧
        bisArray ≠ tbl.bis.foldl (fun temp b => temp ||| (b &&& bisArray)) 0 then
      .ok none
    else do
      let bisSyncs := tbl.bis.map fun b => if bisArray = noPrefer then noPrefer else b &&& bisArray
      let block ← fillBisInfo (fun _ => firstLen tbl.metadata) bisSyncs tbl.metadata
        (bisInfoSizeOf tbl.metadata)
      let contents ← block.contents
      return some contents

def SyncInfo.interval (info : SyncInfo) : UInt16 :=
  if info.paInterval = 0 then 0xFFFF else info.paInterval

def cpAddSourceBySyncInfo (info : SyncInfo) (paSync : PaSync) (bisArray : UInt32) :
    Except Stuck (Option (List UInt8)) := do
  match ← bySyncInfo bisArray info.baseMapping with
  | none => return none
  | some subgroups =>
    cpAddSource { source := info.source, paSync, paInterval := info.interval, subgroups }

def cpModifySourceBySyncInfo (info : SyncInfo) (sourceId : UInt8) (paSync : PaSync)
    (bisArray : UInt32) : Except Stuck (Option (List UInt8)) := do
  match ← bySyncInfo bisArray info.baseMapping with
  | none => return none
  | some subgroups =>
    cpModifySource { sourceId, paSync, paInterval := info.interval, subgroups }

def readAt (bytes : List UInt8) (i : Nat) : Except Stuck UInt8 :=
  match bytes[i]? with
  | some b => .ok b
  | none => .error .outside

def readArray (n : Nat) (bytes : List UInt8) (i : Nat) : Except Stuck (Vector UInt8 n) :=
  if h : i + n ≤ bytes.length then
    .ok (.ofFn fun k => bytes.get ⟨i + k.val, Nat.lt_of_lt_of_le (Nat.add_lt_add_left k.isLt i) h⟩)
  else
    .error .outside

def read16 (bytes : List UInt8) (i : Nat) : Except Stuck UInt16 := do
  let a ← readArray 2 bytes i
  return UInt16.ofNat (a[0].toNat + 256 * a[1].toNat)

def read32 (bytes : List UInt8) (i : Nat) : Except Stuck UInt32 := do
  let a ← readArray 4 bytes i
  return UInt32.ofNat (a[0].toNat + 256 * a[1].toNat + 65536 * a[2].toNat + 16777216 * a[3].toNat)

def countSubgroups (bytes : List UInt8) (base : Nat) :
    Nat → Nat → Nat → Except Stuck (Option (Nat × Nat))
  | 0, size, metadataLen => .ok (some (size, metadataLen))
  | n + 1, size, metadataLen =>
    let size := (size + 5) % 65536
    if bytes.length < base + size then
      .ok none
    else if base + size = 0 then
      .error .outside
    else do
      let len ← readAt bytes (base + size - 1)
      countSubgroups bytes base n ((size + len.toNat) % 65536) ((metadataLen + len.toNat) % 65536)

def copyMetadata (bytes : List UInt8) (i len p : Nat) (area : List UInt8) :
    Except Stuck (List UInt8) :=
  if 0 < len then do
    let metadata ← bytesAt bytes i len
    copyTo area p metadata
  else
    .ok area

def praseSubgroups (add : UInt32 → UInt32 → Option UInt32) (bytes : List UInt8) :
    Nat → Nat → Nat → UInt32 → Nat → List UInt8 →
      Except Stuck (Option (UInt32 × List BisInfo × List UInt8))
  | 0, _, _, bisSync, _, area => .ok (some (bisSync, [], area))
  | _ + 1, 0, _, _, _, _ => .error .overflow
  | n + 1, room + 1, idx, bisSync, p, area => do
    let bis ← read32 bytes idx
    match add bisSync bis with
    | none => return none
    | some bisSync => do
      let len ← readAt bytes (idx + 4)
      let area ← copyMetadata bytes (idx + 5) len.toNat p area
      let r ← praseSubgroups add bytes n room (idx + 5 + len.toNat) bisSync (p + len.toNat) area
      let info : BisInfo :=
        { bisSync := bis
          metadataLen := len.toNat
          pMetadata := if 0 < len.toNat then some p else none }
      return r.map fun x => (x.1, info :: x.2.1, x.2.2)

def praseBlock (add : UInt32 → UInt32 → Option UInt32) (bytes : List UInt8) (n idx size : Nat) :
    Except Stuck (Option (UInt32 × BisBlock)) := do
  let r ← praseSubgroups add bytes n (size / sizeofBisInfo) idx 0 0
    (.replicate (size - sizeofBisInfo * n) 0)
  return r.map fun x => (x.1, { size, infos := x.2.1, area := x.2.2 })

inductive CpError where
  | opcodeNotSupport
  | writeRequestRejected
  | minApplicCode
  | invalidSrcId

inductive CpData where
  | remoteScanStop
  | remoteScanStart
  | addSource (source : Source) (paSync : PaSync) (paInterval : UInt16) (numSubgroups : Nat)
    (bisInfoSize : Nat) (pCpBisInfo : BisBlock)
  | modifySource (sourceId : UInt8) (paSync : PaSync) (paInterval : UInt16) (numSubgroups : Nat)
    (bisInfoSize : Nat) (pCpBisInfo : BisBlock)
  | setBroadcastCode (sourceId : UInt8) (broadcastCode : Vector UInt8 16)
  | removeSource (sourceId : UInt8)

def checkSubgroups (bytes : List UInt8) (minLen : Nat) : Except Stuck (Option Nat) :=
  if bytes.length < minLen then
    .ok none
  else do
    let n ← readAt bytes (minLen - 1)
    match ← countSubgroups bytes 0 n.toNat minLen 0 with
    | none => return none
    | some (size, bufLen) =>
      if size ≠ bytes.length then
        return none
      else
        return some ((bufLen + sizeofBisInfo * n.toNat) % 65536)

def cpCheckMsgLen (bytes : List UInt8) (opcode : UInt8) : Except Stuck (Option Nat) :=
  if opcode = 2 then
    checkSubgroups bytes 16
  else if opcode = 3 then
    checkSubgroups bytes 6
  else
    let len := if opcode = 4 then 18 else if opcode = 5 then 2 else 1
    .ok (if bytes.length = len then some 0 else none)

def bisSyncCheck (check bis : UInt32) : Option UInt32 :=
  if bis ≠ noPrefer then
    if check &&& bis ≠ 0 then none else some (check ||| bis)
  else
    some check

def paSyncOf (b : UInt8) : Option PaSync :=
  if b = 0 then some .notSync else if b = 1 then some .syncPast else if b = 2 then
    some .syncNoPast else none

def praseAddSource (bytes : List UInt8) (bufLen : Nat) : Except Stuck (Except CpError CpData) := do
  let addressType ← readAt bytes 1
  let address ← readArray 6 bytes 2
  let advSid ← readAt bytes 8
  let broadcastId ← readArray 3 bytes 9
  let paSync ← readAt bytes 12
  let paInterval ← read16 bytes 13
  let n ← readAt bytes 15
  match ← praseBlock bisSyncCheck bytes n.toNat 16 bufLen with
  | none => return .error .writeRequestRejected
  | some (_, block) =>
    match paSyncOf paSync with
    | none => return .error .minApplicCode
    | some paSync =>
      if 1 < addressType ∨ 15 < advSid then
        return .error .minApplicCode
      else
        return .ok (.addSource { addressType, address, advSid, broadcastId } paSync paInterval
          n.toNat bufLen block)

def checkSourceId (known : UInt8 → Bool) (sourceId : UInt8) (data : CpData) :
    Except CpError CpData :=
  if sourceId ≠ 0xff ∧ known sourceId = false then .error .invalidSrcId else .ok data

def praseModifySource (known : UInt8 → Bool) (bytes : List UInt8) (bufLen : Nat) :
    Except Stuck (Except CpError CpData) := do
  let sourceId ← readAt bytes 1
  let paSync ← readAt bytes 2
  let paInterval ← read16 bytes 3
  let n ← readAt bytes 5
  match ← praseBlock bisSyncCheck bytes n.toNat 6 bufLen with
  | none => return .error .writeRequestRejected
  | some (_, block) =>
    match paSyncOf paSync with
    | none => return .error .minApplicCode
    | some paSync =>
      return checkSourceId known sourceId
        (.modifySource sourceId paSync paInterval n.toNat bufLen block)

def cpPraseData (memory : Bool) (known : UInt8 → Bool) (bytes : List UInt8) :
    Except Stuck (Except CpError CpData) := do
  let opcode ← readAt bytes 0
  if 5 < opcode then
    return .error .opcodeNotSupport
  else
    match ← cpCheckMsgLen bytes opcode with
    | none => return .error .writeRequestRejected
    | some bufLen =>
      if memory = false then
        return .error .writeRequestRejected
      else if opcode = 0 then
        return .ok .remoteScanStop
      else if opcode = 1 then
        return .ok .remoteScanStart
      else if opcode = 2 then
        praseAddSource bytes bufLen
      else if opcode = 3 then
        praseModifySource known bytes bufLen
      else do
        let sourceId ← readAt bytes 1
        if opcode = 4 then
          let broadcastCode ← readArray 16 bytes 2
          return checkSourceId known sourceId (.setBroadcastCode sourceId broadcastCode)
        else
          return checkSourceId known sourceId (.removeSource sourceId)

structure RemoteBrs where
  brsIsUsed : Bool
  sourceId : UInt8
  sourceAddressType : UInt8
  sourceAddress : Vector UInt8 6
  sourceAdvSid : UInt8
  broadcastId : Vector UInt8 3
  paSyncState : UInt8
  bisSyncState : UInt32
  bigEncryption : UInt8
  badCode : Vector UInt8 16
  numSubgroups : Nat
  bisInfoSize : Nat
  pCpBisInfo : Option BisBlock

def RemoteBrs.zero : RemoteBrs where
  brsIsUsed := false
  sourceId := 0
  sourceAddressType := 0
  sourceAddress := .replicate 6 0
  sourceAdvSid := 0
  broadcastId := .replicate 3 0
  paSyncState := 0
  bisSyncState := 0
  bigEncryption := 0
  badCode := .replicate 16 0
  numSubgroups := 0
  bisInfoSize := 0
  pCpBisInfo := none

def praseHead (bytes : List UInt8) : Except Stuck RemoteBrs := do
  let sourceId ← readAt bytes 0
  let sourceAddressType ← readAt bytes 1
  let sourceAddress ← readArray 6 bytes 2
  let sourceAdvSid ← readAt bytes 8
  let broadcastId ← readArray 3 bytes 9
  let paSyncState ← readAt bytes 12
  let bigEncryption ← readAt bytes 13
  .ok
    { RemoteBrs.zero with
      brsIsUsed := true
      sourceId, sourceAddressType, sourceAddress, sourceAdvSid, broadcastId, paSyncState
      bigEncryption }

def bisSyncState (state bis : UInt32) : Option UInt32 :=
  some (if bis ≠ failedToSyncToBig then state ||| bis else failedToSyncToBig)

def praseRemoteSubgroups (memory : Bool) (old brs : RemoteBrs) (bytes : List UInt8) (idx : Nat) :
    Except Stuck (Bool × RemoteBrs) := do
  let n ← readAt bytes idx
  match ← countSubgroups bytes (idx + 1) n.toNat 0 0 with
  | none => return (false, old)
  | some (size, metadataLen) =>
    if bytes.length < idx + 1 + size then
      return (false, old)
    else
      let size := (sizeofBisInfo * n.toNat + metadataLen) % 65536
      if size = 0 then
        return (true, { brs with numSubgroups := n.toNat })
      else if memory = false then
        return (false, old)
      else
        match ← praseBlock bisSyncState bytes n.toNat (idx + 1) size with
        | none => return (false, old)
        | some (bisSyncState, block) =>
          return (true,
            { brs with
              bisSyncState
              numSubgroups := n.toNat
              bisInfoSize := size
              pCpBisInfo := some block })

def clientPraseBrs (memory : Bool) (old : RemoteBrs) (bytes : List UInt8) :
    Except Stuck (Bool × RemoteBrs) :=
  if bytes.length = 0 then
    return (true, if old.pCpBisInfo ≠ none then .zero else old)
  else if bytes.length < 15 then
    return (false, old)
  else do
    let brs ← praseHead bytes
    if brs.bigEncryption = 3 then
      if bytes.length < 31 then
        return (false, old)
      else
        let badCode ← readArray 16 bytes 14
        praseRemoteSubgroups memory old { brs with badCode } bytes 30
    else
      praseRemoteSubgroups memory old brs bytes 14

end Brs
