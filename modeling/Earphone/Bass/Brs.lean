import Earphone.Lib.Slices
import Earphone.Bass.Past
import Mathlib.Data.List.Basic

namespace Brs

open Scan Slices
open Bass (PaSyncState PaSync BigEncryptionState)

structure Subgroup where
  bis : UInt32
  metadata : List UInt8
  short : metadata.length < 256

structure SubgroupTbl where
  subgroups : List Subgroup
  few : subgroups.length < 256

theorem Subgroup.short_nil : ([] : List UInt8).length < 256 := by decide

def SubgroupTbl.bis (tbl : SubgroupTbl) : List UInt32 := tbl.subgroups.map Subgroup.bis

def SubgroupTbl.metadata (tbl : SubgroupTbl) : List (List UInt8) :=
  tbl.subgroups.map Subgroup.metadata

structure BisInfo where
  bisSync : UInt32
  metadataLen : Nat
  pMetadata : Option Nat

structure BisBlock where
  size : Nat
  infos : List BisInfo
  area : List UInt8

structure BrsData where
  brsIsUsed : Bool
  sourceId : UInt8
  sourceAddressType : UInt8
  sourceAddress : Vector UInt8 6
  sourceAdvSid : UInt8
  broadcastId : Vector UInt8 3
  paSyncState : PaSyncState
  bisSyncState : UInt32
  bigEncryption : BigEncryptionState
  badCode : Vector UInt8 16
  numSubgroups : Nat
  bisInfoSize : Nat
  pCpBisInfo : Option BisBlock

structure BisSyncInfo where
  baseDataSubgroupNum : Nat
  cpSubgroupNum : Nat
  cpBisSwitch : Bool
  baseDataSubgroupBis : Vector UInt32 4
  cpBigSync : UInt32
  cpSubgroupBis : Vector UInt32 4

structure BrsDb where
  handle : Option Nat
  sendNotify : Bool
  brsModify : Bool
  biginfoBisNum : Nat
  bisSyncInfo : BisSyncInfo
  pPendingCpData : Option (List UInt32)
  brsData : BrsData
  supplied : List (List UInt8)

def BrsDb.zeroed (sourceId : UInt8) : BrsDb where
  handle := none
  sendNotify := false
  brsModify := false
  biginfoBisNum := 0
  bisSyncInfo :=
    { baseDataSubgroupNum := 0
      cpSubgroupNum := 0
      cpBisSwitch := false
      baseDataSubgroupBis := .replicate 4 0
      cpBigSync := 0
      cpSubgroupBis := .replicate 4 0 }
  pPendingCpData := none
  brsData :=
    { brsIsUsed := false
      sourceId
      sourceAddressType := 0
      sourceAddress := .replicate 6 0
      sourceAdvSid := 0
      broadcastId := .replicate 3 0
      paSyncState := .notSync
      bisSyncState := 0
      bigEncryption := .notEncrypted
      badCode := .replicate 16 0
      numSubgroups := 0
      bisInfoSize := 0
      pCpBisInfo := none }
  supplied := []

structure Answers where
  allocated : Bool
  beyond : UInt32
  handle : Option Nat
  released : Bool

def noPrefer : UInt32 := 0xFFFFFFFF

def failedToSyncToBig : UInt32 := 0xFFFFFFFF

def sizeofBisInfo : Nat := 12

def bisInfoSizeOf (metadata : List (List UInt8)) : Nat :=
  (sizeofBisInfo * metadata.length + metadata.flatten.length) % 65536

def mkBisInfo (bisSync : UInt32) (metadata : List UInt8) (pMetadata : Option Nat) : BisInfo where
  bisSync
  metadataLen := metadata.length
  pMetadata

def fillBisInfo (advance : Nat → Nat) (bisSyncs : List UInt32) (metadata : List (List UInt8))
    (size : Nat) : Except Stuck BisBlock :=
  if size < sizeofBisInfo * metadata.length then
    .error .overflow
  else do
    let area := List.replicate (size - sizeofBisInfo * metadata.length) 0
    let (pMetadata, area) ← lay advance metadata 0 area
    let infos := (bisSyncs.zip (metadata.zip pMetadata)).map fun x => mkBisInfo x.1 x.2.1 x.2.2
    return { size, infos, area }

def fillSubgroupBis (array : Vector UInt32 4) (bis : List UInt32) :
    Except Stuck (Vector UInt32 4) :=
  if bis.length ≤ 4 then
    .ok (.ofFn fun i => bis[i.val]?.getD array[i])
  else
    .error .overflow

def BisBlock.read (block : BisBlock) (p : Option Nat) (n : Nat) : Except Stuck (List UInt8) :=
  match p with
  | none => .error .outside
  | some p =>
    if p + n ≤ block.area.length then .ok ((block.area.drop p).take n) else .error .outside

def infoAt (pCpBisInfo : Option BisBlock) (i : Nat) : Except Stuck (BisBlock × BisInfo) :=
  match pCpBisInfo with
  | none => .error .outside
  | some block =>
    match block.infos[i]? with
    | none => .error .outside
    | some info => .ok (block, info)

def sameMetadataAt (pCpBisInfo : Option BisBlock) (i : Nat) (metadata : List UInt8) :
    Except Stuck Bool := do
  let (block, info) ← infoAt pCpBisInfo i
  if info.metadataLen = metadata.length then
    if metadata.length ≠ 0 then do
      let stored ← block.read info.pMetadata metadata.length
      return stored == metadata
    else
      return true
  else
    return false

def sameMetadata (pCpBisInfo : Option BisBlock) : Nat → List (List UInt8) → Except Stuck Bool
  | _, [] => .ok true
  | i, metadata :: rest => do
    if ← sameMetadataAt pCpBisInfo i metadata then
      sameMetadata pCpBisInfo (i + 1) rest
    else
      return false

def oldBisSync (answers : Answers) (pCpBisInfo : Option BisBlock) (i : Nat) : UInt32 :=
  match pCpBisInfo with
  | none => 0
  | some block =>
    match block.infos[i]? with
    | none => answers.beyond
    | some info => info.bisSync

def BrsDb.setBlock (db : BrsDb) (pCpBisInfo : Option BisBlock) (num size : Nat)
    (supplied : List (List UInt8)) : BrsDb :=
  { db with
    brsData := { db.brsData with numSubgroups := num, bisInfoSize := size, pCpBisInfo }
    supplied }

def BrsDb.sendAllNotify (db : BrsDb) : BrsDb := { db with sendNotify := false, brsModify := false }

def firstLen (metadata : List (List UInt8)) : Nat := (metadata.head?.map List.length).getD 0

def setBaseData (mapping : Option SubgroupTbl) (db : BrsDb) : Except Stuck BrsDb :=
  match mapping with
  | none =>
    .ok
      { db with
        bisSyncInfo :=
          { db.bisSyncInfo with
            baseDataSubgroupNum := 0
            baseDataSubgroupBis := .replicate 4 0 } }
  | some tbl => do
    let baseDataSubgroupBis ← fillSubgroupBis db.bisSyncInfo.baseDataSubgroupBis tbl.bis
    .ok
      { db with
        bisSyncInfo :=
          { db.bisSyncInfo with
            baseDataSubgroupNum := tbl.subgroups.length
            baseDataSubgroupBis } }

def handleBaseData (answers : Answers) (mapping : Option SubgroupTbl) (db : BrsDb) :
    Except Stuck BrsDb := do
  let db ← setBaseData mapping db
  match mapping with
  | none => return db
  | some tbl =>
    if db.brsData.pCpBisInfo = none ∧ answers.allocated = true then
      let size := bisInfoSizeOf tbl.metadata
      let block ← fillBisInfo (fun _ => firstLen tbl.metadata)
        (.replicate tbl.subgroups.length 0) tbl.metadata size
      return (db.setBlock (some block) tbl.subgroups.length size tbl.metadata).sendAllNotify
    else
      return db

def renewMetadata (answers : Answers) (tbl : SubgroupTbl) (db : BrsDb) :
    Except Stuck (Bool × BrsDb) :=
  if answers.allocated = true then do
    let size := bisInfoSizeOf tbl.metadata
    let bisSyncs := (List.range tbl.subgroups.length).map (oldBisSync answers db.brsData.pCpBisInfo)
    let block ← fillBisInfo id bisSyncs tbl.metadata size
    return (true, (db.setBlock (some block) tbl.subgroups.length size tbl.metadata).sendAllNotify)
  else
    return (false, db)

def updateMetadata (answers : Answers) (tbl : SubgroupTbl) (db : BrsDb) :
    Except Stuck (Bool × BrsDb) :=
  if tbl.subgroups.length = 0 then
    return (false, db)
  else if tbl.subgroups.length = db.brsData.numSubgroups then do
    if ← sameMetadata db.brsData.pCpBisInfo 0 tbl.metadata then
      return (true, { db with supplied := tbl.metadata })
    else
      renewMetadata answers tbl db
  else if db.brsData.pCpBisInfo ≠ none then
    return (false, db)
  else
    renewMetadata answers tbl db

def bisSyncOf (bis : List UInt32) : UInt32 :=
  bis.foldl (fun bisSync b => if b ≠ noPrefer then bisSync ||| b else noPrefer) 0

def bisInfoEqual (tbl : SubgroupTbl) (db : BrsDb) : Except Stuck Bool :=
  if db.brsData.pCpBisInfo ≠ none ∧ db.brsData.bisInfoSize = bisInfoSizeOf tbl.metadata ∧
      db.brsData.numSubgroups = tbl.subgroups.length then
    sameMetadata db.brsData.pCpBisInfo 0 tbl.metadata
  else
    return false

def refuses (answers : Answers) (tbl : SubgroupTbl) (db : BrsDb) : Except Stuck Bool :=
  if 0 < bisInfoSizeOf tbl.metadata then
    if bisSyncOf tbl.bis = noPrefer ∧ db.brsData.bisSyncState ≠ 0 then
      return true
    else do
      let equal ← bisInfoEqual tbl db
      return !equal && !answers.allocated
  else
    return false

def newBisSync (answers : Answers) (db : BrsDb) (i : Nat) (bis : UInt32) : UInt32 :=
  if bis ≠ noPrefer then
    db.brsData.bisSyncState &&& bis
  else
    oldBisSync answers db.brsData.pCpBisInfo i

def renewBisInfo (answers : Answers) (isAdd : Bool) (tbl : SubgroupTbl) (db : BrsDb) :
    Except Stuck (UInt32 × Bool × Option BisBlock × Bool) :=
  let size := bisInfoSizeOf tbl.metadata
  if 0 < size then do
    let bisSync := bisSyncOf tbl.bis
    if ← bisInfoEqual tbl db then
      return (bisSync, false, db.brsData.pCpBisInfo, db.brsModify)
    else do
      let updateMetadata := decide (bisSync = db.brsData.bisSyncState) && !isAdd
      let block ← fillBisInfo id (tbl.bis.mapIdx (newBisSync answers db)) tbl.metadata size
      return (bisSync, updateMetadata, some block, true)
  else
    return (0, true, none, true)

def setCpSubgroupBis (array : Vector UInt32 4) (bis : List UInt32) :
    Except Stuck (Vector UInt32 4) :=
  if bis.length ≠ 0 then fillSubgroupBis array bis else .ok (.replicate 4 0)

def setCpSubgroups (bisSync : UInt32) (tbl : SubgroupTbl) (db : BrsDb) : Except Stuck BrsDb := do
  let cpSubgroupBis ← setCpSubgroupBis db.bisSyncInfo.cpSubgroupBis tbl.bis
  .ok
    { db with
      bisSyncInfo :=
        { db.bisSyncInfo with
          cpSubgroupNum := tbl.subgroups.length
          cpSubgroupBis
          cpBisSwitch := decide (bisSync ≠ 0 ∧ db.brsData.bisSyncState ≠ 0 ∧
            bisSync ≠ db.brsData.bisSyncState)
          cpBigSync := bisSync } }

def handleUpdateBisInfo (answers : Answers) (isAdd : Bool) (tbl : SubgroupTbl) (db : BrsDb) :
    Except Stuck (Bool × BrsDb) := do
  if ← refuses answers tbl db then
    return (false, db)
  else
    let (bisSync, updateMetadata, block, brsModify) ← renewBisInfo answers isAdd tbl db
    let db ← setCpSubgroups bisSync tbl db
    let db := db.setBlock block tbl.subgroups.length (bisInfoSizeOf tbl.metadata) tbl.metadata
    return (true, { db with brsModify, sendNotify := updateMetadata })

def brsDelete (answers : Answers) (sendNotify : Bool) (db : BrsDb) : Bool × BrsDb :=
  if db.brsData.brsIsUsed = false then
    (true, db)
  else if db.handle ≠ none ∧ answers.released = false then
    (false, db)
  else
    (true, { BrsDb.zeroed db.brsData.sourceId with sendNotify, brsModify := sendNotify })

structure Source where
  addressType : UInt8
  address : Vector UInt8 6
  advSid : UInt8
  broadcastId : Vector UInt8 3

def BrsDb.take (db : BrsDb) (source : Source) : BrsDb :=
  { db with
    brsData :=
      { db.brsData with
        brsIsUsed := true
        sourceAddressType := source.addressType
        sourceAddress := source.address
        sourceAdvSid := source.advSid
        broadcastId := source.broadcastId } }

def setPending (tbl : SubgroupTbl) (db : BrsDb) : BrsDb :=
  if db.bisSyncInfo.cpBigSync = noPrefer then
    { db with pPendingCpData := some tbl.bis }
  else
    db

def BrsDb.notify (db : BrsDb) : BrsDb := if db.sendNotify then db.sendAllNotify else db

def addSource (answers : Answers) (source : Source) (paSync : PaSync) (tbl : SubgroupTbl)
    (db : BrsDb) : Except Stuck BrsDb :=
  let db := db.take source
  match answers.handle with
  | none => return (brsDelete answers false db).2
  | some handle => do
    let (updated, db) ← handleUpdateBisInfo answers true tbl { db with handle := some handle }
    if updated = false then
      return (brsDelete answers false db).2
    else if db.bisSyncInfo.cpBigSync ≠ 0 ∧ paSync = .notSync then
      return (brsDelete answers false db).2
    else
      let sendNotify := db.sendNotify || decide (db.bisSyncInfo.cpBigSync = 0 ∧ paSync = .notSync)
      return (setPending tbl { db with sendNotify }).notify

def modifySource (answers : Answers) (tbl : SubgroupTbl) (db : BrsDb) : Except Stuck BrsDb := do
  let (updated, db) ← handleUpdateBisInfo answers false tbl db
  if updated = false then
    return db
  else
    return (setPending tbl db).notify

def deleteSourceInt (answers : Answers) (db : BrsDb) : Bool × BrsDb :=
  if db.handle ≠ none ∧ answers.released = false then
    (false, db)
  else
    brsDelete answers true { db with handle := none }

def removeSource (answers : Answers) (db : BrsDb) : BrsDb :=
  if db.brsData.paSyncState = .sync ∨ db.brsData.bisSyncState ≠ 0 then
    db
  else
    let (deleted, db) := deleteSourceInt answers db
    if deleted then db.sendAllNotify else db

def handleReleased (answers : Answers) (isLocal : Bool) (db : BrsDb) : BrsDb :=
  let db := { db with handle := none }
  if isLocal then (brsDelete answers true db).2.notify else db

inductive ActionRole where
  | idle
  | bass
  | localApi
  deriving DecidableEq

def bisSyncFor (role : ActionRole) (bisState : UInt32) (info : BisSyncInfo) (i : Nat) :
    Option UInt32 :=
  if bisState = failedToSyncToBig then
    some failedToSyncToBig
  else if bisState = 0 then
    some 0
  else if role = .bass then
    if i < info.cpSubgroupNum then some (bisState &&& info.cpSubgroupBis[i]?.getD 0) else none
  else
    if i < info.baseDataSubgroupNum then
      some (bisState &&& info.baseDataSubgroupBis[i]?.getD 0)
    else
      none

def BisBlock.withBisSync (block : BisBlock) (num : Nat) (bisSync : Nat → Option UInt32) :
    BisBlock :=
  { block with
    infos := block.infos.mapIdx fun i info =>
      { info with bisSync := if i < num then (bisSync i).getD info.bisSync else info.bisSync } }

def writeBisSync (num : Nat) (bisSync : Nat → Option UInt32) :
    Option BisBlock → Except Stuck (Option BisBlock)
  | none => if num = 0 then .ok none else .error .overflow
  | some block =>
    if num ≤ block.infos.length then
      .ok (some (block.withBisSync num bisSync))
    else
      .error .overflow

def bigUpdateBisState (bisState : UInt32) (role : ActionRole) (db : BrsDb) :
    Except Stuck (Bool × BrsDb) :=
  if db.brsData.bisSyncState ≠ bisState then do
    let pCpBisInfo ← writeBisSync db.brsData.numSubgroups
      (bisSyncFor role bisState db.bisSyncInfo) db.brsData.pCpBisInfo
    return (true,
      { db with
        brsModify := true
        brsData :=
          { db.brsData with
            pCpBisInfo
            bisSyncState := if bisState = failedToSyncToBig then 0 else bisState } })
  else
    return (false, db)

def BrsDb.setBigEncryption (db : BrsDb) (bigEncryption : BigEncryptionState) : BrsDb :=
  if db.brsData.bigEncryption = bigEncryption then
    db
  else
    { db with
      sendNotify := true
      brsModify := true
      brsData := { db.brsData with bigEncryption } }

inductive MachineAction where
  | paState (state : PaSyncState)
  | bigSynchronized (syncState : Option UInt32) (role : ActionRole) (encryption : Bool)
  | bigTerminated (role : ActionRole) (refused : Bool) (badCode : Option (Vector UInt8 16))
  | bigSyncFailed
  | bigCheckInfo (codeRequired : Bool)
  | bigInfo (numBis : Nat)

def setBisState (bisState : UInt32) (role : ActionRole) (db : BrsDb) : Except Stuck BrsDb := do
  let (sendNotify, db) ← bigUpdateBisState bisState role db
  return { db with sendNotify }

def bigSynchronizedProc (syncState : Option UInt32) (role : ActionRole) (encryption : Bool)
    (db : BrsDb) : Except Stuck BrsDb :=
  let bigEncryption := if encryption then .decrypting else .notEncrypted
  match syncState with
  | none => return db.setBigEncryption bigEncryption
  | some syncState => do
    let db ← setBisState syncState role db
    return db.setBigEncryption bigEncryption

def bigTerminatedProc (role : ActionRole) (refused : Bool) (badCode : Option (Vector UInt8 16))
    (db : BrsDb) : Except Stuck BrsDb := do
  let db ← setBisState 0 role db
  if refused then
    let db := { db with brsData := { db.brsData with badCode := badCode.getD db.brsData.badCode } }
    return db.setBigEncryption .badCode
  else
    return db.setBigEncryption .notEncrypted

def bigSyncFailedProc (db : BrsDb) : Except Stuck BrsDb := setBisState failedToSyncToBig .idle db

def clearPending (db : BrsDb) : BrsDb :=
  if db.bisSyncInfo.cpBigSync = noPrefer then db else { db with pPendingCpData := none }

def bigCheckInfoProc (codeRequired : Bool) (db : BrsDb) : BrsDb :=
  clearPending (if codeRequired then db.setBigEncryption .broadcastCodeRequired else db)

def setPaSyncState (state : PaSyncState) (db : BrsDb) : BrsDb :=
  if db.brsData.paSyncState = state then
    db
  else
    let encryption := db.brsData.bigEncryption
    { db with
      sendNotify := true
      brsModify := true
      brsData :=
        { db.brsData with
          paSyncState := state
          bigEncryption := if encryption = .badCode then .notEncrypted else encryption } }

def machineAction (action : MachineAction) (db : BrsDb) : Except Stuck BrsDb :=
  match action with
  | .paState state => return setPaSyncState state db
  | .bigSynchronized syncState role encryption => bigSynchronizedProc syncState role encryption db
  | .bigTerminated role refused badCode => bigTerminatedProc role refused badCode db
  | .bigSyncFailed => bigSyncFailedProc db
  | .bigCheckInfo codeRequired => return bigCheckInfoProc codeRequired db
  | .bigInfo numBis => return { db with biginfoBisNum := numBis }

def preferLoop : UInt32 → Bool → List UInt32 → Option (UInt32 × Bool)
  | cpBisSync, isNoPrefer, [] => some (cpBisSync, isNoPrefer)
  | cpBisSync, isNoPrefer, b :: rest =>
    if b ≠ noPrefer then
      if cpBisSync &&& b ≠ 0 then none else preferLoop (cpBisSync ||| b) isNoPrefer rest
    else
      preferLoop cpBisSync true rest

def cfgPreferBisSync (idx : Nat) (bisSync : UInt32) (db : BrsDb) : Except Stuck (Bool × BrsDb) :=
  match db.pPendingCpData with
  | none => return (false, db)
  | some bis =>
    if bis[idx]? = some noPrefer then
      match preferLoop 0 false (bis.set idx bisSync) with
      | none => return (false, db)
      | some (cpBisSync, isNoPrefer) =>
        if 2 ^ db.biginfoBisNum ≤ cpBisSync.toNat then
          return (false, db)
        else
          let db := { db with pPendingCpData := some (bis.set idx bisSync) }
          if isNoPrefer then
            return (true, db)
          else if h : idx < 4 then
            return (true,
              { db with
                bisSyncInfo :=
                  { db.bisSyncInfo with
                    cpSubgroupBis := db.bisSyncInfo.cpSubgroupBis.set idx bisSync h
                    cpBigSync := cpBisSync } })
          else
            .error .overflow
    else
      return (false, db)

def paSyncStateByte : PaSyncState → UInt8
  | .notSync => 0
  | .syncInfoReq => 1
  | .sync => 2
  | .failed => 3
  | .noPast => 4

def bigEncryptionByte : BigEncryptionState → UInt8
  | .notEncrypted => 0
  | .broadcastCodeRequired => 1
  | .decrypting => 2
  | .badCode => 3

def genHead (data : BrsData) : List UInt8 :=
  [data.sourceId, data.sourceAddressType] ++ data.sourceAddress.toList ++ [data.sourceAdvSid] ++
    data.broadcastId.toList ++
    [paSyncStateByte data.paSyncState, bigEncryptionByte data.bigEncryption] ++
    (if data.bigEncryption = .badCode then data.badCode.toList else []) ++
    [UInt8.ofNat data.numSubgroups]

def le32 (n : UInt32) : List UInt8 :=
  [n.toUInt8, (n >>> 8).toUInt8, (n >>> 16).toUInt8, (n >>> 24).toUInt8]

def genMetadata (block : BisBlock) (info : BisInfo) : Except Stuck (List UInt8) :=
  if 0 < info.metadataLen then block.read info.pMetadata info.metadataLen else .ok []

def genSubgroups (pCpBisInfo : Option BisBlock) : Nat → Nat → Except Stuck (List UInt8)
  | _, 0 => .ok []
  | i, n + 1 => do
    let (block, info) ← infoAt pCpBisInfo i
    let metadata ← genMetadata block info
    let rest ← genSubgroups pCpBisInfo (i + 1) n
    return le32 info.bisSync ++ [UInt8.ofNat info.metadataLen] ++ metadata ++ rest

abbrev Contents := List (UInt32 × List UInt8)

def Contents.bis (subgroups : Contents) : List UInt32 := subgroups.map Prod.fst

def Contents.metadata (subgroups : Contents) : List (List UInt8) := subgroups.map Prod.snd

def subgroupBytes (subgroup : UInt32 × List UInt8) : List UInt8 :=
  le32 subgroup.1 ++ [UInt8.ofNat subgroup.2.length] ++ subgroup.2

def Contents.bytes (subgroups : Contents) : List UInt8 := subgroups.flatMap subgroupBytes

def contentsOf (block : BisBlock) : List BisInfo → Except Stuck Contents
  | [] => .ok []
  | info :: rest => do
    let metadata ← genMetadata block info
    let contents ← contentsOf block rest
    return (info.bisSync, metadata) :: contents

def BisBlock.contents (block : BisBlock) : Except Stuck Contents := contentsOf block block.infos

def bstCodeLen : Nat := 31

def genCharData (data : BrsData) : Except Stuck (List UInt8) :=
  if data.brsIsUsed then do
    let subgroups ← genSubgroups data.pCpBisInfo 0 data.numSubgroups
    let bytes := genHead data ++ subgroups
    if bytes.length ≤ bstCodeLen + data.bisInfoSize then return bytes else .error .overflow
  else
    return []

end Brs
