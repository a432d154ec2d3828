import Earphone.Bond.Legacy

namespace Bond

structure LeKeyFlags where
  remoteBd : Bool
  localLtk : Bool
  remoteLtk : Bool
  remoteIrk : Bool
  localIrk : Bool

def LeKeyFlags.none : LeKeyFlags := ⟨false, false, false, false, false⟩

structure LeBondEntry where
  isUsed : Bool
  idx : Nat
  flags : LeKeyFlags
  modifyFlags : UInt16
  remoteBdType : UInt8
  remoteIdentityAddrType : UInt8
  remoteBd : BdAddr
  remoteIdentityAddr : BdAddr
  bondInfo : BondInfo

def LeBondEntry.zero : LeBondEntry where
  isUsed := false
  idx := 0
  flags := .none
  modifyFlags := 0
  remoteBdType := 0
  remoteIdentityAddrType := 0
  remoteBd := 0
  remoteIdentityAddr := 0
  bondInfo := .zero

def gapRemoteAddrLePublic : UInt8 := 0

def gapRemoteAddrLeRandom : UInt8 := 1

def gapRemoteAddrLePublicIdentity : UInt8 := 2

def gapRemoteAddrLeRandomIdentity : UInt8 := 3

def gapIdentAddrPublic : UInt8 := 0

def gapIdentAddrRand : UInt8 := 1

def gapLocalAddrLeRandom : UInt8 := 1

def leBondModifyNew : UInt16 := 1

def leBondExistBit : UInt32 := 1

def leLocalIrkDistBit : UInt32 := 2

def bondInfoNeedUpdateFlag : UInt8 := 2

def addrMask (addr : BdAddr) : Nat := addr.toNat >>> 46

def addrOfBytes (b : List UInt8) : BdAddr :=
  BitVec.ofNat 48 (b.foldr (fun x n => x.toNat + 256 * n) 0)

def BondInfo.ofBytes (b : List UInt8) : BondInfo where
  bondState := b.getD 0 0
  keyType := b.getD 1 0
  remoteBdType := b.getD 2 0
  localBdType := b.getD 3 0
  remoteBd := addrOfBytes ((b.drop 4).take 6)
  localBd := addrOfBytes ((b.drop 10).take 6)
  bondFlag := UInt32.ofNat (((b.drop 16).take 4).foldr (fun x n => x.toNat + 256 * n) 0)

namespace LeBondEntry

def updateIdentityAddr (e : LeBondEntry) : LeBondEntry :=
  if e.remoteBdType = gapRemoteAddrLeRandom ∧ addrMask e.remoteBd ≠ 3 then
    e
  else
    let type :=
      if e.remoteBdType = gapRemoteAddrLeRandom then gapIdentAddrRand
      else if e.remoteBdType = gapRemoteAddrLePublicIdentity then gapIdentAddrRand
      else if e.remoteBdType = gapRemoteAddrLePublic then gapIdentAddrPublic
      else e.remoteIdentityAddrType
    { e with remoteIdentityAddrType := type, remoteIdentityAddr := e.remoteBd }

end LeBondEntry

inductive LeKey where
  | localLtk (keyLength : UInt8) (key : List UInt8)
  | remoteLtk (keyLength : UInt8) (key : List UInt8)
  | remoteIrk (key : List UInt8) (addr : BdAddr) (addrType : UInt8)
  | localIrk (addr : BdAddr) (addrType : UInt8)
  | other

def ltkRecord (keyLength : UInt8) (key : List UInt8) : List UInt8 :=
  [keyLength, 0, 0, 0] ++ (key.take keyLength.toNat ++ List.replicate 28 0).take 28

def irkRecord (key : List UInt8) (addr : BdAddr) (addrType : UInt8) : List UInt8 :=
  (key ++ List.replicate 16 0).take 16 ++ bytesOfAddr addr ++ [addrType, 1]

structure LeStore where
  cb : BondCb
  flash : Flash
  table : List LeBondEntry
  sort : BondPriority
  sendBondFull : Bool
  padding : UInt8 × UInt8 × UInt8
  tableSize : table.length = cb.cfg.maxLePairedDevice
  bondIdxSize : table.length ≤ 19

namespace LeStore

variable (s : LeStore)

def entry (i : Nat) : LeBondEntry := s.table.getD i .zero

def setEntry (i : Nat) (e : LeBondEntry) : LeStore :=
  { s with
    table := s.table.set i e
    tableSize := by rw [List.length_set]; exact s.tableSize
    bondIdxSize := by rw [List.length_set]; exact s.bondIdxSize }

def setFlash (flash : Flash) : LeStore := { s with flash }

def setSort (sort : BondPriority) : LeStore := { s with sort }

def ftlSaveBondPriority : LeStore :=
  s.setFlash (BondCb.impFtlSave s.flash
    (((s.sort.length :: s.sort).map UInt8.ofNat ++ List.replicate 19 0).take
      OtpBondCfg.bondPrioritySize) s.cb.cfg.leStartOffset 0 0 0).1

def remoteBdOffset : Nat := s.cb.cfg.leStartOffset + OtpBondCfg.bondPrioritySize

def localLtkOffset : Nat := s.remoteBdOffset + OtpBondCfg.bondInfoSize

def remoteLtkOffset : Nat :=
  s.localLtkOffset +
    if s.cb.cfg.leKeyStorageFlag.testBit OtpBondCfg.leKeyStoreLocalLtkBit then OtpBondCfg.leLtkSize
    else 0

def remoteIrkOffset : Nat :=
  s.remoteLtkOffset +
    if s.cb.cfg.leKeyStorageFlag.testBit OtpBondCfg.leKeyStoreRemoteLtkBit then OtpBondCfg.leLtkSize
    else 0

def ftlSaveLeRemoteBd (b : BondInfo) (idx : Nat) : LeStore × Nat :=
  if idx ≥ s.cb.cfg.maxLePairedDevice then
    (s, 1)
  else
    (s.setFlash (BondCb.impFtlSave s.flash b.bytes s.remoteBdOffset s.cb.cfg.leLinkBlockSize idx
      0).1, 0)

def ftlLoadLeRemoteBd (idx : Nat) : Option BondInfo :=
  if idx ≥ s.cb.cfg.maxLePairedDevice then
    none
  else
    (BondCb.impFtlLoad s.flash s.remoteBdOffset s.cb.cfg.leLinkBlockSize OtpBondCfg.bondInfoSize
      idx).map BondInfo.ofBytes

def ftlSaveLeKey (bit offset : Nat) (data : List UInt8) (idx : Nat) : LeStore × Nat :=
  if s.cb.cfg.leKeyStorageFlag.testBit bit = false then
    (s, 2)
  else if idx ≥ s.cb.cfg.maxLePairedDevice then
    (s, 1)
  else
    (s.setFlash (BondCb.impFtlSave s.flash data offset s.cb.cfg.leLinkBlockSize idx 0).1, 0)

def ftlLoadLeKey (bit offset size idx : Nat) : Option (List UInt8) :=
  if s.cb.cfg.leKeyStorageFlag.testBit bit = false ∨ idx ≥ s.cb.cfg.maxLePairedDevice then
    none
  else
    BondCb.impFtlLoad s.flash offset s.cb.cfg.leLinkBlockSize size idx

def ftlSaveLeLocalLtk (data : List UInt8) (idx : Nat) : LeStore × Nat :=
  s.ftlSaveLeKey OtpBondCfg.leKeyStoreLocalLtkBit s.localLtkOffset data idx

def ftlLoadLeLocalLtk (idx : Nat) : Option (List UInt8) :=
  s.ftlLoadLeKey OtpBondCfg.leKeyStoreLocalLtkBit s.localLtkOffset OtpBondCfg.leLtkSize idx

def ftlSaveLeRemoteLtk (data : List UInt8) (idx : Nat) : LeStore × Nat :=
  s.ftlSaveLeKey OtpBondCfg.leKeyStoreRemoteLtkBit s.remoteLtkOffset data idx

def ftlLoadLeRemoteLtk (idx : Nat) : Option (List UInt8) :=
  s.ftlLoadLeKey OtpBondCfg.leKeyStoreRemoteLtkBit s.remoteLtkOffset OtpBondCfg.leLtkSize idx

def ftlSaveLeRemoteIrk (data : List UInt8) (idx : Nat) : LeStore × Nat :=
  s.ftlSaveLeKey OtpBondCfg.leKeyStoreRemoteIrkBit s.remoteIrkOffset data idx

def ftlClearLeRemoteIrk (idx : Nat) : LeStore × Nat :=
  s.ftlSaveLeKey OtpBondCfg.leKeyStoreRemoteIrkBit (s.remoteIrkOffset + 20) [0, 0, 0, 0] idx

def ftlLoadLeRemoteIrk (idx : Nat) : Option (List UInt8) :=
  s.ftlLoadLeKey OtpBondCfg.leKeyStoreRemoteIrkBit s.remoteIrkOffset OtpBondCfg.leRemoteIrkSize idx

def priorityQueueAdd (idx : Nat) : LeStore :=
  let (sort, added) := s.sort.queueAdd s.cb.cfg.maxLePairedDevice idx
  if added ∧ s.sort.Moves idx then (s.setSort sort).ftlSaveBondPriority else s.setSort sort

def priorityQueueDelete (idx : Nat) : LeStore :=
  let (sort, deleted) := s.sort.queueDelete idx
  if deleted then (s.setSort sort).ftlSaveBondPriority else s

def setHighPriority (idx : Nat) : LeStore :=
  let (sort, raised) := s.sort.setHighPriority idx
  if raised ∧ s.sort.Moves idx then (s.setSort sort).ftlSaveBondPriority else s.setSort sort

def priorityQueueClear : LeStore :=
  if s.sort = [] then s else (s.setSort []).ftlSaveBondPriority

def btLeSetBondState (i : Nat) (flags : UInt8) : LeStore :=
  let e := s.entry i
  if e.flags.remoteBd then
    let b := { e.bondInfo with bondState := e.bondInfo.bondState ||| flags }
    ((s.setEntry i { e with bondInfo := b }).ftlSaveLeRemoteBd b e.idx).1
  else
    s

def btLeClearBondState (i : Nat) : LeStore :=
  let e := s.entry i
  if e.flags.remoteBd ∧ e.bondInfo.bondState ≠ 0 then
    let b := { e.bondInfo with bondState := 0 }
    ((s.setEntry i { e with bondInfo := b }).ftlSaveLeRemoteBd b e.idx).1
  else
    s

def saveBond (i : Nat) (b : BondInfo) (flags : LeKeyFlags) : LeStore × Bool :=
  let e := s.entry i
  let (s, err) := (s.setEntry i { e with bondInfo := b }).ftlSaveLeRemoteBd b e.idx
  if err = 0 then
    ((s.priorityQueueAdd e.idx).setEntry i { e with bondInfo := b, flags }, true)
  else
    (s, false)

def saveKeyOfType (i : Nat) (key : LeKey) : LeStore × Bool :=
  let e := s.entry i
  match key with
  | .localLtk keyLength k =>
    if s.cb.cfg.leKeyStorageFlag.testBit OtpBondCfg.leKeyStoreLocalLtkBit = false then (s, true)
    else
      let (s, err) := s.ftlSaveLeLocalLtk (ltkRecord keyLength k) e.idx
      if err = 0 then
        (s.setEntry i { e with flags := { e.flags with localLtk := true } }, true)
      else (s, false)
  | .remoteLtk keyLength k =>
    if s.cb.cfg.leKeyStorageFlag.testBit OtpBondCfg.leKeyStoreRemoteLtkBit = false then (s, true)
    else
      let (s, err) := s.ftlSaveLeRemoteLtk (ltkRecord keyLength k) e.idx
      if err = 0 then
        (s.setEntry i { e with flags := { e.flags with remoteLtk := true } }, true)
      else (s, false)
  | .remoteIrk k addr addrType =>
    if s.cb.cfg.leKeyStorageFlag.testBit OtpBondCfg.leKeyStoreRemoteIrkBit = false then (s, true)
    else
      let (s, err) := s.ftlSaveLeRemoteIrk (irkRecord k addr addrType) e.idx
      if err = 0 then
        (s.setEntry i
          { e with
            remoteIdentityAddr := addr
            remoteIdentityAddrType := addrType
            flags := { e.flags with remoteIrk := true } }, true)
      else (s, false)
  | .localIrk addr addrType =>
    s.saveBond i
      { e.bondInfo with
        localBdType := addrType
        localBd := addr
        bondFlag := e.bondInfo.bondFlag ||| leBondExistBit ||| leLocalIrkDistBit }
      { e.flags with remoteBd := true, localIrk := true }
  | .other => (s, false)

def btLeSaveKey (i : Nat) (key : LeKey) : LeStore × Bool :=
  let (s, result) := s.saveKeyOfType i key
  if result then
    let e := s.entry i
    if e.flags.remoteBd then
      (s.btLeSetBondState i bondInfoNeedUpdateFlag, result)
    else
      let bondFlag := e.bondInfo.bondFlag ||| leBondExistBit
      let bondFlag := if e.flags.localIrk then bondFlag ||| leLocalIrkDistBit else bondFlag
      ((s.saveBond i { e.bondInfo with bondFlag } { e.flags with remoteBd := true }).1, result)
  else
    (s, result)

def btLeDeleteKeyEntry (i : Nat) : LeStore :=
  let e := s.entry i
  let (s, err) := s.ftlSaveLeRemoteBd .zero e.idx
  if err ≠ 0 then
    s
  else
    let data := [0, s.padding.1, s.padding.2.1, s.padding.2.2]
    let s := if e.flags.localLtk then (s.ftlSaveLeLocalLtk data e.idx).1 else s
    let s := if e.flags.remoteLtk then (s.ftlSaveLeRemoteLtk data e.idx).1 else s
    let s := if e.flags.remoteIrk then (s.ftlClearLeRemoteIrk e.idx).1 else s
    let s := s.setFlash (s.cb.btBondRemove s.flash .le e.idx s.padding s.padding 0 0)
    s.setEntry i .zero

def deleteUsed (s : LeStore) (i : Nat) : Nat → LeStore
  | 0 => s
  | n + 1 => (if (s.entry i).isUsed then s.btLeDeleteKeyEntry i else s).deleteUsed (i + 1) n

def btLeClearAllKeys : LeStore :=
  if s.cb.cfg.gapBondManager then s
  else (s.deleteUsed 0 s.table.length).priorityQueueClear

def btLeDeleteBond (i : Nat) : LeStore :=
  if s.cb.cfg.gapBondManager then s
  else (s.priorityQueueDelete (s.entry i).idx).btLeDeleteKeyEntry i

def btLeSetHighPriorityBond (i : Nat) : LeStore :=
  if s.cb.cfg.gapBondManager then s else s.setHighPriority (s.entry i).idx

def searchUnused : Nat := s.table.findIdx (!·.isUsed)

def btLeAllocateKeyEntry (bdAddr : BdAddr) (bdType : UInt8) (localBd : Option BdAddr)
    (localBdType : UInt8) (resolved : Option (BdAddr × UInt8)) : LeStore × Option Nat :=
  let peerBdAddr :=
    if bdType = gapRemoteAddrLeRandom ∧ addrMask bdAddr = 2 then bdAddr ^^^ (3 <<< 46) else bdAddr
  let i := s.searchUnused
  if i = s.table.length then
    (s, none)
  else
    let (identity, identityType) :=
      match localBd with
      | none => (0, localBdType)
      | some addr =>
        if localBdType = gapLocalAddrLeRandom ∧ addrMask addr = 1 then
          resolved.getD (addr, localBdType)
        else
          (addr, localBdType)
    let e := s.entry i
    let e :=
      { e with
        idx := i
        isUsed := true
        flags := .none
        modifyFlags := leBondModifyNew
        bondInfo :=
          { e.bondInfo with
            remoteBdType := bdType
            remoteBd := peerBdAddr
            localBd := identity
            localBdType := identityType }
        remoteBdType := bdType
        remoteBd := peerBdAddr }
    (s.setEntry i e.updateIdentityAddr, some i)

def sendFull (s : LeStore) : List Nat → LeStore
  | [] => s
  | i :: is => (if (s.entry i).isUsed then s.btLeDeleteBond i else s).sendFull is

def btLeGetLowPriorityBond : Option Nat :=
  if s.cb.cfg.gapBondManager then none
  else
    match s.sort.getLowPriority with
    | some idx => if idx < s.table.length then some idx else none
    | none => none

def takeEntry (i : Nat) (b : BondInfo) : LeStore :=
  let e :=
    { s.entry i with
      idx := i
      isUsed := true
      flags := .none
      bondInfo := b
      remoteBdType := b.remoteBdType
      remoteBd := b.remoteBd }
  s.setEntry i e.updateIdentityAddr

def btLeDevInfoAllocate (b : BondInfo) (deleted : List Nat) : LeStore × Option Nat :=
  let i := s.searchUnused
  if i ≠ s.table.length then
    (s.takeEntry i b, some i)
  else if s.sendBondFull then
    let s := s.sendFull deleted
    let i := s.searchUnused
    if i ≠ s.table.length then (s.takeEntry i b, some i) else (s, none)
  else
    match s.btLeGetLowPriorityBond with
    | some low =>
      let i := (s.entry low).idx
      let s := s.btLeDeleteBond low
      -- the pointer stays the one of the low entry, its index is the one it had
      let e :=
        { s.entry low with
          idx := i
          isUsed := true
          flags := .none
          bondInfo := b
          remoteBdType := b.remoteBdType
          remoteBd := b.remoteBd }
      (s.setEntry low e.updateIdentityAddr, some low)
    | none => (s, none)

def btLeDevInfoFind (b : BondInfo) : Option Nat :=
  if s.cb.cfg.gapBondManager then none
  else
    s.table.findIdx? fun e =>
      e.isUsed && e.bondInfo.remoteBd == b.remoteBd && e.bondInfo.localBd == b.localBd &&
        e.bondInfo.remoteBdType == b.remoteBdType && e.bondInfo.localBdType == b.localBdType

def findOrAllocate (b : BondInfo) (deleted : List Nat) : LeStore × Option Nat :=
  match s.btLeDevInfoFind b with
  | some i => (s, some i)
  | none => s.btLeDevInfoAllocate b deleted

def markLocalIrk (i : Nat) (b : BondInfo) : LeStore :=
  if b.bondFlag &&& leLocalIrkDistBit ≠ 0 then
    let e := s.entry i
    s.setEntry i { e with flags := { e.flags with localIrk := true } }
  else
    s

def finish (i : Nat) : LeStore :=
  let s := s.btLeClearBondState i
  s.setEntry i { s.entry i with modifyFlags := 0 }

def btLeDevInfoPreSet (b : BondInfo) (keyLength : UInt8) (key : List UInt8) (deleted : List Nat) :
    LeStore :=
  if s.cb.cfg.gapBondManager then s
  else
    match s.findOrAllocate b deleted with
    | (s, none) => s
    | (s, some i) =>
      let s := s.markLocalIrk i b
      let s := (s.btLeSaveKey i (.localLtk keyLength key)).1
      (s.setHighPriority (s.entry i).idx).finish i

structure DevInfo where
  localLtk : Option (List UInt8)
  remoteLtk : Option (List UInt8)
  remoteIrk : Option (List UInt8)
  cccd : Option (List UInt8)
  features : Option (List UInt8)

def updateKey (i : Nat) (bondExist : Bool) (stored : Option (List UInt8)) (key : LeKey) :
    Option (List UInt8) → LeStore
  | none => s
  | some record =>
    if bondExist ∧ stored = some record then s else (s.btLeSaveKey i key).1

def ltkOfRecord (record : List UInt8) : UInt8 × List UInt8 := (record.headD 0, record.drop 4)

def setCccdData (idx : Nat) (data : List UInt8) (alloc : Bool) : LeStore :=
  let header := [UInt8.ofNat data.length, s.padding.1, s.padding.2.1, s.padding.2.2]
  let all := s.setFlash (s.cb.ftlSaveCccd s.flash .le
    (([UInt8.ofNat data.length, 0, 0, 0] ++ data).take ((4 + data.length) % 2 ^ 8)) idx 0).1
  if alloc then
    match s.cb.btBondGetCccdData s.flash .le idx with
    | some record =>
      let length := (record.headD 0).toNat
      if length ≠ 0 ∧ length ≤ data.length ∧ (record.drop 4).take length = data.take length then
        if length < data.length then
          match s.cb.ftlGetCommonBlockOffset .le idx with
          | some start =>
            let flash := (BondCb.impFtlSave s.flash (data.drop length)
              (start + s.cb.cfg.commonCccdDataOffset + (4 + length) % 2 ^ 8)
              s.cb.cfg.commonLinkBlockSize idx 0).1
            s.setFlash (s.cb.ftlSaveCccd flash .le header idx 0).1
          | none => s
        else s
      else all
    | none => all
  else s

def updateKeys (i : Nat) (bondExist : Bool) (info : DevInfo) : LeStore :=
  let ltk := ltkOfRecord (info.localLtk.getD [])
  let s := s.updateKey i bondExist (s.ftlLoadLeLocalLtk (s.entry i).idx)
    (.localLtk ltk.1 ltk.2) info.localLtk
  let ltk := ltkOfRecord (info.remoteLtk.getD [])
  let s := s.updateKey i bondExist (s.ftlLoadLeRemoteLtk (s.entry i).idx)
    (.remoteLtk ltk.1 ltk.2) info.remoteLtk
  let irk := info.remoteIrk.getD []
  s.updateKey i bondExist (s.ftlLoadLeRemoteIrk (s.entry i).idx)
    (.remoteIrk (irk.take 16) (addrOfBytes ((irk.drop 16).take 6)) (irk.getD 22 0)) info.remoteIrk

def setRecords (idx : Nat) (info : DevInfo) (alloc : Bool) : LeStore :=
  let s :=
    match info.cccd with
    | some data => s.setCccdData idx data alloc
    | none => s
  match info.features with
  | some data =>
    if s.cb.cfg.clientSupportedFeatures51 then
      s.setFlash (s.cb.ftlSaveRemoteClientSupportedFeatures s.flash .le data idx 0).1
    else s
  | none => s

def btLeDevInfoSet (b : BondInfo) (info : DevInfo) (deleted : List Nat) (alloc : Bool) : LeStore :=
  if s.cb.cfg.gapBondManager then s
  else
    let bondExist := (s.btLeDevInfoFind b).isSome
    match s.findOrAllocate b deleted with
    | (s, none) => s
    | (s, some i) =>
      let s := (s.markLocalIrk i b).updateKeys i bondExist info
      (s.setRecords (s.entry i).idx info alloc).finish i

def btLeDevInfoRemove (b : BondInfo) : LeStore :=
  match s.btLeDevInfoFind b with
  | some i => (s.priorityQueueDelete (s.entry i).idx).btLeDeleteKeyEntry i
  | none => s

def btLeKeyEntryInit (e : LeBondEntry) : LeBondEntry × Bool :=
  let b := (s.ftlLoadLeRemoteBd e.idx).getD .zero
  let e := { e with bondInfo := b }
  if b.bondFlag &&& leBondExistBit = 0 then
    (e, true)
  else
    let e :=
      { e with
        isUsed := true
        flags := { e.flags with
          remoteBd := true
          localIrk := e.flags.localIrk || b.bondFlag &&& leLocalIrkDistBit != 0 }
        remoteBdType := b.remoteBdType }
    if b.remoteBdType > gapRemoteAddrLeRandomIdentity then
      (e, false)
    else
      let e := { e with remoteBd := b.remoteBd }.updateIdentityAddr
      let stored (record : Option (List UInt8)) := record.any (·.headD 0 != 0)
      let e :=
        { e with
          flags := { e.flags with
            localLtk := e.flags.localLtk || stored (s.ftlLoadLeLocalLtk e.idx)
            remoteLtk := e.flags.remoteLtk || stored (s.ftlLoadLeRemoteLtk e.idx) } }
      match s.ftlLoadLeRemoteIrk e.idx with
      | none => (e, true)
      | some irk =>
        if irk.getD 23 0 = 0 then
          (e, true)
        else
          let e :=
            { e with
              remoteIdentityAddr := addrOfBytes ((irk.drop 16).take 6)
              remoteIdentityAddrType := irk.getD 22 0 }
          if e.remoteIdentityAddrType > gapIdentAddrRand then
            (e, false)
          else
            ({ e with flags := { e.flags with remoteIrk := true } }, true)

def cleanUp (s : LeStore) (i : Nat) : Nat → LeStore
  | 0 => s
  | n + 1 => (if (s.entry i).isUsed then s.btLeDeleteKeyEntry i else s).cleanUp i n

def initEntries (s : LeStore) (i : Nat) : Nat → LeStore
  | 0 => s
  | n + 1 =>
    let (e, accepted) := s.btLeKeyEntryInit { s.entry i with idx := i }
    let s := s.setEntry i e
    if accepted then
      s.initEntries (i + 1) n
    else
      (s.cleanUp i (i + 1)).priorityQueueClear

def ftlLoadBondPriority : Option (Nat × List Nat) :=
  (BondCb.impFtlLoad s.flash s.cb.cfg.leStartOffset 0 OtpBondCfg.bondPrioritySize 0).map fun b =>
    ((b.headD 0).toNat, b.tail.map UInt8.toNat)

def btLeKeyInit : LeStore :=
  if s.table.length = 0 then s
  else
    match s.ftlLoadBondPriority with
    | none => s.initEntries 0 s.table.length
    | some (bondNum, bondIdx) =>
      if bondNum > 19 then s
      else (s.setSort (bondIdx.take bondNum)).initEntries 0 s.table.length

end LeStore

end Bond
