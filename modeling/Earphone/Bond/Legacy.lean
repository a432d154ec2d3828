import Earphone.Bond.Priority
import Earphone.Bond.Remove
import Earphone.Lib.Run

namespace Bond

abbrev BdAddr := BitVec 48

structure BondInfo where
  bondState : UInt8
  keyType : UInt8
  remoteBdType : UInt8
  localBdType : UInt8
  remoteBd : BdAddr
  localBd : BdAddr
  bondFlag : UInt32

def BondInfo.zero : BondInfo where
  bondState := 0
  keyType := 0
  remoteBdType := 0
  localBdType := 0
  remoteBd := 0
  localBd := 0
  bondFlag := 0

def bytesOfAddr (addr : BdAddr) : List UInt8 :=
  (List.range 6).map fun i => UInt8.ofNat (addr.toNat >>> (8 * i))

def bytesOfFlag (flag : UInt32) : List UInt8 :=
  (List.range 4).map fun i => UInt8.ofNat (flag.toNat >>> (8 * i))

def BondInfo.bytes (b : BondInfo) : List UInt8 :=
  [b.bondState, b.keyType, b.remoteBdType, b.localBdType] ++ bytesOfAddr b.remoteBd ++
    bytesOfAddr b.localBd ++ bytesOfFlag b.bondFlag

def bondInfoExistFlag : UInt8 := 1

def gapKeyUnauthenP256 : UInt8 := 7

def gapKeyAuthenP256 : UInt8 := 8

def gapRemoteAddrClassic : UInt8 := 0x10

structure Writes where
  priority : Nat
  remoteBd : Nat
  linkKey : Nat
  features : Nat
  cccd : Nat
  padding₁ : UInt8 × UInt8 × UInt8
  padding₂ : UInt8 × UInt8 × UInt8

structure LegacyStore where
  cb : BondCb
  flash : Flash
  table : List BondInfo
  sort : BondPriority
  tableSize : table.length = cb.cfg.maxLegacyPairedDevice
  tableAlloc : table.length * OtpBondCfg.bondInfoSize < 2 ^ 8

namespace LegacyStore

variable (s : LegacyStore)

def legacyBondPriorityOffset : Nat := 80

def legacyLinkInfoBdOffset : Nat := 100

def legacyLinkInfoLinkkeyOffset : Nat := legacyLinkInfoBdOffset + OtpBondCfg.bondInfoSize

def setSlot (index : Nat) (b : BondInfo) : LegacyStore :=
  { s with
    table := s.table.set index b
    tableSize := by rw [List.length_set]; exact s.tableSize
    tableAlloc := by rw [List.length_set]; exact s.tableAlloc }

def setFlash (flash : Flash) : LegacyStore := { s with flash }

def setSort (sort : BondPriority) : LegacyStore := { s with sort }

def ftlSaveBondPriority (hasError : Nat) : LegacyStore :=
  s.setFlash (BondCb.impFtlSave s.flash
    (((s.sort.length :: s.sort).map UInt8.ofNat ++ List.replicate 19 0).take
      OtpBondCfg.bondPrioritySize) legacyBondPriorityOffset 0 0 hasError).1

def ftlSaveLegacyRemoteBd (b : BondInfo) (idx hasError : Nat) : LegacyStore × Nat :=
  if idx ≥ s.cb.cfg.maxLegacyPairedDevice then
    (s, 1)
  else
    let (flash, err) := BondCb.impFtlSave s.flash b.bytes legacyLinkInfoBdOffset
      OtpBondCfg.legacyLinkInfoSize idx hasError
    (s.setFlash flash, err)

def ftlSaveLegacyLinkKey (key : Vector UInt8 16) (idx hasError : Nat) : LegacyStore × Nat :=
  if idx ≥ s.cb.cfg.maxLegacyPairedDevice then
    (s, 1)
  else
    let (flash, err) := BondCb.impFtlSave s.flash key.toList legacyLinkInfoLinkkeyOffset
      OtpBondCfg.legacyLinkInfoSize idx hasError
    (s.setFlash flash, err)

def ftlLoadLegacyLinkKey (idx : Nat) : Option (List UInt8) :=
  if idx ≥ s.cb.cfg.maxLegacyPairedDevice then
    none
  else
    BondCb.impFtlLoad s.flash legacyLinkInfoLinkkeyOffset OtpBondCfg.legacyLinkInfoSize 16 idx

def btLegacySearchEmptyDev : Nat := s.table.findIdx (·.bondState == 0)

def isPaired (addr : BdAddr) (b : BondInfo) : Bool := b.bondState != 0 && b.remoteBd == addr

def btLegacyGetPairedIdx (addr : BdAddr) : Option Nat := s.table.findIdx? (isPaired addr)

def btLegacyGetAddrByPriority (priority : Nat) : Option BdAddr := do
  let i ← s.sort.getIndexByPriority priority
  let b ← s.table[i]?
  return b.remoteBd

def saveSlot (addr : BdAddr) : Option Nat :=
  match s.btLegacyGetPairedIdx addr with
  | some index => some index
  | none =>
    if s.btLegacySearchEmptyDev = s.table.length then do
      let tmpAddr ← s.btLegacyGetAddrByPriority s.table.length
      s.btLegacyGetPairedIdx tmpAddr
    else
      some s.btLegacySearchEmptyDev

def bonded (b : BondInfo) (addr : BdAddr) (keyType : UInt8) : BondInfo :=
  { b with
    bondFlag :=
      if keyType ≠ gapKeyAuthenP256 ∧ keyType ≠ gapKeyUnauthenP256 then 0 else b.bondFlag
    remoteBd := addr
    bondState := bondInfoExistFlag
    keyType
    remoteBdType := gapRemoteAddrClassic }

def btLegacySaveBond (addr : BdAddr) (linkkey : Vector UInt8 16) (keyType : UInt8) (a : Writes) :
    LegacyStore × Bool :=
  match s.saveSlot addr with
  | none => (s, false)
  | some index =>
    let b := bonded (s.table.getD index .zero) addr keyType
    let s := s.setSlot index b
    let (s, err) := s.ftlSaveLegacyRemoteBd b index a.remoteBd
    if err ≠ 0 then
      (s, false)
    else
      let (s, err) := s.ftlSaveLegacyLinkKey linkkey index a.linkKey
      if err ≠ 0 then
        (s, false)
      else
        let (sort, added) := s.sort.queueAdd s.cb.cfg.maxLegacyPairedDevice index
        if added ∧ s.sort.Moves index then
          ((s.setSort sort).ftlSaveBondPriority a.priority, added)
        else
          (s.setSort sort, added)

def btBondRemove (idx : Nat) (a : Writes) : LegacyStore :=
  s.setFlash
    (s.cb.btBondRemove s.flash .legacy idx a.padding₁ a.padding₂ a.features a.cccd)

def btLegacyDeleteBond (addr : BdAddr) (a : Writes) : LegacyStore × Bool :=
  match s.btLegacyGetPairedIdx addr with
  | none => (s, false)
  | some index =>
    let (sort, deleted) := s.sort.queueDelete index
    let s := if deleted then (s.setSort sort).ftlSaveBondPriority a.priority else s
    let s := s.setSlot index .zero
    let s := (s.ftlSaveLegacyRemoteBd .zero index a.remoteBd).1
    if s.cb.cfg.bredrExtInfoStorage then
      (s.btBondRemove index a, true)
    else
      (s, true)

def btLegacyAdjustDevPriority (addr : BdAddr) (a : Writes) : LegacyStore × Bool :=
  match s.btLegacyGetPairedIdx addr with
  | none => (s, false)
  | some index =>
    let (sort, raised) := s.sort.setHighPriority index
    if raised ∧ s.sort.Moves index then
      ((s.setSort sort).ftlSaveBondPriority a.priority, raised)
    else
      (s.setSort sort, raised)

def btLegacySetBondFlag (addr : BdAddr) (bondFlag : UInt32) (a : Writes) : LegacyStore × Bool :=
  match s.btLegacyGetPairedIdx addr with
  | none => (s, false)
  | some index =>
    let b := { s.table.getD index .zero with bondFlag }
    (((s.setSlot index b).ftlSaveLegacyRemoteBd b index a.remoteBd).1, true)

def clearFlash (s : LegacyStore) (as : Nat → Writes) (i : Nat) : Nat → LegacyStore
  | 0 => s
  | n + 1 =>
    let s := (s.ftlSaveLegacyRemoteBd .zero i (as i).remoteBd).1
    let s := if s.cb.cfg.bredrExtInfoStorage then s.btBondRemove i (as i) else s
    s.clearFlash as (i + 1) n

def zeroTable : LegacyStore :=
  { s with
    table := s.table.map fun _ => .zero
    tableSize := by rw [List.length_map]; exact s.tableSize
    tableAlloc := by rw [List.length_map]; exact s.tableAlloc }

def btLegacyClearAllKeys (priority : Nat) (as : Nat → Writes) : LegacyStore :=
  let s := s.zeroTable
  let s := if s.sort = [] then s else (s.setSort []).ftlSaveBondPriority priority
  s.clearFlash as 0 s.table.length

def btLegacyGetBondFlag (addr : BdAddr) : Option UInt32 := do
  let index ← s.btLegacyGetPairedIdx addr
  let b ← s.table[index]?
  return b.bondFlag

def btLegacyGetBond (addr : BdAddr) : Option (List UInt8 × UInt8) := do
  let index ← s.btLegacyGetPairedIdx addr
  let key ← s.ftlLoadLegacyLinkKey index
  let b ← s.table[index]?
  return (key, b.keyType)

def Bonded (i : Nat) : Prop := ∃ b ∈ s.table[i]?, b.bondState ≠ 0

end LegacyStore

namespace LegacyStore

variable {s : LegacyStore} {b : BondInfo} {key : Vector UInt8 16} {idx err i : Nat}
variable {a : Writes}

@[simp]
theorem setSlot_table : (s.setSlot i b).table = s.table.set i b := rfl

@[simp]
theorem setSlot_sort : (s.setSlot i b).sort = s.sort := rfl

@[simp]
theorem ftlSaveBondPriority_table : (s.ftlSaveBondPriority err).table = s.table := rfl

@[simp]
theorem ftlSaveBondPriority_sort : (s.ftlSaveBondPriority err).sort = s.sort := rfl

@[simp]
theorem ftlSaveLegacyRemoteBd_table : (s.ftlSaveLegacyRemoteBd b idx err).1.table = s.table := by
  unfold ftlSaveLegacyRemoteBd
  split <;> rfl

@[simp]
theorem ftlSaveLegacyRemoteBd_sort : (s.ftlSaveLegacyRemoteBd b idx err).1.sort = s.sort := by
  unfold ftlSaveLegacyRemoteBd
  split <;> rfl

@[simp]
theorem ftlSaveLegacyRemoteBd_cb : (s.ftlSaveLegacyRemoteBd b idx err).1.cb = s.cb := by
  unfold ftlSaveLegacyRemoteBd
  split <;> rfl

@[simp]
theorem ftlSaveLegacyLinkKey_table : (s.ftlSaveLegacyLinkKey key idx err).1.table = s.table := by
  unfold ftlSaveLegacyLinkKey
  split <;> rfl

@[simp]
theorem ftlSaveLegacyLinkKey_sort : (s.ftlSaveLegacyLinkKey key idx err).1.sort = s.sort := by
  unfold ftlSaveLegacyLinkKey
  split <;> rfl

@[simp]
theorem ftlSaveLegacyLinkKey_cb : (s.ftlSaveLegacyLinkKey key idx err).1.cb = s.cb := by
  unfold ftlSaveLegacyLinkKey
  split <;> rfl

@[simp]
theorem btBondRemove_table : (s.btBondRemove idx a).table = s.table := rfl

@[simp]
theorem btBondRemove_sort : (s.btBondRemove idx a).sort = s.sort := rfl

theorem clearFlash_ram (as : Nat → Writes) (n : Nat) :
    (s.clearFlash as i n).table = s.table ∧ (s.clearFlash as i n).sort = s.sort := by
  induction n generalizing s i with
  | zero => exact ⟨rfl, rfl⟩
  | succ n ih =>
    unfold clearFlash
    dsimp only
    obtain ⟨htable, hsort⟩ := ih
    rw [htable, hsort]
    split <;> simp

end LegacyStore

end Bond
