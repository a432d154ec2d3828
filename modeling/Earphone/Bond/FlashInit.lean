import Earphone.Bond.Legacy
import Earphone.Lib.Layout

namespace Bond

open Layout (Span)

structure BondFtlCb where
  leFsRemoteBdOffset : Nat
  leFsLocalLtkOffset : Nat
  leFsRemoteLtkOffset : Nat
  leFsRemoteIrkOffset : Nat
  leLinkBlockSize : Nat
  leFsStartOffset : Nat
  commonFsCccdDataOffset : Nat
  stackFtlUsedSize : Nat
  commonFsLinkBlockSize : Nat
  commonFsLeStartOffset : Nat
  commonFsBredrStartOffset : Nat
  commonFsRemoteClientSuppFeatsOffset : Nat

namespace BondFtlCb

def zero : BondFtlCb := ⟨0, 0, 0, 0, 0, 0, 0, 0, 0, 0, 0, 0⟩

def u16 (n : Nat) : Nat := n % 2 ^ 16

theorem u16_of_lt (h : n < 2 ^ 16) : u16 n = n := Nat.mod_eq_of_lt h

def reserve (used : Bool) (size field offset : Nat) : Nat × Nat :=
  if used then (offset, u16 (offset + size)) else (field, offset)

def ftlLeStorageInit (cfg : OtpBondCfg) (cb : BondFtlCb) : BondFtlCb :=
  let remoteBd := u16 (0 + OtpBondCfg.bondPrioritySize)
  let localLtk := reserve (cfg.leKeyStorageFlag.testBit OtpBondCfg.leKeyStoreLocalLtkBit)
    OtpBondCfg.leLtkSize cb.leFsLocalLtkOffset (u16 (remoteBd + OtpBondCfg.bondInfoSize))
  let remoteLtk := reserve (cfg.leKeyStorageFlag.testBit OtpBondCfg.leKeyStoreRemoteLtkBit)
    OtpBondCfg.leLtkSize cb.leFsRemoteLtkOffset localLtk.2
  let remoteIrk := reserve (cfg.leKeyStorageFlag.testBit OtpBondCfg.leKeyStoreRemoteIrkBit)
    OtpBondCfg.leRemoteIrkSize cb.leFsRemoteIrkOffset remoteLtk.2
  let block := u16 (remoteIrk.2 - OtpBondCfg.bondPrioritySize)
  let start := u16 (OtpBondCfg.linkInfoStartOffset +
    cfg.maxLegacyPairedDevice * OtpBondCfg.legacyLinkInfoSize)
  { cb with
    leFsRemoteBdOffset := remoteBd
    leFsLocalLtkOffset := localLtk.1
    leFsRemoteLtkOffset := remoteLtk.1
    leFsRemoteIrkOffset := remoteIrk.1
    leLinkBlockSize := block
    leFsStartOffset := start
    stackFtlUsedSize := u16 (start + block * cfg.maxLePairedDevice + OtpBondCfg.bondPrioritySize) }

def commonFields (cfg : OtpBondCfg) (cb : BondFtlCb) : BondFtlCb :=
  let features := reserve cfg.featuresUsed OtpBondCfg.remoteClientSupportedFeaturesSize
    cb.commonFsRemoteClientSuppFeatsOffset 0
  let cccd := reserve cfg.gattCccdStorage (u16 cfg.cccdSize) cb.commonFsCccdDataOffset features.2
  { cb with
    commonFsRemoteClientSuppFeatsOffset := features.1
    commonFsCccdDataOffset := cccd.1
    commonFsLinkBlockSize := cccd.2 }

def commonLe (cfg : OtpBondCfg) (cb : BondFtlCb) : BondFtlCb :=
  if cb.stackFtlUsedSize ≠ 0 then
    { cb with
      commonFsLeStartOffset := cb.stackFtlUsedSize
      stackFtlUsedSize :=
        u16 (cb.stackFtlUsedSize + cfg.maxLePairedDevice * cb.commonFsLinkBlockSize) }
  else
    cb

def commonBredr (cfg : OtpBondCfg) (cb : BondFtlCb) : BondFtlCb :=
  if cfg.bredrExtInfoStorage then
    let used :=
      if cb.stackFtlUsedSize = 0 then
        u16 (OtpBondCfg.linkInfoStartOffset +
          cfg.maxLegacyPairedDevice * OtpBondCfg.legacyLinkInfoSize)
      else
        cb.stackFtlUsedSize
    { cb with
      commonFsBredrStartOffset := used
      stackFtlUsedSize := u16 (used + cfg.maxLegacyPairedDevice * cb.commonFsLinkBlockSize) }
  else
    cb

def ftlStorageCommonInit (cfg : OtpBondCfg) (cb : BondFtlCb) : BondFtlCb :=
  if cfg.gapBondManager then cb else commonBredr cfg (commonLe cfg (commonFields cfg cb))

def init (cfg : OtpBondCfg) : BondFtlCb := ftlStorageCommonInit cfg (ftlLeStorageInit cfg zero)

def getCommonBlockOffset (cfg : OtpBondCfg) (cb : BondFtlCb) (type : DevType) (idx : Nat) :
    Option Nat :=
  match type with
  | .le =>
    if idx ≥ cfg.maxLePairedDevice then none
    else if cb.commonFsLeStartOffset ≠ 0 then some cb.commonFsLeStartOffset else none
  | .legacy =>
    if idx ≥ cfg.maxLegacyPairedDevice then none
    else if cb.commonFsBredrStartOffset ≠ 0 then some cb.commonFsBredrStartOffset else none

end BondFtlCb

inductive FtlLeKey where
  | localLtk
  | remoteLtk
  | remoteIrk
  deriving DecidableEq

inductive FtlRecord where
  | bondPriority (type : DevType)
  | legacyRemoteBd (idx : Nat)
  | legacyLinkKey (idx : Nat)
  | leRemoteBd (idx : Nat)
  | leKey (key : FtlLeKey) (idx : Nat)
  | remoteClientSupportedFeatures (type : DevType) (idx : Nat)
  | cccd (type : DevType) (idx : Nat)
  deriving DecidableEq

namespace FtlLeKey

def bit : FtlLeKey → Nat
  | .localLtk => OtpBondCfg.leKeyStoreLocalLtkBit
  | .remoteLtk => OtpBondCfg.leKeyStoreRemoteLtkBit
  | .remoteIrk => OtpBondCfg.leKeyStoreRemoteIrkBit

def size : FtlLeKey → Nat
  | .localLtk => OtpBondCfg.leLtkSize
  | .remoteLtk => OtpBondCfg.leLtkSize
  | .remoteIrk => OtpBondCfg.leRemoteIrkSize

def fsOffset (cb : BondFtlCb) : FtlLeKey → Nat
  | .localLtk => cb.leFsLocalLtkOffset
  | .remoteLtk => cb.leFsRemoteLtkOffset
  | .remoteIrk => cb.leFsRemoteIrkOffset

end FtlLeKey

namespace BondFtlCb

def impFtlSpan (startOffset blockSize size idx : Nat) : Span :=
  ⟨u16 (u16 startOffset + idx * blockSize), size⟩

def span (cfg : OtpBondCfg) (cb : BondFtlCb) : FtlRecord → Option Span
  | .bondPriority .le =>
    some (impFtlSpan cb.leFsStartOffset 0 OtpBondCfg.bondPrioritySize 0)
  | .bondPriority .legacy =>
    some (impFtlSpan LegacyStore.legacyBondPriorityOffset 0 OtpBondCfg.bondPrioritySize 0)
  | .legacyRemoteBd idx =>
    if idx ≥ cfg.maxLegacyPairedDevice then none
    else some (impFtlSpan LegacyStore.legacyLinkInfoBdOffset OtpBondCfg.legacyLinkInfoSize
      OtpBondCfg.bondInfoSize idx)
  | .legacyLinkKey idx =>
    if idx ≥ cfg.maxLegacyPairedDevice then none
    else some (impFtlSpan LegacyStore.legacyLinkInfoLinkkeyOffset OtpBondCfg.legacyLinkInfoSize 16
      idx)
  | .leRemoteBd idx =>
    if idx ≥ cfg.maxLePairedDevice then none
    else some (impFtlSpan (cb.leFsStartOffset + cb.leFsRemoteBdOffset) cb.leLinkBlockSize
      OtpBondCfg.bondInfoSize idx)
  | .leKey key idx =>
    if !cfg.leKeyStorageFlag.testBit key.bit then none
    else if idx ≥ cfg.maxLePairedDevice then none
    else some (impFtlSpan (cb.leFsStartOffset + key.fsOffset cb) cb.leLinkBlockSize key.size idx)
  | .remoteClientSupportedFeatures type idx =>
    if !cfg.featuresUsed then none
    else (getCommonBlockOffset cfg cb type idx).map fun start =>
      impFtlSpan (start + cb.commonFsRemoteClientSuppFeatsOffset) cb.commonFsLinkBlockSize
        OtpBondCfg.remoteClientSupportedFeaturesSize idx
  | .cccd type idx =>
    if !cfg.gattCccdStorage then none
    else (getCommonBlockOffset cfg cb type idx).map fun start =>
      impFtlSpan (start + cb.commonFsCccdDataOffset) cb.commonFsLinkBlockSize cfg.cccdSize idx

end BondFtlCb

def OtpBondCfg.totalUsedSize (cfg : OtpBondCfg) : Nat :=
  if cfg.gapBondManager then cfg.stackFtlUsedSize
  else if cfg.bredrExtInfoStorage then cfg.commonEnd else cfg.commonBredrOffset

section

open BondFtlCb

variable {cfg : OtpBondCfg}

theorem stackFtlUsedSize_le : cfg.stackFtlUsedSize ≤ cfg.totalUsedSize := by
  unfold OtpBondCfg.totalUsedSize OtpBondCfg.commonEnd OtpBondCfg.commonBredrOffset
  split
  . exact Nat.le_refl _
  . split <;> omega

theorem commonBredrOffset_le (hgap : cfg.gapBondManager = false) :
    cfg.commonBredrOffset ≤ cfg.totalUsedSize := by
  unfold OtpBondCfg.totalUsedSize OtpBondCfg.commonEnd
  rw [if_neg (by simp [hgap])]
  split <;> omega

theorem stackFtlUsedSize_pos : 0 < cfg.stackFtlUsedSize :=
  Nat.lt_of_lt_of_le (show 0 < OtpBondCfg.bondPrioritySize by decide) (Nat.le_add_left ..)

theorem reserve_of_lt (h : offset + size < 2 ^ 16) :
    reserve used size field offset =
      (if used then offset else field, offset + if used then size else 0) := by
  unfold reserve
  split
  . rw [u16_of_lt h]
  . rfl

theorem leLinkBlockSize_le :
    cfg.leLinkBlockSize ≤ OtpBondCfg.bondInfoSize + 2 * OtpBondCfg.leLtkSize +
      OtpBondCfg.leRemoteIrkSize := by
  unfold OtpBondCfg.leLinkBlockSize
  split <;> split <;> split <;> omega

def OtpBondCfg.leKeyOffset (cfg : OtpBondCfg) : FtlLeKey → Nat
  | .localLtk => OtpBondCfg.bondInfoSize
  | .remoteLtk => OtpBondCfg.bondInfoSize +
    if cfg.leKeyStorageFlag.testBit OtpBondCfg.leKeyStoreLocalLtkBit then OtpBondCfg.leLtkSize
      else 0
  | .remoteIrk => OtpBondCfg.bondInfoSize +
    (if cfg.leKeyStorageFlag.testBit OtpBondCfg.leKeyStoreLocalLtkBit then OtpBondCfg.leLtkSize
      else 0) +
    if cfg.leKeyStorageFlag.testBit OtpBondCfg.leKeyStoreRemoteLtkBit then OtpBondCfg.leLtkSize
      else 0

theorem ftlLeStorageInit_eq (h : cfg.stackFtlUsedSize < 2 ^ 16) (cb : BondFtlCb) :
    ftlLeStorageInit cfg cb =
      { cb with
        leFsRemoteBdOffset := OtpBondCfg.bondPrioritySize
        leFsLocalLtkOffset :=
          if cfg.leKeyStorageFlag.testBit OtpBondCfg.leKeyStoreLocalLtkBit
          then OtpBondCfg.bondPrioritySize + cfg.leKeyOffset .localLtk else cb.leFsLocalLtkOffset
        leFsRemoteLtkOffset :=
          if cfg.leKeyStorageFlag.testBit OtpBondCfg.leKeyStoreRemoteLtkBit
          then OtpBondCfg.bondPrioritySize + cfg.leKeyOffset .remoteLtk else cb.leFsRemoteLtkOffset
        leFsRemoteIrkOffset :=
          if cfg.leKeyStorageFlag.testBit OtpBondCfg.leKeyStoreRemoteIrkBit
          then OtpBondCfg.bondPrioritySize + cfg.leKeyOffset .remoteIrk else cb.leFsRemoteIrkOffset
        leLinkBlockSize := cfg.leLinkBlockSize
        leFsStartOffset := cfg.leStartOffset
        stackFtlUsedSize := cfg.stackFtlUsedSize } := by
  have hstart : u16 (OtpBondCfg.linkInfoStartOffset +
      cfg.maxLegacyPairedDevice * OtpBondCfg.legacyLinkInfoSize) = cfg.leStartOffset := by
    refine u16_of_lt ?_
    unfold OtpBondCfg.stackFtlUsedSize OtpBondCfg.leStartOffset at h
    omega
  have hblock : OtpBondCfg.bondPrioritySize + cfg.leLinkBlockSize < 2 ^ 16 := by
    have := @leLinkBlockSize_le cfg
    simp only [OtpBondCfg.bondInfoSize, OtpBondCfg.leLtkSize, OtpBondCfg.leRemoteIrkSize] at this
    simp only [OtpBondCfg.bondPrioritySize]
    omega
  have hremoteBd : u16 (0 + OtpBondCfg.bondPrioritySize) = OtpBondCfg.bondPrioritySize := rfl
  have hinfo : u16 (OtpBondCfg.bondPrioritySize + OtpBondCfg.bondInfoSize) =
      OtpBondCfg.bondPrioritySize + OtpBondCfg.bondInfoSize := rfl
  unfold ftlLeStorageInit
  dsimp only
  rw [hremoteBd, hinfo, hstart]
  have hsmall : ∀ used : Bool, ∀ size, (if used then size else 0) ≤ size := by
    intro used size
    split <;> omega
  have hlocal := hsmall (cfg.leKeyStorageFlag.testBit OtpBondCfg.leKeyStoreLocalLtkBit)
    OtpBondCfg.leLtkSize
  have hremote := hsmall (cfg.leKeyStorageFlag.testBit OtpBondCfg.leKeyStoreRemoteLtkBit)
    OtpBondCfg.leLtkSize
  rw [reserve_of_lt (by decide)]
  dsimp only
  rw [reserve_of_lt (by
    simp only [OtpBondCfg.bondPrioritySize, OtpBondCfg.bondInfoSize, OtpBondCfg.leLtkSize] at *
    omega)]
  dsimp only
  rw [reserve_of_lt (by
    simp only [OtpBondCfg.bondPrioritySize, OtpBondCfg.bondInfoSize, OtpBondCfg.leLtkSize,
      OtpBondCfg.leRemoteIrkSize] at *
    omega)]
  dsimp only
  have hsize : OtpBondCfg.bondPrioritySize + OtpBondCfg.bondInfoSize +
      (if cfg.leKeyStorageFlag.testBit OtpBondCfg.leKeyStoreLocalLtkBit = true then
        OtpBondCfg.leLtkSize else 0) +
      (if cfg.leKeyStorageFlag.testBit OtpBondCfg.leKeyStoreRemoteLtkBit = true then
        OtpBondCfg.leLtkSize else 0) +
      (if cfg.leKeyStorageFlag.testBit OtpBondCfg.leKeyStoreRemoteIrkBit = true then
        OtpBondCfg.leRemoteIrkSize else 0) - OtpBondCfg.bondPrioritySize = cfg.leLinkBlockSize := by
    unfold OtpBondCfg.leLinkBlockSize
    omega
  rw [hsize, u16_of_lt (show cfg.leLinkBlockSize < 2 ^ 16 by omega), u16_of_lt (by exact h)]
  simp only [OtpBondCfg.leKeyOffset, Nat.add_assoc, OtpBondCfg.stackFtlUsedSize]

section

variable (hle : 0 < cfg.maxLePairedDevice) (hgap : cfg.gapBondManager = false)

include hle hgap

theorem commonLinkBlockSize_le :
    cfg.stackFtlUsedSize + cfg.commonLinkBlockSize ≤ cfg.totalUsedSize := by
  have hblock : cfg.commonLinkBlockSize ≤ cfg.maxLePairedDevice * cfg.commonLinkBlockSize :=
    Nat.le_mul_of_pos_left _ hle
  have := commonBredrOffset_le hgap
  unfold OtpBondCfg.commonBredrOffset at this
  omega

theorem commonFields_eq (h : cfg.totalUsedSize < 2 ^ 16) (cb : BondFtlCb) :
    commonFields cfg cb =
      { cb with
        commonFsRemoteClientSuppFeatsOffset :=
          if cfg.featuresUsed then 0 else cb.commonFsRemoteClientSuppFeatsOffset
        commonFsCccdDataOffset :=
          if cfg.gattCccdStorage then cfg.commonCccdDataOffset else cb.commonFsCccdDataOffset
        commonFsLinkBlockSize := cfg.commonLinkBlockSize } := by
  have hblock := commonLinkBlockSize_le hle hgap
  have hfeatures : 0 + (if cfg.featuresUsed then OtpBondCfg.remoteClientSupportedFeaturesSize
      else 0) = cfg.commonCccdDataOffset := Nat.zero_add _
  have hreserve : ∀ field, reserve cfg.featuresUsed OtpBondCfg.remoteClientSupportedFeaturesSize
      field 0 = (if cfg.featuresUsed then 0 else field, cfg.commonCccdDataOffset) := by
    intro field
    rw [← hfeatures]
    exact reserve_of_lt (by decide)
  unfold commonFields
  rw [hreserve]
  dsimp only
  unfold OtpBondCfg.commonLinkBlockSize at hblock ⊢
  cases hcccd : cfg.gattCccdStorage with
  | false => rfl
  | true =>
    rw [hcccd, if_pos rfl] at hblock
    rw [u16_of_lt (by omega), reserve_of_lt (by omega)]

theorem ftlStorageCommonInit_eq (h : cfg.totalUsedSize < 2 ^ 16)
    (hused : cb.stackFtlUsedSize = cfg.stackFtlUsedSize) :
    ftlStorageCommonInit cfg cb =
      { cb with
        commonFsRemoteClientSuppFeatsOffset :=
          if cfg.featuresUsed then 0 else cb.commonFsRemoteClientSuppFeatsOffset
        commonFsCccdDataOffset :=
          if cfg.gattCccdStorage then cfg.commonCccdDataOffset else cb.commonFsCccdDataOffset
        commonFsLinkBlockSize := cfg.commonLinkBlockSize
        commonFsLeStartOffset := cfg.stackFtlUsedSize
        commonFsBredrStartOffset :=
          if cfg.bredrExtInfoStorage then cfg.commonBredrOffset else cb.commonFsBredrStartOffset
        stackFtlUsedSize := cfg.totalUsedSize } := by
  have hpos := @stackFtlUsedSize_pos cfg
  have hbredr := commonBredrOffset_le hgap
  have hmanager : ¬cfg.gapBondManager = true := by simp [hgap]
  unfold ftlStorageCommonInit
  rw [if_neg hmanager, commonFields_eq hle hgap h]
  have hsum : u16 (cfg.stackFtlUsedSize + cfg.maxLePairedDevice * cfg.commonLinkBlockSize) =
      cfg.commonBredrOffset := u16_of_lt (by unfold OtpBondCfg.commonBredrOffset at hbredr; omega)
  unfold commonLe
  dsimp only
  rw [hused, if_pos (by omega), hsum]
  unfold OtpBondCfg.totalUsedSize at h ⊢
  rw [if_neg hmanager] at h ⊢
  unfold commonBredr
  dsimp only
  split
  . next hext =>
    rw [if_pos hext] at h
    have hnz : cfg.commonBredrOffset ≠ 0 := by
      unfold OtpBondCfg.commonBredrOffset
      omega
    rw [if_neg hnz, u16_of_lt (by exact h)]
    rfl
  . rfl

end

theorem stackFtlUsedSize_init (hle : 0 < cfg.maxLePairedDevice) (h : cfg.totalUsedSize < 2 ^ 16) :
    (init cfg).stackFtlUsedSize = cfg.totalUsedSize := by
  have hstack := Nat.lt_of_le_of_lt stackFtlUsedSize_le h
  unfold init
  cases hgap : cfg.gapBondManager with
  | true =>
    unfold ftlStorageCommonInit OtpBondCfg.totalUsedSize
    rw [hgap, if_pos rfl, if_pos rfl, ftlLeStorageInit_eq hstack]
  | false =>
    rw [ftlStorageCommonInit_eq hle hgap h (by rw [ftlLeStorageInit_eq hstack])]

structure LeKept (cb cb' : BondFtlCb) : Prop where
  fsStart : cb'.leFsStartOffset = cb.leFsStartOffset
  fsRemoteBd : cb'.leFsRemoteBdOffset = cb.leFsRemoteBdOffset
  linkBlock : cb'.leLinkBlockSize = cb.leLinkBlockSize
  fsOffset : ∀ key : FtlLeKey, key.fsOffset cb' = key.fsOffset cb

theorem LeKept.refl (cb : BondFtlCb) : LeKept cb cb := ⟨rfl, rfl, rfl, fun _ => rfl⟩

theorem LeKept.trans (h : LeKept cb cb') (h' : LeKept cb' cb'') : LeKept cb cb'' where
  fsStart := h'.fsStart.trans h.fsStart
  fsRemoteBd := h'.fsRemoteBd.trans h.fsRemoteBd
  linkBlock := h'.linkBlock.trans h.linkBlock
  fsOffset key := (h'.fsOffset key).trans (h.fsOffset key)

theorem commonFields_leKept (cb : BondFtlCb) : LeKept cb (commonFields cfg cb) :=
  ⟨rfl, rfl, rfl, fun key => by cases key <;> rfl⟩

theorem commonLe_leKept (cb : BondFtlCb) : LeKept cb (commonLe cfg cb) := by
  unfold commonLe
  split
  . exact ⟨rfl, rfl, rfl, fun key => by cases key <;> rfl⟩
  . exact LeKept.refl cb

theorem commonBredr_leKept (cb : BondFtlCb) : LeKept cb (commonBredr cfg cb) := by
  unfold commonBredr
  split
  . exact ⟨rfl, rfl, rfl, fun key => by cases key <;> rfl⟩
  . exact LeKept.refl cb

theorem ftlStorageCommonInit_le (cb : BondFtlCb) : LeKept cb (ftlStorageCommonInit cfg cb) := by
  unfold ftlStorageCommonInit
  split
  . exact LeKept.refl cb
  . exact ((commonFields_leKept cb).trans (commonLe_leKept _)).trans (commonBredr_leKept _)

end

inductive Region where
  | legacyPriority
  | legacy
  | lePriority
  | le
  | commonLe
  | commonBredr
  deriving DecidableEq

namespace Region

variable (cfg : OtpBondCfg)

def rank : Region → Nat
  | .legacyPriority => 0
  | .legacy => 1
  | .lePriority => 2
  | .le => 3
  | .commonLe => 4
  | .commonBredr => 5

def start : Region → Nat
  | .legacyPriority => LegacyStore.legacyBondPriorityOffset
  | .legacy => OtpBondCfg.linkInfoStartOffset
  | .lePriority => cfg.leStartOffset
  | .le => cfg.leStartOffset + OtpBondCfg.bondPrioritySize
  | .commonLe => cfg.stackFtlUsedSize
  | .commonBredr => cfg.commonBredrOffset

def count : Region → Nat
  | .legacyPriority => 1
  | .legacy => cfg.maxLegacyPairedDevice
  | .lePriority => 1
  | .le => cfg.maxLePairedDevice
  | .commonLe => cfg.maxLePairedDevice
  | .commonBredr => cfg.maxLegacyPairedDevice

def block : Region → Nat
  | .legacyPriority => OtpBondCfg.bondPrioritySize
  | .legacy => OtpBondCfg.legacyLinkInfoSize
  | .lePriority => OtpBondCfg.bondPrioritySize
  | .le => cfg.leLinkBlockSize
  | .commonLe => cfg.commonLinkBlockSize
  | .commonBredr => cfg.commonLinkBlockSize

def Used : Region → Prop
  | .commonLe => cfg.gapBondManager = false
  | .commonBredr => cfg.gapBondManager = false ∧ cfg.bredrExtInfoStorage = true
  | _ => True

def stop (r : Region) : Nat := r.start cfg + r.count cfg * r.block cfg

variable {cfg}

theorem stop_le_start {r r' : Region} (h : r.rank < r'.rank) : r.stop cfg ≤ r'.start cfg := by
  have hcomm := Nat.mul_comm cfg.maxLePairedDevice cfg.leLinkBlockSize
  have hle : OtpBondCfg.linkInfoStartOffset +
      cfg.maxLegacyPairedDevice * OtpBondCfg.legacyLinkInfoSize = cfg.leStartOffset := rfl
  have hlegacy : LegacyStore.legacyBondPriorityOffset + 1 * OtpBondCfg.bondPrioritySize =
      OtpBondCfg.linkInfoStartOffset := rfl
  have hstack : cfg.stackFtlUsedSize = cfg.leStartOffset +
      cfg.leLinkBlockSize * cfg.maxLePairedDevice + OtpBondCfg.bondPrioritySize := rfl
  have hbredr : cfg.commonBredrOffset = cfg.stackFtlUsedSize +
      cfg.maxLePairedDevice * cfg.commonLinkBlockSize := rfl
  unfold stop
  cases r <;> cases r' <;> simp only [rank, Nat.reduceLT] at h <;>
    simp only [start, count, block] <;> omega

theorem stop_le {r : Region} (h : r.Used cfg) : r.stop cfg ≤ cfg.totalUsedSize := by
  have hcomm := Nat.mul_comm cfg.maxLePairedDevice cfg.leLinkBlockSize
  have hstack : cfg.stackFtlUsedSize = cfg.leStartOffset +
      cfg.leLinkBlockSize * cfg.maxLePairedDevice + OtpBondCfg.bondPrioritySize := rfl
  have htotal := @stackFtlUsedSize_le cfg
  have hle : (Region.le).stop cfg ≤ cfg.totalUsedSize := by
    simp only [stop, start, count, block]
    omega
  have hfront : ∀ r : Region, r.rank < (Region.le).rank → r.stop cfg ≤ cfg.totalUsedSize := by
    intro r hr
    have := @stop_le_start cfg _ _ hr
    have : (Region.le).start cfg ≤ (Region.le).stop cfg := Nat.le_add_right ..
    omega
  cases r with
  | legacyPriority => exact hfront _ (by decide)
  | legacy => exact hfront _ (by decide)
  | lePriority => exact hfront _ (by decide)
  | le => exact hle
  | commonLe => exact commonBredrOffset_le h
  | commonBredr =>
    unfold OtpBondCfg.totalUsedSize
    rw [if_neg (by simp [h.1]), if_pos h.2]
    exact Nat.le_refl _

end Region

namespace FtlRecord

variable (cfg : OtpBondCfg)

def region : FtlRecord → Region
  | .bondPriority .le => .lePriority
  | .bondPriority .legacy => .legacyPriority
  | .legacyRemoteBd _ => .legacy
  | .legacyLinkKey _ => .legacy
  | .leRemoteBd _ => .le
  | .leKey _ _ => .le
  | .remoteClientSupportedFeatures .le _ => .commonLe
  | .remoteClientSupportedFeatures .legacy _ => .commonBredr
  | .cccd .le _ => .commonLe
  | .cccd .legacy _ => .commonBredr

def idx : FtlRecord → Nat
  | .bondPriority _ => 0
  | .legacyRemoteBd idx => idx
  | .legacyLinkKey idx => idx
  | .leRemoteBd idx => idx
  | .leKey _ idx => idx
  | .remoteClientSupportedFeatures _ idx => idx
  | .cccd _ idx => idx

def inner : FtlRecord → Nat
  | .legacyLinkKey _ => OtpBondCfg.bondInfoSize
  | .leKey key _ => cfg.leKeyOffset key
  | .cccd _ _ => cfg.commonCccdDataOffset
  | _ => 0

def size : FtlRecord → Nat
  | .bondPriority _ => OtpBondCfg.bondPrioritySize
  | .legacyRemoteBd _ => OtpBondCfg.bondInfoSize
  | .legacyLinkKey _ => 16
  | .leRemoteBd _ => OtpBondCfg.bondInfoSize
  | .leKey key _ => key.size
  | .remoteClientSupportedFeatures _ _ => OtpBondCfg.remoteClientSupportedFeaturesSize
  | .cccd _ _ => cfg.cccdSize

def On : FtlRecord → Prop
  | .leKey key _ => cfg.leKeyStorageFlag.testBit key.bit = true
  | .remoteClientSupportedFeatures _ _ => cfg.featuresUsed = true
  | .cccd _ _ => cfg.gattCccdStorage = true
  | _ => True

structure Kept (r : FtlRecord) : Prop where
  on : r.On cfg
  used : r.region.Used cfg
  idx_lt : r.idx < r.region.count cfg

def order : FtlRecord → Nat
  | .legacyLinkKey _ => 1
  | .leKey .localLtk _ => 1
  | .leKey .remoteLtk _ => 2
  | .leKey .remoteIrk _ => 3
  | .cccd _ _ => 1
  | _ => 0

def place (r : FtlRecord) : Span :=
  ⟨r.region.start cfg + r.idx * r.region.block cfg + r.inner cfg, r.size cfg⟩

variable {cfg} {r r' : FtlRecord}

theorem inner_size_le (h : r.On cfg) : r.inner cfg + r.size cfg ≤ r.region.block cfg := by
  cases r with
  | bondPriority type => cases type <;> exact Nat.le_of_eq (Nat.zero_add _)
  | legacyRemoteBd => simp [inner, size, region, Region.block, OtpBondCfg.legacyLinkInfoSize]
  | legacyLinkKey => exact Nat.le_refl _
  | leRemoteBd =>
    simp only [inner, size, region, Region.block, OtpBondCfg.leLinkBlockSize]
    omega
  | leKey key =>
    cases key <;>
      simp only [On, FtlLeKey.bit] at h <;>
      simp only [inner, size, region, Region.block, OtpBondCfg.leLinkBlockSize, FtlLeKey.size,
        OtpBondCfg.leKeyOffset, h, if_true] <;> omega
  | remoteClientSupportedFeatures type =>
    have hoffset : cfg.commonCccdDataOffset = OtpBondCfg.remoteClientSupportedFeaturesSize :=
      if_pos h
    cases type <;>
      simp only [inner, size, region, Region.block, OtpBondCfg.commonLinkBlockSize, hoffset] <;>
      omega
  | cccd type =>
    have hsize : cfg.commonLinkBlockSize = cfg.commonCccdDataOffset + cfg.cccdSize := by
      unfold OtpBondCfg.commonLinkBlockSize
      rw [if_pos (show cfg.gattCccdStorage = true from h)]
    cases type <;> simp only [inner, size, region, Region.block, hsize, Nat.le_refl]

theorem eq_of_order (hregion : r.region = r'.region) (hidx : r.idx = r'.idx)
    (horder : r.order = r'.order) : r = r' := by
  rcases r with (_ | _) | _ | _ | _ | ⟨_ | _ | _, _⟩ | ⟨_ | _, _⟩ | ⟨_ | _, _⟩ <;>
    rcases r' with (_ | _) | _ | _ | _ | ⟨_ | _ | _, _⟩ | ⟨_ | _, _⟩ | ⟨_ | _, _⟩ <;>
    cases hregion <;> simp_all [idx, order]

theorem inner_le_of_order_lt (h : r.On cfg) (hregion : r.region = r'.region)
    (horder : r.order < r'.order) : r.inner cfg + r.size cfg ≤ r'.inner cfg := by
  rcases r with (_ | _) | _ | _ | _ | ⟨_ | _ | _, _⟩ | ⟨_ | _, _⟩ | ⟨_ | _, _⟩ <;>
    rcases r' with (_ | _) | _ | _ | _ | ⟨_ | _ | _, _⟩ | ⟨_ | _, _⟩ | ⟨_ | _, _⟩ <;>
    cases hregion <;> simp only [order, Nat.lt_irrefl, Nat.reduceLT] at horder <;>
    simp only [On, FtlLeKey.bit] at h <;>
    simp only [inner, size, FtlLeKey.size, OtpBondCfg.leKeyOffset,
      OtpBondCfg.commonCccdDataOffset, h, if_true] <;> omega

theorem place_stop_le (h : r.Kept cfg) : (r.place cfg).stop ≤ r.region.stop cfg := by
  have hinner := inner_size_le h.on
  have hblock : (r.idx + 1) * r.region.block cfg ≤ r.region.count cfg * r.region.block cfg :=
    Nat.mul_le_mul_right _ h.idx_lt
  rw [Nat.succ_mul] at hblock
  unfold Span.stop place Region.stop
  dsimp only
  omega

theorem place_apart_of_idx_lt (h : r.Kept cfg) (hregion : r.region = r'.region)
    (hidx : r.idx < r'.idx) : (r.place cfg).stop ≤ (r'.place cfg).offset := by
  have hinner := inner_size_le h.on
  have hblock : (r.idx + 1) * r.region.block cfg ≤ r'.idx * r.region.block cfg :=
    Nat.mul_le_mul_right _ hidx
  rw [Nat.succ_mul] at hblock
  unfold Span.stop place
  dsimp only
  rw [← hregion]
  omega

theorem place_apart_of_rank_lt (h : r.Kept cfg) (hrank : r.region.rank < r'.region.rank) :
    (r.place cfg).stop ≤ (r'.place cfg).offset := by
  have hstop := place_stop_le h
  have hnext := @Region.stop_le_start cfg _ _ hrank
  have hstart : r'.region.start cfg ≤ (r'.place cfg).offset := by
    unfold place
    dsimp only
    omega
  omega

theorem place_apart (h : r.Kept cfg) (h' : r'.Kept cfg) (hne : r ≠ r') :
    (r.place cfg).Apart (r'.place cfg) := by
  obtain hlt | heq | hgt := Nat.lt_trichotomy r.region.rank r'.region.rank
  . exact .inl (place_apart_of_rank_lt h hlt)
  . have hregion : r.region = r'.region := by
      revert heq
      generalize r.region = a
      generalize r'.region = b
      cases a <;> cases b <;> decide
    obtain hlt | hidx | hgt := Nat.lt_trichotomy r.idx r'.idx
    . exact .inl (place_apart_of_idx_lt h hregion hlt)
    . have hinner : r.inner cfg + r.size cfg ≤ r'.inner cfg ∨
          r'.inner cfg + r'.size cfg ≤ r.inner cfg := by
        obtain hlt | heq | hgt := Nat.lt_trichotomy r.order r'.order
        . exact .inl (inner_le_of_order_lt h.on hregion hlt)
        . exact absurd (eq_of_order hregion hidx heq) hne
        . exact .inr (inner_le_of_order_lt h'.on hregion.symm hgt)
      unfold Span.Apart Span.stop place
      dsimp only
      rw [← hregion, ← hidx]
      omega
    . exact .inr (place_apart_of_idx_lt h' hregion.symm hgt)
  . exact .inr (place_apart_of_rank_lt h' hgt)

end FtlRecord

section

open BondFtlCb

variable {cfg : OtpBondCfg} {r : FtlRecord}

theorem impFtlSpan_eq_place (hr : r.Kept cfg) (h : cfg.totalUsedSize < 2 ^ 16) :
    impFtlSpan (r.region.start cfg + r.inner cfg) (r.region.block cfg) (r.size cfg) r.idx =
      r.place cfg := by
  have hstop := FtlRecord.place_stop_le hr
  have hend := Region.stop_le hr.used
  unfold Span.stop FtlRecord.place at hstop
  dsimp only at hstop
  unfold impFtlSpan FtlRecord.place
  rw [u16_of_lt (show r.region.start cfg + r.inner cfg < 2 ^ 16 by omega), u16_of_lt (by omega)]
  congr 1
  omega

theorem impFtlSpan_bondPriority (type : DevType) (h : cfg.totalUsedSize < 2 ^ 16) :
    impFtlSpan ((FtlRecord.bondPriority type).region.start cfg) 0 OtpBondCfg.bondPrioritySize 0 =
      (FtlRecord.bondPriority type).place cfg := by
  have hkept : (FtlRecord.bondPriority type).Kept cfg := by
    cases type <;> exact ⟨trivial, trivial, Nat.one_pos⟩
  rw [← impFtlSpan_eq_place hkept h]
  unfold impFtlSpan
  simp only [FtlRecord.inner, FtlRecord.idx, FtlRecord.size, Nat.zero_mul, Nat.add_zero]

theorem init_le (h : cfg.totalUsedSize < 2 ^ 16) :
    (init cfg).leFsStartOffset = cfg.leStartOffset ∧
      (init cfg).leFsRemoteBdOffset = OtpBondCfg.bondPrioritySize ∧
      (init cfg).leLinkBlockSize = cfg.leLinkBlockSize ∧
      ∀ key : FtlLeKey, cfg.leKeyStorageFlag.testBit key.bit = true →
        key.fsOffset (init cfg) = OtpBondCfg.bondPrioritySize + cfg.leKeyOffset key := by
  obtain ⟨hstart, hremoteBd, hblock, hkey⟩ :=
    @ftlStorageCommonInit_le cfg (ftlLeStorageInit cfg zero)
  have heq := ftlLeStorageInit_eq (Nat.lt_of_le_of_lt stackFtlUsedSize_le h) zero
  unfold init
  refine ⟨hstart.trans (by rw [heq]), hremoteBd.trans (by rw [heq]), hblock.trans (by rw [heq]),
    fun key hbit => (hkey key).trans ?_⟩
  rw [heq]
  cases key <;> exact if_pos hbit

section

variable (hle : 0 < cfg.maxLePairedDevice) (h : cfg.totalUsedSize < 2 ^ 16)

include hle h

theorem init_common (r : FtlRecord)
    (hregion : r.region = match type with | .le => .commonLe | .legacy => .commonBredr)
    (hidx : r.idx = idx) (hstart : getCommonBlockOffset cfg (init cfg) type idx = some start) :
    r.region.Used cfg ∧ r.idx < r.region.count cfg ∧ start = r.region.start cfg ∧
      (init cfg).commonFsLinkBlockSize = r.region.block cfg ∧
      (init cfg).commonFsRemoteClientSuppFeatsOffset = 0 ∧
      (cfg.gattCccdStorage = true →
        (init cfg).commonFsCccdDataOffset = cfg.commonCccdDataOffset) := by
  have heq := ftlLeStorageInit_eq (Nat.lt_of_le_of_lt stackFtlUsedSize_le h) zero
  cases hgap : cfg.gapBondManager with
  | true =>
    have hinit : init cfg = ftlLeStorageInit cfg zero := if_pos hgap
    rw [hinit, heq] at hstart
    unfold getCommonBlockOffset at hstart
    cases type <;> simp [zero] at hstart
  | false =>
    have hinit := ftlStorageCommonInit_eq hle hgap h
      (show (ftlLeStorageInit cfg zero).stackFtlUsedSize = cfg.stackFtlUsedSize by rw [heq])
    have hfields : (init cfg).commonFsRemoteClientSuppFeatsOffset = 0 ∧
        (cfg.gattCccdStorage = true →
          (init cfg).commonFsCccdDataOffset = cfg.commonCccdDataOffset) := by
      unfold init
      rw [hinit, heq]
      exact ⟨ite_self 0, fun hcccd => if_pos hcccd⟩
    have hblock : (init cfg).commonFsLinkBlockSize = cfg.commonLinkBlockSize := by
      unfold init
      rw [hinit]
    unfold init at hstart
    rw [hinit, heq] at hstart
    unfold getCommonBlockOffset at hstart
    rw [hregion, hidx]
    cases type with
    | le =>
      dsimp only at hstart
      split at hstart
      . cases hstart
      . next hlt =>
        split at hstart
        . cases hstart
          exact ⟨hgap, Nat.lt_of_not_le hlt, rfl, hblock, hfields⟩
        . cases hstart
    | legacy =>
      dsimp only at hstart
      split at hstart
      . cases hstart
      . next hlt =>
        cases hext : cfg.bredrExtInfoStorage with
        | false =>
          rw [hext] at hstart
          cases hstart
        | true =>
          rw [hext, if_pos rfl] at hstart
          split at hstart
          . cases hstart
            exact ⟨⟨hgap, hext⟩, Nat.lt_of_not_le hlt, rfl, hblock, hfields⟩
          . cases hstart

theorem span_eq_place (hs : span cfg (init cfg) r = some s) : r.Kept cfg ∧ s = r.place cfg := by
  obtain ⟨hstart, hremoteBd, hblock, hkey⟩ := init_le h
  unfold span at hs
  cases r with
  | bondPriority type =>
    have hkept : (FtlRecord.bondPriority type).Kept cfg := by
      cases type <;> exact ⟨trivial, trivial, Nat.one_pos⟩
    refine ⟨hkept, ?_⟩
    rw [← impFtlSpan_bondPriority type h]
    cases type with
    | le =>
      rw [hstart] at hs
      exact (Option.some.inj hs).symm
    | legacy => exact (Option.some.inj hs).symm
  | legacyRemoteBd idx =>
    dsimp only at hs
    split at hs
    . cases hs
    . next hlt =>
      have hkept : (FtlRecord.legacyRemoteBd idx).Kept cfg :=
        ⟨trivial, trivial, Nat.lt_of_not_le hlt⟩
      exact ⟨hkept, (Option.some.inj hs).symm.trans (impFtlSpan_eq_place hkept h)⟩
  | legacyLinkKey idx =>
    dsimp only at hs
    split at hs
    . cases hs
    . next hlt =>
      have hkept : (FtlRecord.legacyLinkKey idx).Kept cfg :=
        ⟨trivial, trivial, Nat.lt_of_not_le hlt⟩
      exact ⟨hkept, (Option.some.inj hs).symm.trans (impFtlSpan_eq_place hkept h)⟩
  | leRemoteBd idx =>
    dsimp only at hs
    split at hs
    . cases hs
    . next hlt =>
      have hkept : (FtlRecord.leRemoteBd idx).Kept cfg := ⟨trivial, trivial, Nat.lt_of_not_le hlt⟩
      rw [hstart, hremoteBd, hblock] at hs
      exact ⟨hkept, (Option.some.inj hs).symm.trans (impFtlSpan_eq_place hkept h)⟩
  | leKey key idx =>
    dsimp only at hs
    split at hs
    . cases hs
    . next hbit =>
      rw [Bool.not_eq_true', Bool.not_eq_false] at hbit
      split at hs
      . cases hs
      . next hlt =>
        have hkept : (FtlRecord.leKey key idx).Kept cfg := ⟨hbit, trivial, Nat.lt_of_not_le hlt⟩
        rw [hstart, hkey key hbit, hblock, ← Nat.add_assoc] at hs
        exact ⟨hkept, (Option.some.inj hs).symm.trans (impFtlSpan_eq_place hkept h)⟩
  | remoteClientSupportedFeatures type idx =>
    dsimp only at hs
    split at hs
    . cases hs
    . next hon =>
      rw [Bool.not_eq_true', Bool.not_eq_false] at hon
      obtain ⟨start, hstart, heq⟩ := Option.map_eq_some_iff.mp hs
      obtain ⟨hused, hlt, rfl, hcommon, hfeatures, -⟩ := init_common hle h
        (.remoteClientSupportedFeatures type idx) (by cases type <;> rfl) rfl hstart
      have hkept : (FtlRecord.remoteClientSupportedFeatures type idx).Kept cfg := ⟨hon, hused, hlt⟩
      rw [hfeatures, hcommon] at heq
      exact ⟨hkept, heq.symm.trans (impFtlSpan_eq_place hkept h)⟩
  | cccd type idx =>
    dsimp only at hs
    split at hs
    . cases hs
    . next hon =>
      rw [Bool.not_eq_true', Bool.not_eq_false] at hon
      obtain ⟨start, hstart, heq⟩ := Option.map_eq_some_iff.mp hs
      obtain ⟨hused, hlt, rfl, hcommon, -, hcccd⟩ := init_common hle h
        (.cccd type idx) (by cases type <;> rfl) rfl hstart
      have hkept : (FtlRecord.cccd type idx).Kept cfg := ⟨hon, hused, hlt⟩
      rw [hcccd hon, hcommon] at heq
      exact ⟨hkept, heq.symm.trans (impFtlSpan_eq_place hkept h)⟩

end

theorem ftlRecords_disjoint (cfg : OtpBondCfg) (hle : 0 < cfg.maxLePairedDevice)
    (h : cfg.totalUsedSize < 2 ^ 16) :
    (init cfg).stackFtlUsedSize = cfg.totalUsedSize ∧
      (∀ r s, span cfg (init cfg) r = some s → s.stop ≤ (init cfg).stackFtlUsedSize) ∧
      ∀ r r' s s', r ≠ r' → span cfg (init cfg) r = some s → span cfg (init cfg) r' = some s' →
        s.Apart s' := by
  have hused := stackFtlUsedSize_init hle h
  refine ⟨hused, fun r s hs => ?_, fun r r' s s' hne hs hs' => ?_⟩
  . obtain ⟨hkept, rfl⟩ := span_eq_place hle h hs
    rw [hused]
    exact Nat.le_trans (FtlRecord.place_stop_le hkept) (Region.stop_le hkept.used)
  . obtain ⟨hkept, rfl⟩ := span_eq_place hle h hs
    obtain ⟨hkept', rfl⟩ := span_eq_place hle h hs'
    exact FtlRecord.place_apart hkept hkept' hne

theorem ftlRecords_disjoint_full : (⟨284, 32⟩ : Span).Apart ⟨316, 32⟩ :=
  (ftlRecords_disjoint ⟨false, true, 16, 0xf, 4, 4, true, true, true⟩ (by decide) (by decide)).2.2
    (.leKey .localLtk 0) (.leKey .remoteLtk 0) _ _ (by decide) (by decide) (by decide)

end

end Bond
