import Mathlib.Algebra.GroupWithZero.Nat
import Mathlib.Tactic.Common

/-!
This module contains the flash of the bond manager.
-/

namespace Bond

open List

abbrev Flash := Nat → Option UInt8

def Flash.save (flash : Flash) (offset : Nat) (data : List UInt8) : Flash := fun o =>
  if offset ≤ o ∧ o < offset + data.length then data[o - offset]? else flash o

def Flash.load (flash : Flash) (offset : Nat) : Nat → Option (List UInt8)
  | 0 => some []
  | size + 1 => do
    let b ← flash offset
    let rest ← Flash.load flash (offset + 1) size
    return b :: rest

inductive DevType where
  | legacy
  | le
  deriving DecidableEq

structure OtpBondCfg where
  gapBondManager : Bool
  gattCccdStorage : Bool
  gattStorageCccBitsCount : Nat
  leKeyStorageFlag : Nat
  maxLePairedDevice : Nat
  maxLegacyPairedDevice : Nat
  bredrExtInfoStorage : Bool
  useGattsClientSupportedFeatures : Bool
  clientSupportedFeatures51 : Bool

namespace OtpBondCfg

def bondPrioritySize : Nat := 20

def bondInfoSize : Nat := 20

def legacyLinkInfoSize : Nat := bondInfoSize + 16

def leLtkSize : Nat := 32

def leRemoteIrkSize : Nat := 24

def remoteClientSupportedFeaturesSize : Nat := 4

def linkInfoStartOffset : Nat := 100

def leKeyStoreLocalLtkBit : Nat := 1

def leKeyStoreRemoteLtkBit : Nat := 2

def leKeyStoreRemoteIrkBit : Nat := 3

variable (cfg : OtpBondCfg)

def leLinkBlockSize : Nat :=
  bondInfoSize + (if cfg.leKeyStorageFlag.testBit leKeyStoreLocalLtkBit then leLtkSize else 0) +
    (if cfg.leKeyStorageFlag.testBit leKeyStoreRemoteLtkBit then leLtkSize else 0) +
    if cfg.leKeyStorageFlag.testBit leKeyStoreRemoteIrkBit then leRemoteIrkSize else 0

def leStartOffset : Nat := linkInfoStartOffset + cfg.maxLegacyPairedDevice * legacyLinkInfoSize

def stackFtlUsedSize : Nat :=
  cfg.leStartOffset + cfg.leLinkBlockSize * cfg.maxLePairedDevice + bondPrioritySize

def featuresUsed : Bool := cfg.clientSupportedFeatures51 && cfg.useGattsClientSupportedFeatures

def commonCccdDataOffset : Nat :=
  if cfg.featuresUsed then remoteClientSupportedFeaturesSize else 0

def cccdSize : Nat := 4 + 4 * cfg.gattStorageCccBitsCount

def commonLinkBlockSize : Nat :=
  cfg.commonCccdDataOffset + if cfg.gattCccdStorage then cfg.cccdSize else 0

def commonBredrOffset : Nat :=
  cfg.stackFtlUsedSize + cfg.maxLePairedDevice * cfg.commonLinkBlockSize

def commonEnd : Nat := cfg.commonBredrOffset + cfg.maxLegacyPairedDevice * cfg.commonLinkBlockSize

end OtpBondCfg

structure BondCb where
  cfg : OtpBondCfg
  fits : cfg.commonEnd < 2 ^ 16

namespace BondCb

variable (cb : BondCb) (flash : Flash)

def commonLeStartOffset : Nat :=
  if cb.cfg.gapBondManager then 0 else cb.cfg.stackFtlUsedSize

def commonBredrStartOffset : Nat :=
  if cb.cfg.gapBondManager then 0
  else if cb.cfg.bredrExtInfoStorage then cb.cfg.commonBredrOffset else 0

def ftlGetCommonBlockOffset (type : DevType) (idx : Nat) : Option Nat :=
  match type with
  | .le =>
    if idx ≥ cb.cfg.maxLePairedDevice then none
    else if cb.commonLeStartOffset ≠ 0 then some cb.commonLeStartOffset else none
  | .legacy =>
    if idx ≥ cb.cfg.maxLegacyPairedDevice then none
    else if cb.commonBredrStartOffset ≠ 0 then some cb.commonBredrStartOffset else none

def impFtlSave (data : List UInt8) (startOffset blockSize idx hasError : Nat) : Flash × Nat :=
  (if hasError = 0 then flash.save (startOffset + idx * blockSize) data else flash, hasError)

def impFtlLoad (startOffset blockSize size idx : Nat) : Option (List UInt8) :=
  flash.load (startOffset + idx * blockSize) size

def ftlSaveRemoteClientSupportedFeatures (type : DevType) (data : List UInt8) (idx hasError : Nat) :
    Flash × Nat :=
  if cb.cfg.useGattsClientSupportedFeatures then
    match cb.ftlGetCommonBlockOffset type idx with
    | none => (flash, 1)
    | some start => impFtlSave flash data start cb.cfg.commonLinkBlockSize idx hasError
  else
    (flash, 2)

def ftlLoadRemoteClientSupportedFeatures (type : DevType) (idx : Nat) : Option (List UInt8) :=
  if cb.cfg.featuresUsed then do
    let start ← cb.ftlGetCommonBlockOffset type idx
    impFtlLoad flash start cb.cfg.commonLinkBlockSize OtpBondCfg.remoteClientSupportedFeaturesSize
      idx
  else
    none

def ftlSaveCccd (type : DevType) (data : List UInt8) (idx hasError : Nat) : Flash × Nat :=
  if cb.cfg.gattCccdStorage then
    match cb.ftlGetCommonBlockOffset type idx with
    | none => (flash, 1)
    | some start =>
      impFtlSave flash data (start + cb.cfg.commonCccdDataOffset) cb.cfg.commonLinkBlockSize idx
        hasError
  else
    (flash, 2)

def ftlReadCccdLength (type : DevType) (idx : Nat) : Nat :=
  if cb.cfg.gattCccdStorage then
    match cb.ftlGetCommonBlockOffset type idx with
    | none => 0
    | some start =>
      match impFtlLoad flash (start + cb.cfg.commonCccdDataOffset) cb.cfg.commonLinkBlockSize 4
        idx with
      | some (length :: _) => length.toNat
      | _ => 0
  else
    0

def ftlLoadCccd (type : DevType) (idx : Nat) : Option (List UInt8) :=
  if cb.cfg.gattCccdStorage then do
    let start ← cb.ftlGetCommonBlockOffset type idx
    let length := (cb.ftlReadCccdLength flash type idx + 4) % 2 ^ 8
    if length = 4 ∨ length > cb.cfg.cccdSize % 2 ^ 8 then
      none
    else
      impFtlLoad flash (start + cb.cfg.commonCccdDataOffset) cb.cfg.commonLinkBlockSize length idx
  else
    none

def btBondGetCccdData (type : DevType) (idx : Nat) : Option (List UInt8) :=
  if cb.cfg.gapBondManager then none else cb.ftlLoadCccd flash type idx

def btBondRemove (type : DevType) (idx : Nat) (padding₁ padding₂ : UInt8 × UInt8 × UInt8)
    (hasError₁ hasError₂ : Nat) : Flash :=
  let flash₁ :=
    if cb.cfg.clientSupportedFeatures51 then
      (cb.ftlSaveRemoteClientSupportedFeatures flash .le
        [0, padding₁.1, padding₁.2.1, padding₁.2.2] idx hasError₁).1
    else
      flash
  (cb.ftlSaveCccd flash₁ type [0, padding₂.1, padding₂.2.1, padding₂.2.2] idx hasError₂).1

def InBlock (type : DevType) (idx o : Nat) : Prop :=
  ∃ start ∈ cb.ftlGetCommonBlockOffset type idx,
    start + idx * cb.cfg.commonLinkBlockSize ≤ o ∧
      o < start + idx * cb.cfg.commonLinkBlockSize + cb.cfg.commonLinkBlockSize

end BondCb

section

variable {flash flash' : Flash} {offset size o : Nat} {data : List UInt8}

theorem Flash.save_of_not (h : ¬(offset ≤ o ∧ o < offset + data.length)) :
    flash.save offset data o = flash o := if_neg h

theorem Flash.save_of (h : offset ≤ o ∧ o < offset + data.length) :
    flash.save offset data o = data[o - offset]? := if_pos h

theorem Flash.load_congr (h : ∀ o, offset ≤ o → o < offset + size → flash' o = flash o) :
    flash'.load offset size = flash.load offset size := by
  induction size generalizing offset with
  | zero => rfl
  | succ size ih =>
    rw [load, load, h offset (Nat.le_refl _) (by omega),
      ih fun o hle hlt => h o (by omega) (by omega)]

theorem Flash.load_save (flash : Flash) (offset : Nat) (data : List UInt8) :
    (flash.save offset data).load offset data.length = some data := by
  induction data generalizing flash offset with
  | nil => rfl
  | cons b data ih =>
    have hrest : (flash.save offset (b :: data)).load (offset + 1) data.length =
        (flash.save (offset + 1) data).load (offset + 1) data.length := by
      refine load_congr fun o hle hlt => ?_
      rw [save_of ⟨by omega, by simp only [length_cons]; omega⟩, save_of ⟨hle, hlt⟩,
        show o - offset = (o - (offset + 1)) + 1 by omega, getElem?_cons_succ]
    have hhead : flash.save offset (b :: data) offset = some b := by
      rw [save_of ⟨Nat.le_refl _, by simp⟩, Nat.sub_self, getElem?_cons_zero]
    rw [length_cons, load, hhead, hrest, ih]
    rfl

theorem Flash.save_load (h : flash.load offset data.length = some data) :
    flash.save offset data = flash := by
  funext o
  unfold save
  split
  . next ho =>
    induction data generalizing offset with
    | nil => simp only [length_nil] at ho; omega
    | cons b data ih =>
      rw [length_cons, load] at h
      obtain ⟨b', hb', rest, hrest, heq⟩ : ∃ b', flash offset = some b' ∧ ∃ rest,
          flash.load (offset + 1) data.length = some rest ∧ b' :: rest = b :: data := by
        cases hb : flash offset with
        | none => rw [hb] at h; cases h
        | some b' =>
          cases hr : flash.load (offset + 1) data.length with
          | none => rw [hb, hr] at h; cases h
          | some rest => rw [hb, hr] at h; exact ⟨b', rfl, rest, rfl, Option.some.inj h⟩
      cases heq
      by_cases ho' : o = offset
      . rw [ho', Nat.sub_self, getElem?_cons_zero, hb']
      . rw [show o - offset = (o - (offset + 1)) + 1 by omega, getElem?_cons_succ]
        exact ih hrest ⟨by omega, by simp only [length_cons] at ho; omega⟩
  . rfl

end

end Bond
