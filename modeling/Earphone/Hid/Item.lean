import Earphone.Lib.Scan

/-!
This module contains the items of a HID report descriptor.
-/

namespace Hid

open Scan

def btHidItemTypeMain : Nat := 0

def btHidItemTypeGlobal : Nat := 1

def btHidItemTypeReserved : Nat := 3

def btHidGlobalItemTagLogicalMinimun : Nat := 1

def btHidGlobalItemTagPhysicalMaximun : Nat := 4

def btHidGlobalItemTagReportSize : Nat := 7

def btHidGlobalItemTagReportId : Nat := 8

def btHidGlobalItemTagReportCount : Nat := 9

structure Item where
  itemValue : Nat
  itemSize : Nat
  itemType : Nat
  itemTag : Nat
  dataSize : Nat
  deriving DecidableEq

def readValue : List UInt8 → Nat
  | [] => 0
  | b :: bs => b.toNat + 256 * readValue bs

def isSigned (itemType itemTag : Nat) : Bool :=
  itemType = btHidItemTypeGlobal ∧ btHidGlobalItemTagLogicalMinimun ≤ itemTag ∧
    itemTag ≤ btHidGlobalItemTagPhysicalMaximun

def dataValue (itemType itemTag : Nat) (data : List UInt8) : Nat :=
  if isSigned itemType itemTag ∧ (data.getLast?.getD 0).toNat / 128 = 1 then
    (readValue data + (2 ^ 32 - 2 ^ (data.length * 8))) % 2 ^ 32
  else readValue data

def headerType (header : Nat) : Nat := header / 4 % 4

def headerTag (header : Nat) : Nat := header / 16 % 16

def headerDataSize (header : Nat) : Nat :=
  match header % 4 with
  | 0 => 0
  | 1 => 1
  | 2 => 2
  | _ => 4

def isLong (header : Nat) : Bool :=
  header % 4 = 2 ∧ headerTag header = 0x0f ∧ headerType header = btHidItemTypeReserved

def parseData (desc : List UInt8) (len pos itemType itemTag dataSize : Nat) :
    Except Stuck Item := do
  let itemSize := pos + dataSize
  if len ≥ itemSize ∧ dataSize ≤ 4 then
    let data ← bytesAt desc pos dataSize
    return ⟨dataValue itemType itemTag data, itemSize, itemType, itemTag, dataSize⟩
  else
    return ⟨0, itemSize, itemType, itemTag, dataSize⟩

def btHidParseDescriptorItem (stale : Item) (desc : List UInt8) (len : Nat) :
    Except Stuck Item := do
  let header ← byteAt desc 0
  if len < 1 then return stale
  else if isLong header then
    if len < 3 then
      return { stale with
        itemType := headerType header, itemTag := headerTag header, itemValue := 0, dataSize := 2 }
    else
      let dataSize ← byteAt desc 1
      let itemTag ← byteAt desc 2
      parseData desc len 3 (headerType header) itemTag dataSize
  else
    parseData desc len 1 (headerType header) (headerTag header) (headerDataSize header)

def itemOf (desc : List UInt8) (pos itemType itemTag dataSize : Nat) : Item where
  itemValue :=
    if pos + dataSize ≤ desc.length ∧ dataSize ≤ 4 then
      dataValue itemType itemTag ((desc.drop pos).take dataSize)
    else 0
  itemSize := pos + dataSize
  itemType := itemType
  itemTag := itemTag
  dataSize := dataSize

def shortLong (desc : List UInt8) : Bool := isLong (desc.getD 0 0).toNat ∧ desc.length < 3

def itemAt (desc : List UInt8) : Item :=
  let header := (desc.getD 0 0).toNat
  if isLong header then
    if desc.length < 3 then ⟨0, 3, btHidItemTypeReserved, headerTag header, 2⟩
    else itemOf desc 3 btHidItemTypeReserved (desc.getD 2 0).toNat (desc.getD 1 0).toNat
  else itemOf desc 1 (headerType header) (headerTag header) (headerDataSize header)

section

variable {stale : Item} {desc : List UInt8}

theorem byteAt_getD (h : i < desc.length) : byteAt desc i = .ok (desc.getD i 0).toNat := by
  rw [byteAt_lt h]
  simp [h]

theorem isLong_type (h : isLong header) : headerType header = btHidItemTypeReserved := by
  simp only [isLong, decide_eq_true_eq] at h
  exact h.2.2

theorem parseData_eq :
    parseData desc desc.length pos itemType itemTag dataSize =
      .ok (itemOf desc pos itemType itemTag dataSize) := by
  unfold parseData
  by_cases h : pos + dataSize ≤ desc.length ∧ dataSize ≤ 4
  . have hge : desc.length ≥ pos + dataSize ∧ dataSize ≤ 4 := h
    simp only [if_pos hge, bytesAt_le h.1, itemOf]
    rfl
  . have hge : ¬(desc.length ≥ pos + dataSize ∧ dataSize ≤ 4) := h
    simp only [if_neg hge, itemOf]
    rfl

theorem parse_eq (hpos : 0 < desc.length) (hshort : shortLong desc = false) :
    btHidParseDescriptorItem stale desc desc.length = .ok (itemAt desc) := by
  unfold btHidParseDescriptorItem itemAt
  simp only [byteAt_getD hpos, bind, Except.bind]
  rw [if_neg (by omega)]
  by_cases hlong : isLong (desc.getD 0 0).toNat
  . have hlen : ¬desc.length < 3 := by
      intro h
      simp only [shortLong, hlong, h] at hshort
      simp at hshort
    simp only [if_pos hlong, if_neg hlen, byteAt_getD (by omega : 1 < desc.length),
      byteAt_getD (by omega : 2 < desc.length), parseData_eq, isLong_type hlong]
  . simp only [if_neg hlong, parseData_eq]

theorem parse_short (stale : Item) (hpos : 0 < desc.length) (hshort : shortLong desc = true) :
    ∃ item, btHidParseDescriptorItem stale desc desc.length = .ok item ∧
      item.itemType = btHidItemTypeReserved ∧ item.itemSize = stale.itemSize := by
  simp only [shortLong, decide_eq_true_eq] at hshort
  unfold btHidParseDescriptorItem
  simp only [byteAt_getD hpos, bind, Except.bind]
  rw [if_neg (by omega), if_pos hshort.1, if_pos hshort.2]
  exact ⟨_, rfl, isLong_type hshort.1, rfl⟩

theorem parse_nil : btHidParseDescriptorItem stale [] len = .error .outside := rfl

theorem itemAt_size_pos : 0 < (itemAt desc).itemSize := by
  simp only [itemAt]
  split_ifs
  . exact Nat.succ_pos _
  . simp only [itemOf]
    omega
  . simp only [itemOf]
    omega

theorem itemAt_size_le : (itemAt desc).itemSize ≤ 258 := by
  simp only [itemAt]
  split_ifs
  . show 3 ≤ 258
    decide
  . have := (desc.getD 1 0).toNat_lt
    simp only [itemOf]
    omega
  . have : headerDataSize (desc.getD 0 0).toNat ≤ 4 := by
      unfold headerDataSize
      split <;> omega
    simp only [itemOf]
    omega

theorem itemAt_short (hshort : shortLong desc = true) :
    desc.length < (itemAt desc).itemSize ∧ (itemAt desc).itemType = btHidItemTypeReserved := by
  simp only [shortLong, decide_eq_true_eq] at hshort
  simp only [itemAt, if_pos hshort.1, if_pos hshort.2]
  exact ⟨hshort.2, trivial⟩

end

end Hid
