import Earphone.Lib.Record

/-!
This module contains the service table of a GATT client.
-/

namespace GattcStorage

open Scan Slices Area

abbrev Uuid128 := Vector UInt8 16

structure AttrHeader where
  attrType : UInt8
  instanceId : UInt8
  attHandle : UInt16
deriving DecidableEq

structure AttrSrvUuid16 where
  hdr : AttrHeader
  endGroupHandle : UInt16
  uuid16 : UInt16

structure AttrSrvUuid128 where
  hdr : AttrHeader
  endGroupHandle : UInt16
  padding : UInt16
  uuid128 : Uuid128

structure AttrCharUuid16 where
  hdr : AttrHeader
  properties : UInt16
  valueHandle : UInt16
  uuid16 : UInt16
  endHandle : UInt16
deriving DecidableEq

structure AttrCharUuid128 where
  hdr : AttrHeader
  properties : UInt16
  valueHandle : UInt16
  uuid128 : Uuid128
  endHandle : UInt16
  padding : UInt16
deriving DecidableEq

structure AttrIncludeUuid16 where
  hdr : AttrHeader
  startHandle : UInt16
  endHandle : UInt16
  uuid16 : UInt16
  padding : UInt16
deriving DecidableEq

structure AttrIncludeUuid128 where
  hdr : AttrHeader
  startHandle : UInt16
  endHandle : UInt16
  uuid128 : Uuid128
deriving DecidableEq

structure AttrChar16Cb where
  cccdDescriptor : AttrHeader
  charData : AttrCharUuid16

structure AttrChar128Cb where
  cccdDescriptor : AttrHeader
  charData : AttrCharUuid128

section

open Codec

def attrHeader : Codec AttrHeader :=
  via (pair u8 (pair u8 u16)) (fun h => (h.attrType, h.instanceId, h.attHandle))
    (fun t => ⟨t.1, t.2.1, t.2.2⟩) fun _ => rfl

def attrSrvUuid16 : Codec AttrSrvUuid16 :=
  via (pair attrHeader (pair u16 u16)) (fun d => (d.hdr, d.endGroupHandle, d.uuid16))
    (fun t => ⟨t.1, t.2.1, t.2.2⟩) fun _ => rfl

def attrSrvUuid128 : Codec AttrSrvUuid128 :=
  via (pair attrHeader (pair u16 (pair u16 (bytes 16))))
    (fun d => (d.hdr, d.endGroupHandle, d.padding, d.uuid128))
    (fun t => ⟨t.1, t.2.1, t.2.2.1, t.2.2.2⟩) fun _ => rfl

def attrCharUuid16 : Codec AttrCharUuid16 :=
  via (pair attrHeader (pair u16 (pair u16 (pair u16 u16))))
    (fun d => (d.hdr, d.properties, d.valueHandle, d.uuid16, d.endHandle))
    (fun t => ⟨t.1, t.2.1, t.2.2.1, t.2.2.2.1, t.2.2.2.2⟩) fun _ => rfl

def attrCharUuid128 : Codec AttrCharUuid128 :=
  via (pair attrHeader (pair u16 (pair u16 (pair (bytes 16) (pair u16 u16)))))
    (fun d => (d.hdr, d.properties, d.valueHandle, d.uuid128, d.endHandle, d.padding))
    (fun t => ⟨t.1, t.2.1, t.2.2.1, t.2.2.2.1, t.2.2.2.2.1, t.2.2.2.2.2⟩) fun _ => rfl

def attrIncludeUuid16 : Codec AttrIncludeUuid16 :=
  via (pair attrHeader (pair u16 (pair u16 (pair u16 u16))))
    (fun d => (d.hdr, d.startHandle, d.endHandle, d.uuid16, d.padding))
    (fun t => ⟨t.1, t.2.1, t.2.2.1, t.2.2.2.1, t.2.2.2.2⟩) fun _ => rfl

def attrIncludeUuid128 : Codec AttrIncludeUuid128 :=
  via (pair attrHeader (pair u16 (pair u16 (bytes 16))))
    (fun d => (d.hdr, d.startHandle, d.endHandle, d.uuid128))
    (fun t => ⟨t.1, t.2.1, t.2.2.1, t.2.2.2⟩) fun _ => rfl

def attrChar16Cb : Codec AttrChar16Cb :=
  via (pair attrHeader attrCharUuid16) (fun d => (d.cccdDescriptor, d.charData))
    (fun t => ⟨t.1, t.2⟩) fun _ => rfl

def attrChar128Cb : Codec AttrChar128Cb :=
  via (pair attrHeader attrCharUuid128) (fun d => (d.cccdDescriptor, d.charData))
    (fun t => ⟨t.1, t.2⟩) fun _ => rfl

end

def attrTypePrimarySrvUuid16 : UInt8 := 1

def attrTypePrimarySrvUuid128 : UInt8 := 2

def attrTypeSecondarySrvUuid16 : UInt8 := 3

def attrTypeSecondarySrvUuid128 : UInt8 := 4

def attrTypeIncludeUuid16 : UInt8 := 5

def attrTypeIncludeUuid128 : UInt8 := 6

def attrTypeCharUuid16 : UInt8 := 7

def attrTypeCharUuid128 : UInt8 := 8

def isSrvUuid16 (attrType : UInt8) : Bool :=
  attrType == attrTypePrimarySrvUuid16 || attrType == attrTypeSecondarySrvUuid16

def isSrvUuid128 (attrType : UInt8) : Bool :=
  attrType == attrTypePrimarySrvUuid128 || attrType == attrTypeSecondarySrvUuid128

inductive SrvData where
  | uuid16 (d : AttrSrvUuid16)
  | uuid128 (d : AttrSrvUuid128)

def SrvData.Typed : SrvData → Prop
  | .uuid16 d => isSrvUuid16 d.hdr.attrType = true
  | .uuid128 d => isSrvUuid128 d.hdr.attrType = true

def SrvData.bytes : SrvData → List UInt8
  | .uuid16 d => attrSrvUuid16.encode d
  | .uuid128 d => attrSrvUuid128.encode d

inductive DisInc where
  | uuid16 (d : AttrIncludeUuid16)
  | uuid128 (d : AttrIncludeUuid128)
deriving DecidableEq

def DisInc.Typed : DisInc → Prop
  | .uuid16 d => d.hdr.attrType = attrTypeIncludeUuid16
  | .uuid128 d => d.hdr.attrType = attrTypeIncludeUuid128

inductive CharData where
  | uuid16 (d : AttrCharUuid16)
  | uuid128 (d : AttrCharUuid128)
deriving DecidableEq

def CharData.Typed : CharData → Prop
  | .uuid16 d => d.hdr.attrType = attrTypeCharUuid16
  | .uuid128 d => d.hdr.attrType = attrTypeCharUuid128

structure DisChar where
  descEndHandle : UInt16
  cccdDescriptor : AttrHeader
  charData : CharData

def DisInc.is16 : DisInc → Bool
  | .uuid16 _ => true
  | .uuid128 _ => false

def DisChar.is16 (c : DisChar) : Bool :=
  match c.charData with
  | .uuid16 _ => true
  | .uuid128 _ => false

structure Nums where
  inc16 : UInt8
  inc128 : UInt8
  char16 : UInt8
  char128 : UInt8
deriving DecidableEq

def Nums.bytes (n : Nums) : List UInt8 := [n.inc16, n.inc128, n.char16, n.char128]

def Nums.of (incs : List DisInc) (chars : List DisChar) : Nums where
  inc16 := .ofNat (incs.countP (·.is16))
  inc128 := .ofNat (incs.countP (!·.is16))
  char16 := .ofNat (chars.countP (·.is16))
  char128 := .ofNat (chars.countP (!·.is16))

structure DisSrv where
  srvData : SrvData
  nums : Nums
  includeSrvQueue : List DisInc
  charQueue : List DisChar
  srvTyped : srvData.Typed
  incTyped : ∀ i ∈ includeSrvQueue, i.Typed
  charTyped : ∀ c ∈ charQueue, c.charData.Typed
  nums_eq : nums = .of includeSrvQueue charQueue

def DisSrv.new (srvData : SrvData) (h : srvData.Typed) : DisSrv where
  srvData
  nums := ⟨0, 0, 0, 0⟩
  includeSrvQueue := []
  charQueue := []
  srvTyped := h
  incTyped := by simp
  charTyped := by simp
  nums_eq := rfl

def Nums.addInc (n : Nums) (is16 : Bool) : Nums :=
  if is16 then { n with inc16 := n.inc16 + 1 } else { n with inc128 := n.inc128 + 1 }

def Nums.addChar (n : Nums) (is16 : Bool) : Nums :=
  if is16 then { n with char16 := n.char16 + 1 } else { n with char128 := n.char128 + 1 }

theorem typed_include : (DisInc.uuid16 ⟨⟨5, 0, 2⟩, 0x10, 0x1f, 0x180f, 0⟩).Typed := rfl

def gattcStorageAddInclude (s : DisSrv) (i : DisInc) (h : i.Typed) : DisSrv :=
  { s with
    includeSrvQueue := s.includeSrvQueue ++ [i]
    nums := s.nums.addInc i.is16
    incTyped := by
      intro j hj
      obtain hj | hj := List.mem_append.mp hj
      . exact s.incTyped j hj
      . rw [List.mem_singleton.mp hj]
        exact h
    nums_eq := by
      rw [s.nums_eq]
      cases hi : i.is16 <;>
        simp [Nums.of, Nums.addInc, hi] }

def gattcStorageGetCharInstanceId (chars : List DisChar) (same : CharData → Bool) :
    Except Stuck UInt8 :=
  if chars.length < 256 then .ok (.ofNat (chars.countP (same ·.charData))) else .error .endless

def CharData.sameUuid : CharData → CharData → Bool
  | .uuid16 d, .uuid16 d' => d.uuid16 == d'.uuid16
  | .uuid128 d, .uuid128 d' => d.uuid128 == d'.uuid128
  | _, _ => false

structure CharFound where
  declHandle : UInt16
  properties : UInt16
  valueHandle : UInt16
  uuid : UInt16 ⊕ Uuid128

def CharFound.data (f : CharFound) (instanceId : UInt8) : CharData :=
  match f.uuid with
  | .inl uuid16 =>
    .uuid16 ⟨⟨attrTypeCharUuid16, instanceId, f.declHandle⟩, f.properties, f.valueHandle, uuid16, 0⟩
  | .inr uuid128 =>
    .uuid128
      ⟨⟨attrTypeCharUuid128, instanceId, f.declHandle⟩, f.properties, f.valueHandle, uuid128, 0, 0⟩

theorem CharFound.typed_data (f : CharFound) (instanceId : UInt8) : (f.data instanceId).Typed := by
  unfold CharFound.data
  split <;> rfl

def DisSrv.pushChar (s : DisSrv) (c : DisChar) (h : c.charData.Typed) : DisSrv :=
  { s with
    charQueue := s.charQueue ++ [c]
    nums := s.nums.addChar c.is16
    charTyped := by
      intro c' hc'
      obtain hc' | hc' := List.mem_append.mp hc'
      . exact s.charTyped c' hc'
      . rw [List.mem_singleton.mp hc']
        exact h
    nums_eq := by
      rw [s.nums_eq]
      cases hi : c.is16 <;>
        simp [Nums.of, Nums.addChar, hi] }

def gattcStorageAddChar (s : DisSrv) (f : CharFound) : Except Stuck DisSrv := do
  let instanceId ← gattcStorageGetCharInstanceId s.charQueue (f.data 0).sameUuid
  return s.pushChar ⟨0, ⟨0, 0, 0⟩, f.data instanceId⟩ (f.typed_data instanceId)

def w16 (n : Nat) : Nat := n % 65536

structure SrvCb where
  srvData : Nat
  nums : Nums
  inc16Table : Option Nat
  inc128Table : Option Nat
  char16Table : Option Nat
  char128Table : Option Nat

def tableAt (idx : Nat) (num : UInt8) (width : Nat) : Option Nat × Nat :=
  if num = 0 then (none, idx) else (some idx, w16 (idx + num.toNat * width))

def tablesAt (srvData idx : Nat) (nums : Nums) : SrvCb × Nat :=
  let (inc16Table, idx) := tableAt idx nums.inc16 attrIncludeUuid16.width
  let (inc128Table, idx) := tableAt idx nums.inc128 attrIncludeUuid128.width
  let (char16Table, idx) := tableAt idx nums.char16 attrChar16Cb.width
  let (char128Table, idx) := tableAt idx nums.char128 attrChar128Cb.width
  (⟨srvData, nums, inc16Table, inc128Table, char16Table, char128Table⟩, idx)

def srvSize (s : DisSrv) : Nat :=
  s.srvData.bytes.length + s.nums.inc16.toNat * attrIncludeUuid16.width +
    s.nums.inc128.toNat * attrIncludeUuid128.width + s.nums.char16.toNat * attrChar16Cb.width +
      s.nums.char128.toNat * attrChar128Cb.width + 4

def tableLen (disList : List DisSrv) : Nat := disList.foldl (fun idx s => w16 (idx + srvSize s)) 0

def storeBytes (table : List UInt8) (idx : Nat) : List UInt8 → Except Stuck (List UInt8 × Nat)
  | [] => .ok (table, idx)
  | b :: bs => do
    let table ← copyTo table idx [b]
    storeBytes table (w16 (idx + 1)) bs

def DisInc.item : DisInc → Bool × List UInt8
  | .uuid16 d => (true, attrIncludeUuid16.encode d)
  | .uuid128 d => (false, attrIncludeUuid128.encode d)

def closedEnd (descEndHandle endHandle valueHandle : UInt16) : UInt16 :=
  if descEndHandle ≠ 0 then
    if descEndHandle < endHandle then descEndHandle else endHandle
  else valueHandle

def AttrCharUuid16.closed (d : AttrCharUuid16) (descEndHandle : UInt16) : AttrCharUuid16 :=
  { d with endHandle := closedEnd descEndHandle d.endHandle d.valueHandle }

def AttrCharUuid128.closed (d : AttrCharUuid128) (descEndHandle : UInt16) : AttrCharUuid128 :=
  { d with endHandle := closedEnd descEndHandle d.endHandle d.valueHandle }

def DisChar.item (c : DisChar) : Bool × List UInt8 :=
  match c.charData with
  | .uuid16 d => (true, attrChar16Cb.encode ⟨c.cccdDescriptor, d.closed c.descEndHandle⟩)
  | .uuid128 d => (false, attrChar128Cb.encode ⟨c.cccdDescriptor, d.closed c.descEndHandle⟩)

def genSrv (table : List UInt8) (idx : Nat) (s : DisSrv) :
    Except Stuck (List UInt8 × Nat × SrvCb) := do
  let table ← copyTo table idx s.srvData.bytes
  let (table, numsEnd) ← storeBytes table (w16 (idx + s.srvData.bytes.length)) s.nums.bytes
  let (cb, tablesEnd) := tablesAt idx numsEnd s.nums
  let (table, inc16, inc128) ← fill cb.inc16Table cb.inc128Table attrIncludeUuid16.width
    attrIncludeUuid128.width (s.includeSrvQueue.map (·.item)) 0 0 table
  let (table, char16, char128) ← fill cb.char16Table cb.char128Table attrChar16Cb.width
    attrChar128Cb.width (s.charQueue.map (·.item)) 0 0 table
  return (table, tablesEnd, { cb with nums := ⟨inc16, inc128, char16, char128⟩ })

structure SrvList where
  srvTable : Option (List UInt8)
  srvList : List SrvCb

structure Mem where
  table : Bool
  srv : Nat → Bool

def genLoop (mem : Nat → Bool) (table : List UInt8) (idx : Nat) (cbs : List SrvCb) :
    List DisSrv → Except Stuck (Option (List UInt8 × Nat × List SrvCb))
  | [] => .ok (some (table, idx, cbs))
  | s :: rest =>
    if mem cbs.length then do
      let (table', idx', cb) ← genSrv table idx s
      if s.nums = cb.nums ∧ idx' ≤ table'.length then
        genLoop mem table' idx' (cbs ++ [cb]) rest
      else return none
    else .ok none

def gattcStorageSrvListGen (mem : Mem) (disList : List DisSrv) : Except Stuck (Option SrvList) :=
  if disList = [] then .ok (some ⟨none, []⟩)
  else if disList.length < 256 then
    if mem.table then do
      match ← genLoop mem.srv (List.replicate (tableLen disList) 0) 0 [] disList with
      | some (table, idx, cbs) =>
        if idx = table.length then return some ⟨some table, cbs⟩ else return none
      | none => return none
    else .ok none
  else .error .endless

inductive AttrUuid where
  | uuid16 (uuid16 : UInt16)
  | uuid128 (uuid128 : Uuid128)
deriving DecidableEq

def checkTable (table : List UInt8) (base : Option Nat) (width offset : Nat) (type : UInt8) :
    Nat → Nat → Except Stuck Bool
  | _, 0 => .ok true
  | j, n + 1 =>
    match base with
    | none => .error .outside
    | some p => do
      let b ← byteAt table (p + j * width + offset)
      if b ≠ type.toNat then return false
      else checkTable table base width offset type (j + 1) n

def loadNums (table : List UInt8) (idx : Nat) : Except Stuck (Nums × Nat) := do
  let inc16 ← byteAt table idx
  let inc128 ← byteAt table (w16 (idx + 1))
  let char16 ← byteAt table (w16 (idx + 2))
  let char128 ← byteAt table (w16 (idx + 3))
  return (⟨.ofNat inc16, .ofNat inc128, .ofNat char16, .ofNat char128⟩, w16 (idx + 4))

def loadSrvData (table : List UInt8) (idx : Nat) : Except Stuck (Option (AttrUuid × Nat)) := do
  let type ← byteAt table idx
  if isSrvUuid16 (.ofNat type) then
    let b ← bytesAt table idx attrSrvUuid16.width
    return some (.uuid16 (attrSrvUuid16.decode b).uuid16, w16 (idx + attrSrvUuid16.width))
  else if isSrvUuid128 (.ofNat type) then
    let b ← bytesAt table idx attrSrvUuid128.width
    return some (.uuid128 (attrSrvUuid128.decode b).uuid128, w16 (idx + attrSrvUuid128.width))
  else return none

def checkTables (table : List UInt8) (cb : SrvCb) : Except Stuck Bool := do
  let inc16 ← checkTable table cb.inc16Table attrIncludeUuid16.width 0 attrTypeIncludeUuid16 0
    cb.nums.inc16.toNat
  if inc16 then
    let inc128 ← checkTable table cb.inc128Table attrIncludeUuid128.width 0
      attrTypeIncludeUuid128 0 cb.nums.inc128.toNat
    if inc128 then
      let char16 ← checkTable table cb.char16Table attrChar16Cb.width attrHeader.width
        attrTypeCharUuid16 0 cb.nums.char16.toNat
      if char16 then
        checkTable table cb.char128Table attrChar128Cb.width attrHeader.width
          attrTypeCharUuid128 0 cb.nums.char128.toNat
      else return false
    else return false
  else return false

def loadSrv (known : AttrUuid → Bool) (table : List UInt8) (idx : Nat) :
    Except Stuck (Option (SrvCb × Nat)) := do
  match ← loadSrvData table idx with
  | none => return none
  | some (uuid, srvEnd) =>
    if known uuid then
      let (nums, numsEnd) ← loadNums table srvEnd
      let (cb, tablesEnd) := tablesAt idx numsEnd nums
      if ← checkTables table cb then return some (cb, tablesEnd) else return none
    else return none

def loadLoop (mem : Nat → Bool) (known : AttrUuid → Bool) (table : List UInt8) :
    Nat → Nat → List SrvCb → Except Stuck (Option (Nat × List SrvCb))
  | 0, _, _ => .error .endless
  | fuel + 1, idx, cbs =>
    if idx < table.length then
      if mem cbs.length then do
        match ← loadSrv known table idx with
        | some (cb, idx') => loadLoop mem known table fuel idx' (cbs ++ [cb])
        | none => return none
      else .ok none
    else .ok (some (idx, cbs))

def gattcStorageLoad (mem : Nat → Bool) (known : AttrUuid → Bool) (svcData : Option (List UInt8)) :
    Except Stuck (Option SrvList) :=
  match svcData with
  | none => .ok none
  | some table => do
    match ← loadLoop mem known table (table.length + 1) 0 [] with
    | some (idx, cbs) =>
      if idx = table.length ∧ cbs ≠ [] then return some ⟨some table, cbs⟩ else return none
    | none => return none

structure Srv where
  srvData : SrvData
  inc16 : List AttrIncludeUuid16
  inc128 : List AttrIncludeUuid128
  char16 : List AttrChar16Cb
  char128 : List AttrChar128Cb

def readSrvData (table : List UInt8) (p : Nat) : SrvData :=
  if isSrvUuid16 (attrHeader.readAt table p).attrType then .uuid16 (attrSrvUuid16.readAt table p)
  else .uuid128 (attrSrvUuid128.readAt table p)

def SrvCb.read (table : List UInt8) (cb : SrvCb) : Srv where
  srvData := readSrvData table cb.srvData
  inc16 := attrIncludeUuid16.readTable table (cb.inc16Table.getD 0) cb.nums.inc16.toNat
  inc128 := attrIncludeUuid128.readTable table (cb.inc128Table.getD 0) cb.nums.inc128.toNat
  char16 := attrChar16Cb.readTable table (cb.char16Table.getD 0) cb.nums.char16.toNat
  char128 := attrChar128Cb.readTable table (cb.char128Table.getD 0) cb.nums.char128.toNat

def SrvList.read (l : SrvList) : List Srv :=
  match l.srvTable with
  | some table => l.srvList.map (·.read table)
  | none => []

def DisInc.as16 : DisInc → Option AttrIncludeUuid16
  | .uuid16 d => some d
  | .uuid128 _ => none

def DisInc.as128 : DisInc → Option AttrIncludeUuid128
  | .uuid16 _ => none
  | .uuid128 d => some d

def DisChar.as16 (c : DisChar) : Option AttrChar16Cb :=
  match c.charData with
  | .uuid16 d => some ⟨c.cccdDescriptor, d.closed c.descEndHandle⟩
  | .uuid128 _ => none

def DisChar.as128 (c : DisChar) : Option AttrChar128Cb :=
  match c.charData with
  | .uuid16 _ => none
  | .uuid128 d => some ⟨c.cccdDescriptor, d.closed c.descEndHandle⟩

def DisSrv.srv (s : DisSrv) : Srv where
  srvData := s.srvData
  inc16 := s.includeSrvQueue.filterMap (·.as16)
  inc128 := s.includeSrvQueue.filterMap (·.as128)
  char16 := s.charQueue.filterMap (·.as16)
  char128 := s.charQueue.filterMap (·.as128)

end GattcStorage
