import Mathlib.Algebra.Group.Int.Defs
import Earphone.Lib.SortBy
import Earphone.Ots.Read
import Mathlib.Data.List.Nodup

namespace OtsOlcp

open Ots (le32)
open SortBy

inductive FiltType where
  | noFilter
  | nameStartsWith
  | nameEndsWith
  | nameContains
  | nameIsExactly
  | objType
  | createBetweenTms
  | modBetweenTms
  | curSizeBetween
  | allocSizeBetween
  | markedObjs
  | rfu
deriving DecidableEq

structure OlfCb where
  filtType : FiltType
  param : List UInt8
  bounds : filtType = .curSizeBetween ∨ filtType = .allocSizeBetween → 8 ≤ param.length

def OlfCb.none : OlfCb := ⟨.noFilter, [], by decide⟩

structure ObjectCb where
  ptr : Nat
  objId : Nat
  nameLen : Nat
  objType : Nat → UInt8
  curSize : Nat
  allocSize : Nat
  objProps : Nat
  objLockState : Nat

structure Cb where
  objQueue : List ObjectCb
  olcpFeature : Nat
  currentObj : Option Nat
  olfCb : List OlfCb

def otsDirectListObjUuid : Nat := 0x2ACB

def objPropMarkBitNum : Nat := 7

def OlfCb.excludes (f : OlfCb) (o : ObjectCb) : Bool :=
  match f.filtType with
  | .nameStartsWith => o.nameLen < f.param.length
  | .nameEndsWith => o.nameLen < f.param.length
  | .nameContains => o.nameLen < f.param.length
  | .nameIsExactly => o.nameLen ≠ f.param.length
  | .objType => f.param.zipIdx.any fun b => o.objType b.2 ≠ b.1
  | .curSizeBetween => o.curSize < le32 f.param 0 || o.curSize > le32 f.param 4
  | .allocSizeBetween => o.allocSize < le32 f.param 0 || o.allocSize > le32 f.param 4
  | .markedObjs => !o.objProps.testBit objPropMarkBitNum
  | .noFilter | .createBetweenTms | .modBetweenTms | .rfu => false

def checkObjExcFilterList (olfCb : List OlfCb) (o : ObjectCb) : Bool :=
  if (o.objType 0).toNat + 2 ^ 8 * (o.objType 1).toNat = otsDirectListObjUuid then
    false
  else
    olfCb.any (·.excludes o)

def objCurSizeAscendSortOrder : UInt8 := 0x03

def objCurSizeDescendSortOrder : UInt8 := 0x13

def orderObjListByCurSize (queue : List ObjectCb) (orderType : UInt8) : Option (List ObjectCb) :=
  if orderType = objCurSizeAscendSortOrder then
    some (sort (·.curSize) queue)
  else if orderType = objCurSizeDescendSortOrder then
    some (sort (fun o => OrderDual.toDual o.curSize) queue)
  else
    none

inductive OlcpOp where
  | first
  | last
  | previous
  | next
  | goto
  | order
  | reqNumObjs
  | clrMark
  | other
deriving DecidableEq

def OlcpOp.of (opcode : UInt8) : OlcpOp :=
  match opcode with
  | 0x01 => .first
  | 0x02 => .last
  | 0x03 => .previous
  | 0x04 => .next
  | 0x05 => .goto
  | 0x06 => .order
  | 0x07 => .reqNumObjs
  | 0x08 => .clrMark
  | _ => .other

def otsOlcpRspCodeOp : UInt8 := 0x70

def olcpSuccessResCode : UInt8 := 0x01

def olcpOpcodeNotsupResCode : UInt8 := 0x02

def olcpInvParamResCode : UInt8 := 0x03

def olcpOperFailResCode : UInt8 := 0x04

def olcpOobResCode : UInt8 := 0x05

def olcpNoObjResCode : UInt8 := 0x07

def otsObjIdBase : Nat := 0x0100

def otsOlcpGotoFeatMsk : Nat := 0

def otsOlcpOrderFeatMsk : Nat := 1

def otsOlcpReqNumObjFeatMsk : Nat := 2

def otsOlcpClrMarkFeatMsk : Nat := 3

structure Request where
  value : List UInt8
  behind : Nat → UInt8
  len_lt : value.length < 65536

def Request.byte (req : Request) (i : Nat) : UInt8 :=
  req.value.getD i (req.behind (i - req.value.length))

def Request.opcode (req : Request) : UInt8 := req.byte 0

def Request.op (req : Request) : OlcpOp := .of req.opcode

def Request.len (req : Request) : Nat := (req.value.length + 65535) % 65536

def ofBytes (byte : Nat → UInt8) : Nat → Nat
  | 0 => 0
  | n + 1 => (byte 0).toNat + 2 ^ 8 * ofBytes (fun i => byte (i + 1)) n

def toBytes32 (v : Nat) : List UInt8 :=
  [.ofNat v, .ofNat (v / 2 ^ 8), .ofNat (v / 2 ^ 16), .ofNat (v / 2 ^ 24)]

def Request.objId (req : Request) : Nat := ofBytes (fun i => req.byte (i + 1)) 6

inductive Stuck where
  | uninit
  | null
  | overflow
  | endless

def Cb.excluded (s : Cb) (o : ObjectCb) : Bool := checkObjExcFilterList s.olfCb o

def Cb.current (s : Cb) : Option ObjectCb :=
  s.currentObj.bind fun ptr => s.objQueue.find? (·.ptr = ptr)

def Cb.select (s : Cb) (o : ObjectCb) : Cb := { s with currentObj := some o.ptr }

def osQueuePeek (queue : List ObjectCb) (i : Int) : Option ObjectCb :=
  if i < 0 then none else queue[i.toNat]?

def scanBack (queue : List ObjectCb) (found : Option ObjectCb → Bool) :
    Nat → Int → Option (Option ObjectCb) → Except Stuck (Int × Option (Option ObjectCb))
  | 0, _, _ => .error .endless
  | fuel + 1, i, obj =>
    if i < 0 then
      if found (osQueuePeek queue i) then .ok (i, some (osQueuePeek queue i))
      else if i = -2 ^ 31 then .error .overflow
      else scanBack queue found fuel (i - 1) (some (osQueuePeek queue i))
    else .ok (i, obj)

def olcpFirst (s : Cb) : UInt8 × Cb :=
  match s.objQueue.find? (!s.excluded ·) with
  | some obj => (olcpSuccessResCode, s.select obj)
  | none => (olcpNoObjResCode, s)

def olcpLast (fuel : Nat) (s : Cb) : Except Stuck (UInt8 × Cb) := do
  let (i, obj) ← scanBack s.objQueue (fun obj => obj.any (!s.excluded ·)) fuel
    (s.objQueue.length - 1 : Int) none
  if i = s.objQueue.length then
    return (olcpNoObjResCode, s)
  else
    match obj with
    | none => throw .uninit
    | some obj => return (olcpSuccessResCode, { s with currentObj := obj.map (·.ptr) })

def prevLoop (s : Cb) (ptr : Nat) : Option ObjectCb → List ObjectCb → Option ObjectCb
  | prev, [] => prev
  | prev, obj :: queue =>
    if obj.ptr = ptr then prev
    else prevLoop s ptr (if s.excluded obj then prev else some obj) queue

def olcpPrevious (s : Cb) : UInt8 × Cb :=
  match s.current with
  | none => (olcpOperFailResCode, s)
  | some cur =>
    if s.excluded cur then
      (olcpOperFailResCode, s)
    else
      match prevLoop s cur.ptr none s.objQueue with
      | none => (olcpOobResCode, s)
      | some prev => (olcpSuccessResCode, s.select prev)

def olcpNext (fuel : Nat) (s : Cb) : Except Stuck (UInt8 × Cb) :=
  match s.current with
  | none => .ok (olcpOperFailResCode, s)
  | some cur =>
    if s.excluded cur then
      .ok (olcpOperFailResCode, s)
    else do
      let (_, obj) ← scanBack s.objQueue (fun obj => obj.any (·.ptr = cur.ptr)) fuel
        (s.objQueue.length - 1 : Int) (some none)
      match obj.join with
      | none => throw .null
      | some obj =>
        if s.excluded obj then return (olcpOobResCode, s)
        else return (olcpSuccessResCode, s.select obj)

def olcpGoto (req : Request) (s : Cb) : UInt8 × Cb :=
  if !s.olcpFeature.testBit otsOlcpGotoFeatMsk then
    (olcpOpcodeNotsupResCode, s)
  else if req.len ≠ 6 ∨ req.objId < otsObjIdBase ∧ req.objId ≠ 0 then
    (olcpInvParamResCode, s)
  else
    let cleared := { s with olfCb := s.olfCb.map fun _ => OlfCb.none }
    match s.objQueue.find? (·.objId = req.objId) with
    | some obj => (olcpSuccessResCode, cleared.select obj)
    | none => (olcpNoObjResCode, cleared)

def olcpOrder (req : Request) (s : Cb) : UInt8 × Cb :=
  if !s.olcpFeature.testBit otsOlcpOrderFeatMsk then
    (olcpOpcodeNotsupResCode, s)
  else
    match orderObjListByCurSize s.objQueue (req.byte 1) with
    | some queue => (olcpSuccessResCode, { s with objQueue := queue })
    | none => (olcpOpcodeNotsupResCode, s)

def Cb.clearMark (s : Cb) (o : ObjectCb) : ObjectCb :=
  if s.excluded o then o
  else { o with objProps := o.objProps &&& ((2 ^ 32 - 1) ^^^ 2 ^ objPropMarkBitNum) }

def olcpClrMark (s : Cb) : UInt8 × Cb :=
  if !s.olcpFeature.testBit otsOlcpClrMarkFeatMsk then
    (olcpOpcodeNotsupResCode, s)
  else if s.objQueue = [] then
    (olcpNoObjResCode, s)
  else
    (olcpSuccessResCode, { s with objQueue := s.objQueue.map s.clearMark })

def olcpReqNumObjs (s : Cb) : UInt8 × List UInt8 :=
  if !s.olcpFeature.testBit otsOlcpReqNumObjFeatMsk then
    (olcpOpcodeNotsupResCode, [])
  else if s.objQueue = [] then
    (olcpNoObjResCode, [])
  else
    (olcpSuccessResCode, toBytes32 (s.objQueue.countP (!s.excluded ·)))

def rspValue (req : Request) (code : UInt8) : List UInt8 := [otsOlcpRspCodeOp, req.opcode, code]

def Request.reply (req : Request) (r : UInt8 × Cb) : List UInt8 × Cb := (rspValue req r.1, r.2)

def switchOpcode (fuel : Nat) (req : Request) (s : Cb) : Except Stuck (List UInt8 × Cb) :=
  match req.op with
  | .first => .ok (req.reply (olcpFirst s))
  | .last => req.reply <$> olcpLast fuel s
  | .previous => .ok (req.reply (olcpPrevious s))
  | .next => req.reply <$> olcpNext fuel s
  | .goto => .ok (req.reply (olcpGoto req s))
  | .order => .ok (req.reply (olcpOrder req s))
  | .reqNumObjs => .ok (rspValue req (olcpReqNumObjs s).1 ++ (olcpReqNumObjs s).2, s)
  | .clrMark => .ok (req.reply (olcpClrMark s))
  | .other => .ok (rspValue req olcpOpcodeNotsupResCode, s)

def handleOlcpRequest (fuel : Nat) (req : Request) (s : Cb) : Except Stuck (List UInt8 × Cb) :=
  if s.current.any (·.objLockState ≠ 0) then
    .ok (rspValue req olcpOperFailResCode, s)
  else
    switchOpcode fuel req s

def Cb.visible (s : Cb) : List Nat := (s.objQueue.filter (!s.excluded ·)).map (·.ptr)

def Cb.ptrs (s : Cb) : List Nat := s.objQueue.map (·.ptr)

def Cb.Locked (s : Cb) : Prop := ∃ o ∈ s.current, o.objLockState ≠ 0

structure Cb.Valid (s : Cb) : Prop where
  nodup : s.ptrs.Nodup
  length_lt : s.objQueue.length < 65536
  current : ∀ ptr ∈ s.currentObj, ptr ∈ s.ptrs

def Refuses (code : UInt8) (s : Cb) (r : UInt8 × Cb) : Prop := r = (code, s)

def Selects (code : UInt8) (ptr : Option Nat) (s : Cb) (r : UInt8 × Cb) : Prop :=
  match ptr with
  | some ptr => r.1 = olcpSuccessResCode ∧ r.2.currentObj = some ptr
  | none => r.1 = code ∧ r.2.currentObj = s.currentObj

def Steps (neighbour : List Nat → List Nat → Option Nat) (s : Cb) (r : UInt8 × Cb) : Prop :=
  (∀ ptr ∈ s.currentObj, ptr ∈ s.visible → ∃ before after,
    s.visible = before ++ ptr :: after ∧ Selects olcpOobResCode (neighbour before after) s r) ∧
  ((∀ ptr ∈ s.currentObj, ptr ∉ s.visible) → Refuses olcpOperFailResCode s r)

def Goes (req : Request) (s : Cb) (r : UInt8 × Cb) : Prop :=
  if s.olcpFeature.testBit otsOlcpGotoFeatMsk = false then
    Refuses olcpOpcodeNotsupResCode s r
  else if req.len ≠ 6 ∨ 0 < req.objId ∧ req.objId < otsObjIdBase then
    Refuses olcpInvParamResCode s r
  else
    ((∃ o ∈ s.objQueue, o.objId = req.objId) →
      ∃ o ∈ s.objQueue, o.objId = req.objId ∧ Selects olcpNoObjResCode (some o.ptr) s r) ∧
    ((¬ ∃ o ∈ s.objQueue, o.objId = req.objId) → Selects olcpNoObjResCode none s r)

def Orders (req : Request) (s : Cb) (r : UInt8 × Cb) : Prop :=
  if s.olcpFeature.testBit otsOlcpOrderFeatMsk = false then
    Refuses olcpOpcodeNotsupResCode s r
  else if req.byte 1 = objCurSizeAscendSortOrder then
    r.1 = olcpSuccessResCode ∧ StableSort (·.curSize) s.objQueue r.2.objQueue
  else if req.byte 1 = objCurSizeDescendSortOrder then
    r.1 = olcpSuccessResCode ∧
      StableSort (fun o => OrderDual.toDual o.curSize) s.objQueue r.2.objQueue
  else
    Refuses olcpOpcodeNotsupResCode s r

def Counts (req : Request) (s : Cb) (rsp : List UInt8) : Prop :=
  if s.olcpFeature.testBit otsOlcpReqNumObjFeatMsk = false then
    rsp = rspValue req olcpOpcodeNotsupResCode
  else if s.objQueue = [] then
    rsp = rspValue req olcpNoObjResCode
  else
    ∃ num, rsp = rspValue req olcpSuccessResCode ++ num ∧ num.length = 4 ∧
      le32 num 0 = s.visible.length

def Sends (req : Request) (rsp : List UInt8) (s' : Cb) (spec : UInt8 × Cb → Prop) : Prop :=
  ∃ code, rsp = rspValue req code ∧ spec (code, s')

def Does (req : Request) (s : Cb) (rsp : List UInt8) (s' : Cb) : Prop :=
  match req.op with
  | .first => Sends req rsp s' (Selects olcpNoObjResCode s.visible.head? s)
  | .last => Sends req rsp s' (Selects olcpNoObjResCode s.visible.getLast? s)
  | .previous => Sends req rsp s' (Steps (fun before _ => before.getLast?) s)
  | .next => Sends req rsp s' (Steps (fun _ after => after.head?) s)
  | .goto => Sends req rsp s' (Goes req s)
  | .order => Sends req rsp s' (Orders req s)
  | .reqNumObjs => Counts req s rsp
  | .clrMark => True
  | .other => Sends req rsp s' (Refuses olcpOpcodeNotsupResCode s)

def Navigates (req : Request) (s : Cb) : Prop :=
  ∃ fuel rsp s', handleOlcpRequest fuel req s = .ok (rsp, s') ∧
    (s.Locked → rsp = rspValue req olcpOperFailResCode ∧ s' = s) ∧
    (¬ s.Locked → Does req s rsp s') ∧
    (rsp[2]? ≠ some olcpSuccessResCode → s'.currentObj = s.currentObj) ∧
    s'.ptrs.Perm s.ptrs ∧ s'.Valid

section

variable {s : Cb}

theorem Cb.Valid.current_some (h : s.Valid) (hptr : s.currentObj = some ptr) :
    ∃ cur, s.current = some cur ∧ cur.ptr = ptr := by
  obtain ⟨o, ho, hoptr⟩ := List.mem_map.mp (h.current ptr hptr)
  unfold Cb.current
  rw [hptr, Option.bind_some]
  cases hfind : s.objQueue.find? (·.ptr = ptr) with
  | none =>
    rw [List.find?_eq_none] at hfind
    exact absurd (decide_eq_true hoptr) (hfind o ho)
  | some cur => exact ⟨cur, rfl, by simpa using List.find?_some hfind⟩

theorem Cb.current_spec (h : s.current = some cur) :
    s.currentObj = some cur.ptr ∧ ∃ before after, s.objQueue = before ++ cur :: after ∧
      ∀ o ∈ before, o.ptr ≠ cur.ptr := by
  obtain ⟨ptr, hptr, hfind⟩ := Option.bind_eq_some_iff.mp h
  obtain ⟨heq, before, after, hqueue, hbefore⟩ := List.find?_eq_some_iff_append.mp hfind
  obtain rfl := of_decide_eq_true heq
  exact ⟨hptr, before, after, hqueue, fun o ho => by simpa using hbefore o ho⟩

theorem Cb.Valid.mem_visible (h : s.Valid) (ho : o ∈ s.objQueue) :
    o.ptr ∈ s.visible ↔ s.excluded o = false := by
  unfold Cb.visible
  rw [List.mem_map]
  constructor
  . rintro ⟨o', ho', heq⟩
    obtain ⟨hmem, hvisible⟩ := List.mem_filter.mp ho'
    obtain rfl := List.inj_on_of_nodup_map h.nodup hmem ho heq
    rwa [Bool.not_eq_true'] at hvisible
  . intro hvisible
    exact ⟨o, List.mem_filter.mpr ⟨ho, by rw [hvisible]; rfl⟩, rfl⟩

end

section

structure Keeps (s : Cb) (r : UInt8 × Cb) : Prop where
  error : r.1 ≠ olcpSuccessResCode → r.2.currentObj = s.currentObj
  objects : r.2.ptrs.Perm s.ptrs
  valid : r.2.Valid

variable {s : Cb}

theorem Cb.Valid.keeps (h : s.Valid) (code : UInt8) : Keeps s (code, s) :=
  ⟨fun _ => rfl, .refl _, h⟩

theorem Cb.Valid.keeps_queue (h : s.Valid) (code : UInt8)
    (hperm : (queue.map (·.ptr)).Perm s.ptrs) : Keeps s (code, { s with objQueue := queue }) := by
  refine ⟨fun _ => rfl, hperm, hperm.nodup_iff.mpr h.nodup, ?_, fun ptr hptr =>
    hperm.mem_iff.mpr (h.current ptr hptr)⟩
  have hlength := hperm.length_eq
  rw [List.length_map, Cb.ptrs, List.length_map] at hlength
  exact hlength ▸ h.length_lt

theorem Cb.Valid.keeps_select (h : s.Valid) (ho : o ∈ s.objQueue)
    (olfCb : List OlfCb) : Keeps s (olcpSuccessResCode, { s with olfCb := olfCb }.select o) := by
  refine ⟨fun hne => absurd rfl hne, .refl _, h.nodup, h.length_lt, ?_⟩
  intro ptr hptr
  cases hptr
  exact List.mem_map_of_mem ho

end

section

variable {req : Request} {s : Cb}

theorem find?_visible (queue : List ObjectCb) :
    (queue.find? (!s.excluded ·)).map (·.ptr) =
      ((queue.filter (!s.excluded ·)).map (·.ptr)).head? := by
  rw [List.head?_map, List.head?_filter]

theorem olcpFirst_spec (h : s.Valid) :
    Selects olcpNoObjResCode s.visible.head? s (olcpFirst s) ∧ Keeps s (olcpFirst s) := by
  unfold olcpFirst Cb.visible
  rw [← find?_visible]
  cases hfind : s.objQueue.find? (!s.excluded ·) with
  | none => exact ⟨⟨rfl, rfl⟩, h.keeps _⟩
  | some o => exact ⟨⟨rfl, rfl⟩, h.keeps_select (List.mem_of_find?_eq_some hfind) s.olfCb⟩

theorem prevLoop_eq (h : ∀ o ∈ before, o.ptr ≠ cur.ptr) :
    prevLoop s cur.ptr prev (before ++ cur :: after) =
      (before.filter (!s.excluded ·)).getLast?.or prev := by
  induction before generalizing prev with
  | nil => rw [List.nil_append, prevLoop, if_pos rfl]; rfl
  | cons o before ih =>
    obtain ⟨ho, hbefore⟩ := List.forall_mem_cons.mp h
    rw [List.cons_append, prevLoop, if_neg ho, ih hbefore]
    cases hexcluded : s.excluded o with
    | true =>
      rw [if_pos rfl, List.filter_cons_of_neg (by simp [hexcluded])]
    | false =>
      rw [if_neg Bool.false_ne_true, List.filter_cons_of_pos (by simp [hexcluded]),
        List.getLast?_cons]
      cases (before.filter (!s.excluded ·)).getLast? <;> rfl

theorem visible_append
    (hqueue : s.objQueue = before ++ cur :: after) (hcur : s.excluded cur = false) :
    s.visible = (before.filter (!s.excluded ·)).map (·.ptr) ++
      cur.ptr :: (after.filter (!s.excluded ·)).map (·.ptr) := by
  unfold Cb.visible
  rw [hqueue, List.filter_append, List.filter_cons_of_pos (by simp [hcur]), List.map_append,
    List.map_cons]

theorem steps_refuses
    (h : ∀ ptr ∈ s.currentObj, ptr ∉ s.visible) :
    Steps neighbour s (olcpOperFailResCode, s) :=
  ⟨fun ptr hptr hvisible => absurd hvisible (h ptr hptr), fun _ => rfl⟩

theorem current_hidden (h : s.Valid) (hcurrent : s.current = none) :
    ∀ ptr ∈ s.currentObj, ptr ∉ s.visible := by
  intro ptr hptr
  obtain ⟨cur, hcur, -⟩ := h.current_some hptr
  rw [hcurrent] at hcur
  cases hcur

theorem current_excluded (h : s.Valid) (hcurrent : s.current = some cur)
    (hexcluded : s.excluded cur = true) : ∀ ptr ∈ s.currentObj, ptr ∉ s.visible := by
  intro ptr hptr hvisible
  obtain ⟨hcur, before, after, hqueue, -⟩ := Cb.current_spec hcurrent
  rw [hcur] at hptr
  cases hptr
  rw [h.mem_visible (by rw [hqueue]; simp), hexcluded] at hvisible
  cases hvisible

theorem olcpPrevious_spec (h : s.Valid) :
    Steps (fun before _ => before.getLast?) s (olcpPrevious s) ∧ Keeps s (olcpPrevious s) := by
  unfold olcpPrevious
  cases hcurrent : s.current with
  | none => exact ⟨steps_refuses (current_hidden h hcurrent), h.keeps _⟩
  | some cur =>
    obtain ⟨hptr, before, after, hqueue, hbefore⟩ := Cb.current_spec hcurrent
    cases hexcluded : s.excluded cur with
    | true =>
      simp only [hexcluded, if_true]
      exact ⟨steps_refuses (current_excluded h hcurrent hexcluded), h.keeps _⟩
    | false =>
      have hvisible := visible_append hqueue hexcluded
      have hmem : cur.ptr ∈ s.visible := by
        rw [hvisible]
        simp
      have hsplit : ∀ r, Selects olcpOobResCode
          ((before.filter (!s.excluded ·)).map (·.ptr)).getLast? s r →
            Steps (fun before _ => before.getLast?) s r := by
        refine fun r hr => ⟨fun ptr hptr' _ => ?_, fun hnot => absurd hmem (hnot _ hptr)⟩
        rw [hptr] at hptr'
        cases hptr'
        exact ⟨_, _, hvisible, hr⟩
      simp only [hexcluded, Bool.false_eq_true, if_false]
      rw [hqueue, prevLoop_eq hbefore, Option.or_none]
      rw [List.getLast?_map] at hsplit
      cases hlast : (before.filter (!s.excluded ·)).getLast? with
      | none =>
        rw [hlast] at hsplit
        exact ⟨hsplit _ ⟨rfl, rfl⟩, h.keeps _⟩
      | some prev =>
        rw [hlast] at hsplit
        have hprev := List.mem_of_mem_filter (List.mem_of_getLast? hlast)
        exact ⟨hsplit _ ⟨rfl, rfl⟩, h.keeps_select (by rw [hqueue]; simp [hprev]) s.olfCb⟩

theorem olcpGoto_spec (h : s.Valid) : Goes req s (olcpGoto req s) ∧ Keeps s (olcpGoto req s) := by
  unfold olcpGoto Goes
  cases hfeature : s.olcpFeature.testBit otsOlcpGotoFeatMsk with
  | false => exact ⟨rfl, h.keeps _⟩
  | true =>
    simp only [Bool.not_true, Bool.false_eq_true, if_false, Bool.true_eq_false]
    have hparam : (req.len ≠ 6 ∨ req.objId < otsObjIdBase ∧ req.objId ≠ 0) ↔
        (req.len ≠ 6 ∨ 0 < req.objId ∧ req.objId < otsObjIdBase) := by omega
    by_cases hbad : req.len ≠ 6 ∨ 0 < req.objId ∧ req.objId < otsObjIdBase
    . rw [if_pos (hparam.mpr hbad), if_pos hbad]
      exact ⟨rfl, h.keeps _⟩
    . rw [if_neg (mt hparam.mp hbad), if_neg hbad]
      cases hfind : s.objQueue.find? (·.objId = req.objId) with
      | none =>
        have hnone : ¬ ∃ o ∈ s.objQueue, o.objId = req.objId := by
          rintro ⟨o, ho, heq⟩
          exact absurd (decide_eq_true heq) (List.find?_eq_none.mp hfind o ho)
        exact ⟨⟨fun hex => absurd hex hnone, fun _ => ⟨rfl, rfl⟩⟩, fun _ => rfl, .refl _, h.nodup,
          h.length_lt, h.current⟩
      | some o =>
        have ho := List.mem_of_find?_eq_some hfind
        have hid : o.objId = req.objId := by simpa using List.find?_some hfind
        exact ⟨⟨fun _ => ⟨o, ho, hid, rfl, rfl⟩, fun hnone => absurd ⟨o, ho, hid⟩ hnone⟩,
          h.keeps_select ho _⟩

theorem olcpOrder_spec (h : s.Valid) :
    Orders req s (olcpOrder req s) ∧ Keeps s (olcpOrder req s) := by
  unfold olcpOrder Orders orderObjListByCurSize
  cases hfeature : s.olcpFeature.testBit otsOlcpOrderFeatMsk with
  | false => exact ⟨rfl, h.keeps _⟩
  | true =>
    simp only [Bool.not_true, Bool.false_eq_true, if_false, Bool.true_eq_false]
    by_cases hascend : req.byte 1 = objCurSizeAscendSortOrder
    . rw [if_pos hascend, if_pos hascend]
      have hstable := sort_stable (·.curSize) s.objQueue
      exact ⟨⟨rfl, hstable⟩, h.keeps_queue _ (hstable.perm.map _)⟩
    . rw [if_neg hascend, if_neg hascend]
      by_cases hdescend : req.byte 1 = objCurSizeDescendSortOrder
      . rw [if_pos hdescend, if_pos hdescend]
        have hstable := sort_stable (fun o : ObjectCb => OrderDual.toDual o.curSize) s.objQueue
        exact ⟨⟨rfl, hstable⟩, h.keeps_queue _ (hstable.perm.map _)⟩
      . rw [if_neg hdescend, if_neg hdescend]
        exact ⟨rfl, h.keeps _⟩

theorem le32_toBytes32 (h : v < 2 ^ 32) : le32 (toBytes32 v) 0 = v := by
  simp only [le32, toBytes32, Nat.zero_add, List.getD_cons_zero, List.getD_cons_succ,
    UInt8.toNat_ofNat']
  omega

theorem olcpReqNumObjs_spec (h : s.Valid) :
    Counts req s (rspValue req (olcpReqNumObjs s).1 ++ (olcpReqNumObjs s).2) := by
  unfold olcpReqNumObjs Counts
  cases hfeature : s.olcpFeature.testBit otsOlcpReqNumObjFeatMsk with
  | false => exact List.append_nil _
  | true =>
    simp only [Bool.not_true, Bool.false_eq_true, if_false, Bool.true_eq_false]
    by_cases hqueue : s.objQueue = []
    . rw [if_pos hqueue, if_pos hqueue]
      exact List.append_nil _
    . rw [if_neg hqueue, if_neg hqueue]
      refine ⟨_, rfl, rfl, ?_⟩
      have hle := @List.countP_le_length _ (!s.excluded ·) s.objQueue
      have hlt := h.length_lt
      rw [le32_toBytes32 (by omega), Cb.visible, List.length_map, List.countP_eq_length_filter]

theorem olcpClrMark_keeps (h : s.Valid) : Keeps s (olcpClrMark s) := by
  unfold olcpClrMark
  split
  . exact h.keeps _
  . split
    . exact h.keeps _
    . refine h.keeps_queue _ (List.Perm.of_eq ?_)
      rw [List.map_map]
      refine List.map_congr_left fun o _ => ?_
      simp only [Function.comp_apply, Cb.clearMark]
      split <;> rfl

end

section

variable {s : Cb}

theorem scanBack_ok (hne : queue ≠ [])

    (h : scanBack queue found fuel (queue.length - 1 : Int) obj = .ok r) :
    r = ((queue.length - 1 : Int), obj) := by
  have hpos := List.length_pos_iff.mpr hne
  cases fuel with
  | zero => cases h
  | succ fuel =>
    rw [scanBack, if_neg (by omega)] at h
    cases h
    rfl

theorem scanBack_nil (hfound : found none = false)
    (hi : i < 0) :
    scanBack [] found fuel i obj ≠ .ok r := by
  induction fuel generalizing i obj with
  | zero => exact nofun
  | succ fuel ih =>
    have hpeek : osQueuePeek [] i = none := if_pos hi
    rw [scanBack, if_pos hi, hpeek, hfound, if_neg Bool.false_ne_true]
    split
    . exact nofun
    . exact ih (by omega)

theorem olcpLast_stuck : olcpLast fuel s ≠ .ok r := by
  intro h
  unfold olcpLast at h
  cases hscan : scanBack s.objQueue (fun obj => obj.any (!s.excluded ·)) fuel
    (s.objQueue.length - 1 : Int) none with
  | error e =>
    rw [hscan] at h
    cases h
  | ok scanned =>
    by_cases hne : s.objQueue = []
    . rw [hne] at hscan
      exact scanBack_nil rfl (by decide) hscan
    . obtain rfl := scanBack_ok hne hscan
      rw [hscan] at h
      simp only [bind, Except.bind] at h
      rw [if_neg (by omega)] at h
      cases h

theorem olcpNext_stuck (hcurrent : s.current = some cur)
    (hcur : s.excluded cur = false) : olcpNext fuel s ≠ .ok r := by
  intro h
  obtain ⟨-, before, after, hqueue, -⟩ := Cb.current_spec hcurrent
  have hne : s.objQueue ≠ [] := by
    rw [hqueue]
    simp
  unfold olcpNext at h
  simp only [hcurrent, hcur, Bool.false_eq_true, if_false] at h
  cases hscan : scanBack s.objQueue (fun obj => obj.any (·.ptr = cur.ptr)) fuel
    (s.objQueue.length - 1 : Int) (some none) with
  | error e =>
    rw [hscan] at h
    cases h
  | ok scanned =>
    obtain rfl := scanBack_ok hne hscan
    rw [hscan] at h
    cases h

theorem olcpNext_refuses (h : s.Valid) (hhidden : ∀ ptr ∈ s.currentObj, ptr ∉ s.visible)
    (fuel : Nat) : olcpNext fuel s = .ok (olcpOperFailResCode, s) := by
  unfold olcpNext
  cases hcurrent : s.current with
  | none => rfl
  | some cur =>
    obtain ⟨hptr, before, after, hqueue, -⟩ := Cb.current_spec hcurrent
    have hnot := hhidden cur.ptr hptr
    rw [h.mem_visible (by rw [hqueue]; simp), Bool.not_eq_false] at hnot
    simp only [hnot, if_true]

end

section

variable {req : Request} {s : Cb}

theorem locked_iff : s.current.any (·.objLockState ≠ 0) = true ↔ s.Locked := by
  unfold Cb.Locked
  cases s.current <;> simp

theorem handleOlcpRequest_eq (hlocked : ¬ s.Locked) (fuel : Nat) :
    handleOlcpRequest fuel req s = switchOpcode fuel req s :=
  if_neg (mt locked_iff.mp hlocked)

theorem navigates_of_op (hlocked : ¬ s.Locked) {fuel : Nat} {rsp : List UInt8} {r : UInt8 × Cb}
    (hswitch : switchOpcode fuel req s = .ok (rsp, r.2)) (hrsp : rsp[2]? = some r.1)
    (hdoes : Does req s rsp r.2) (hkeeps : Keeps s r) : Navigates req s := by
  refine ⟨fuel, rsp, r.2, (handleOlcpRequest_eq hlocked fuel).trans hswitch,
    fun h => absurd h hlocked, fun _ => hdoes, fun hne => ?_, hkeeps.objects, hkeeps.valid⟩
  exact hkeeps.error fun hcode => hne (by rw [hrsp, hcode])

theorem navigates_of_reply (hlocked : ¬ s.Locked) {fuel : Nat} {r : UInt8 × Cb}
    (hswitch : switchOpcode fuel req s = .ok (req.reply r))
    (hdoes : Does req s (rspValue req r.1) r.2) (hkeeps : Keeps s r) : Navigates req s :=
  navigates_of_op hlocked hswitch rfl hdoes hkeeps

theorem navigates_of_locked (h : s.Valid) (hlocked : s.Locked) : Navigates req s := by
  refine ⟨0, rspValue req olcpOperFailResCode, s, ?_, fun _ => ⟨rfl, rfl⟩,
    fun hnot => absurd hlocked hnot, fun _ => rfl, .refl _, h⟩
  unfold handleOlcpRequest
  rw [if_pos (locked_iff.mpr hlocked)]

theorem navigates_of_switch (h : s.Valid) (hlocked : ¬ s.Locked) (hlast : req.op ≠ .last)
    (hnext : req.op = .next → ∀ ptr ∈ s.currentObj, ptr ∉ s.visible) : Navigates req s := by
  cases hop : req.op with
  | last => exact absurd hop hlast
  | first =>
    obtain ⟨hspec, hkeeps⟩ := olcpFirst_spec h
    exact @navigates_of_reply req s hlocked 0 _ (by rw [switchOpcode, hop])
      (by rw [Does, hop]; exact ⟨_, rfl, hspec⟩) hkeeps
  | previous =>
    obtain ⟨hspec, hkeeps⟩ := olcpPrevious_spec h
    exact @navigates_of_reply req s hlocked 0 _ (by rw [switchOpcode, hop])
      (by rw [Does, hop]; exact ⟨_, rfl, hspec⟩) hkeeps
  | next =>
    have hhidden := hnext hop
    refine @navigates_of_reply req s hlocked 0 (olcpOperFailResCode, s) ?_
      (by rw [Does, hop]; exact ⟨_, rfl, steps_refuses hhidden⟩) (h.keeps _)
    rw [switchOpcode, hop]
    simp only [olcpNext_refuses h hhidden]
    rfl
  | goto =>
    obtain ⟨hspec, hkeeps⟩ := @olcpGoto_spec req s h
    exact @navigates_of_reply req s hlocked 0 _ (by rw [switchOpcode, hop])
      (by rw [Does, hop]; exact ⟨_, rfl, hspec⟩) hkeeps
  | order =>
    obtain ⟨hspec, hkeeps⟩ := @olcpOrder_spec req s h
    exact @navigates_of_reply req s hlocked 0 _ (by rw [switchOpcode, hop])
      (by rw [Does, hop]; exact ⟨_, rfl, hspec⟩) hkeeps
  | reqNumObjs =>
    exact @navigates_of_op req s hlocked 0 _ ((olcpReqNumObjs s).1, s) (by rw [switchOpcode, hop])
      rfl (by rw [Does, hop]; exact olcpReqNumObjs_spec h) (h.keeps _)
  | clrMark =>
    exact @navigates_of_reply req s hlocked 0 _ (by rw [switchOpcode, hop])
      (by rw [Does, hop]; trivial) (olcpClrMark_keeps h)
  | other =>
    exact @navigates_of_reply req s hlocked 0 (olcpOpcodeNotsupResCode, s)
      (by rw [switchOpcode, hop]; rfl) (by rw [Does, hop]; exact ⟨_, rfl, rfl⟩) (h.keeps _)

theorem switch_last (hop : req.op = .last) {fuel : Nat} {r : List UInt8 × Cb} :
    switchOpcode fuel req s ≠ .ok r := by
  intro h
  rw [switchOpcode, hop] at h
  cases hlast : olcpLast fuel s with
  | error e =>
    simp only [hlast] at h
    cases h
  | ok r => exact olcpLast_stuck hlast

theorem switch_next (h : s.Valid) (hop : req.op = .next) (hptr : ptr ∈ s.currentObj)
    (hvisible : ptr ∈ s.visible) :
    switchOpcode fuel req s ≠ .ok r := by
  intro hswitch
  obtain ⟨cur, hcurrent, rfl⟩ := h.current_some hptr
  obtain ⟨-, before, after, hqueue, -⟩ := Cb.current_spec hcurrent
  rw [h.mem_visible (by rw [hqueue]; simp)] at hvisible
  rw [switchOpcode, hop] at hswitch
  cases hnext : olcpNext fuel s with
  | error e =>
    simp only [hnext] at hswitch
    cases hswitch
  | ok r => exact olcpNext_stuck hcurrent hvisible hnext

theorem navigates_iff (req : Request) (s : Cb) (h : s.Valid) :
    Navigates req s ↔ s.Locked ∨
      (req.op ≠ .last ∧ (req.op = .next → ∀ ptr ∈ s.currentObj, ptr ∉ s.visible)) := by
  by_cases hlocked : s.Locked
  . exact ⟨fun _ => .inl hlocked, fun _ => navigates_of_locked h hlocked⟩
  . constructor
    . rintro ⟨fuel, rsp, s', hok, -⟩
      rw [handleOlcpRequest_eq hlocked] at hok
      exact .inr ⟨fun hop => switch_last hop hok,
        fun hop ptr hptr hvisible => switch_next h hop hptr hvisible hok⟩
    . rintro (hlocked' | ⟨hlast, hnext⟩)
      . exact absurd hlocked' hlocked
      . exact navigates_of_switch h hlocked hlast hnext

def listing : Cb :=
  { objQueue := [⟨0, 0, 9, fun i => [0xCB, 0x2A].getD i 0, 33, 33, 4, 0⟩]
    olcpFeature := 0x0F
    currentObj := none
    olfCb := [] }

def request (opcode : UInt8) : Request := ⟨[opcode], fun _ => 0, by simp⟩

theorem listing_valid : listing.Valid where
  nodup := by decide
  length_lt := by decide
  current := nofun

theorem navigates_first : listing.Valid ∧ Navigates (request 0x01) listing :=
  ⟨listing_valid, (navigates_iff (request 0x01) listing listing_valid).mpr
    (.inr ⟨by decide, nofun⟩)⟩

theorem not_navigates_last : listing.Valid ∧ ¬ Navigates (request 0x02) listing := by
  refine ⟨listing_valid, ?_⟩
  rintro ⟨fuel, rsp, s', hok, -⟩
  exact @switch_last (request 0x02) listing rfl fuel (rsp, s') hok

end

end OtsOlcp
