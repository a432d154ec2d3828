import Earphone.Lib.Heap
import Earphone.Ots.Read

/-!
This module contains the objects of an object transfer server and their requests.
-/

namespace OtsWrite

open Heap Ots

structure ObjectCb where
  ptr : Nat
  objSize0 : Nat
  objSize1 : Nat
  objProps : Nat
  allocBuf : Nat
  tempWriteBuf : Option Nat
  wrOffset : Nat
  wrLen : Nat
  transferdLen : Nat
  objLockState : LockState
  mode : Nat
  received : List UInt8
  deriving DecidableEq

structure Client where
  connHandle : Nat
  cid : Nat
  currentObj : Option Nat

structure World where
  oacpFeature : Nat
  heap : Mem UInt8
  objs : List ObjectCb
  clients : List Client
  rsp : Option ResCode

structure Answers where
  clientMem : Bool
  excluded : Bool
  object : Option Nat
  objId : Bool
  buf : Option Nat

inductive Request where
  | create (params : List UInt8)
  | delete
  | write (params : List UInt8)

def Request.isCreate : Request → Bool
  | .create _ => true
  | .delete | .write _ => false

def Request.feature : Request → Nat
  | .create _ => 0
  | .delete => 1
  | .write _ => 5

def appendFeature : Nat := 6

def truncateFeature : Nat := 7

def patchFeature : Nat := 8

def propDelete : Nat := 0

def propWrite : Nat := 3

def propAppend : Nat := 4

def propTruncate : Nat := 5

def propPatch : Nat := 6

def createDefaultProps : Nat := 0x0F

def truncateMode : Nat := 1

def maxConcurrencyNum : Nat := 3

namespace World

def obj? (w : World) (ptr : Nat) : Option ObjectCb := w.objs.find? (·.ptr == ptr)

def deref (w : World) : Option Nat → Except Fault ObjectCb
  | none => .error .null
  | some ptr =>
    match w.obj? ptr with
    | some o => .ok o
    | none => .error .dangling

def client? (w : World) (connHandle : Nat) : Option Client :=
  w.clients.find? (·.connHandle == connHandle)

def clientOn? (w : World) (connHandle cid : Nat) : Option Client :=
  w.clients.find? fun cl => cl.connHandle == connHandle && cl.cid == cid

def setObj (w : World) (o : ObjectCb) : World :=
  { w with objs := w.objs.map fun o' => if o'.ptr = o.ptr then o else o' }

def setClient (w : World) (cl : Client) : World :=
  { w with clients := w.clients.map fun cl' => if cl'.connHandle = cl.connHandle then cl else cl' }

def permits (w : World) (o : ObjectCb) (feature prop : Nat) : Bool :=
  w.oacpFeature.testBit feature && o.objProps.testBit prop

end World

def ObjectCb.reset (o : ObjectCb) : ObjectCb :=
  { o with
    wrOffset := 0
    wrLen := 0
    mode := 0
    objLockState := .idle
    tempWriteBuf := none
    received := [] }

def endWrite (w : World) (o : ObjectCb) : Except Fault World := do
  let heap ← w.heap.free o.tempWriteBuf
  return { w with heap }.setObj o.reset

def ObjectCb.take (o : ObjectCb) (value : List UInt8) : ObjectCb :=
  { o with
    transferdLen := u32 (o.transferdLen + value.length)
    received := o.received ++ value }

def ObjectCb.grown (o : ObjectCb) : ObjectCb :=
  if o.objLockState = .writeAppend then { o with objSize0 := u32 (o.wrOffset + o.wrLen) } else o

def complete (w : World) (o : ObjectCb) : Except Fault World := do
  let bytes ← w.heap.load o.tempWriteBuf o.wrLen
  let heap ← w.heap.store (some o.allocBuf) o.wrOffset bytes
  endWrite { w with heap } o.grown

/--
Data for the object `o`. The channel is disconnected where there is too much of it, which the layer
below reports later.
-/
def receive (w : World) (o : ObjectCb) (value : List UInt8) : Except Fault World :=
  if o.wrLen < u32 (o.transferdLen + value.length) then
    endWrite w o
  else do
    let heap ← w.heap.store o.tempWriteBuf o.transferdLen value
    let w := { w with heap }.setObj (o.take value)
    if (o.take value).transferdLen < o.wrLen then return w else complete w (o.take value)

def handleOacpWriteRequest (w : World) (cl : Client) (value : List UInt8) : Except Fault World := do
  let o ← w.deref cl.currentObj
  receive w o value

def newObject (ptr buf size : Nat) : ObjectCb where
  ptr := ptr
  objSize0 := 0
  objSize1 := size
  objProps := createDefaultProps
  allocBuf := buf
  tempWriteBuf := none
  wrOffset := 0
  wrLen := 0
  transferdLen := 0
  objLockState := .idle
  mode := 0
  received := []

def createOtsObject (w : World) (cl : Client) (size : Nat) (a : Answers) : World × ResCode :=
  match a.object with
  | none => (w, .insfResc)
  | some ptr =>
    if a.objId then
      match a.buf with
      | none => (w, .insfResc)
      | some buf =>
        ({ w with
          heap := w.heap.set buf (some (List.replicate size 0))
          objs := w.objs ++ [newObject ptr buf size] }.setClient
            { cl with currentObj := some ptr }, .success)
    else
      (w, .operFail)

/--
`OTS_OACP_CREATE_OP` of `handle_oacp_request`. The bytes behind the size are a UUID of 16 or 2
bytes.
-/
def oacpCreate (w : World) (cl : Client) (params : List UInt8) (a : Answers) : World × ResCode :=
  if params.length < 4 then (w, .invParam)
  else if params.length - 4 = 16 ∨ params.length - 4 = 2 then
    createOtsObject w cl (le32 params 0) a
  else (w, .invParam)

def Client.forget (ptr : Nat) (cl : Client) : Client :=
  if cl.currentObj = some ptr then { cl with currentObj := none } else cl

def deleteOtsObj (w : World) (o : ObjectCb) : Except Fault World := do
  let heap ← w.heap.free (some o.allocBuf)
  return { w with
    heap
    objs := w.objs.filter (·.ptr != o.ptr)
    clients := w.clients.map (·.forget o.ptr) }

def oacpDelete (w : World) (o : ObjectCb) : Except Fault (World × ResCode) :=
  if o.objProps.testBit propDelete then do
    let w ← deleteOtsObj w o
    return (w, .success)
  else
    return (w, .proceNotPerm)

def startWrite (w : World) (o : ObjectCb) (curSize offset len mode : Nat) : World × ResCode :=
  (w.setObj { o with
    objLockState := if curSize < u32 (offset + len) then .writeAppend else .writePatch
    wrOffset := offset
    wrLen := len
    transferdLen := 0
    mode
    received := [] }, .success)

def growObject (w : World) (o : ObjectCb) (p offset len mode : Nat) :
    Except Fault (World × ResCode) := do
  let heap := w.heap.set p (some (List.replicate (u32 (offset + len)) 0))
  let bytes ← heap.load (some o.allocBuf) o.objSize0
  let heap ← heap.store (some p) 0 bytes
  return startWrite { w with heap }
    { o with
      objSize0 := 0
      objSize1 := u32 (offset + len)
      tempWriteBuf := some o.allocBuf
      allocBuf := p }
    o.objSize0 offset len mode

def prepareWrite (w : World) (o : ObjectCb) (offset len mode : Nat) (a : Answers) :
    Except Fault (World × ResCode) :=
  if o.objSize1 < u32 (offset + len) then
    if w.permits o appendFeature propAppend then
      match a.buf with
      | none => .ok (w, .insfResc)
      | some p => growObject w o p offset len mode
    else
      .ok (w, .proceNotPerm)
  else
    match a.buf with
    | none => .ok (w, .insfResc)
    | some p =>
      .ok (startWrite { w with heap := w.heap.set p (some (List.replicate len 0)) }
        { o with tempWriteBuf := some p } o.objSize0 offset len mode)

def checkWrite (w : World) (o : ObjectCb) (offset len mode : Nat) (a : Answers) :
    Except Fault (World × ResCode) :=
  if offset < o.objSize0 ∧ w.permits o patchFeature propPatch = false then
    .ok (w, .proceNotPerm)
  else if o.mode = truncateMode ∧ w.permits o truncateFeature propTruncate = false then
    .ok (w, .proceNotPerm)
  else
    prepareWrite w o offset len mode a

/--
`OTS_OACP_WRITE_OP` of `handle_oacp_request`. The parameters are read without a look at their
length.
-/
def oacpWrite (w : World) (cl : Client) (o : ObjectCb) (params : List UInt8) (a : Answers) :
    Except Fault (World × ResCode) :=
  if o.objProps.testBit propWrite = false then
    .ok (w, .proceNotPerm)
  else if cl.cid = 0 then
    .ok (w, .chanUnav)
  else if params.length < 9 then
    .error .outOfBounds
  else
    checkWrite w o (le32 params 0) (le32 params 4) (params.getD 8 0).toNat a

def handleOnObject (w : World) (cl : Client) (ptr : Nat) (req : Request) (a : Answers) :
    Except Fault (World × ResCode) := do
  let o ← w.deref (some ptr)
  if a.excluded && !req.isCreate then
    return (w, .invObj)
  else if o.objLockState ≠ .idle then
    return (w, if req.isCreate then .operFail else .objLockd)
  else
    match req with
    | .create params => return oacpCreate w cl params a
    | .delete => oacpDelete w o
    | .write params => oacpWrite w cl o params a

def handleOacpRequest (w : World) (cl : Client) (req : Request) (a : Answers) :
    Except Fault (World × ResCode) :=
  if w.oacpFeature.testBit req.feature = false then
    .ok (w, .opcodeNotSup)
  else
    match cl.currentObj with
    | some ptr => handleOnObject w cl ptr req a
    | none =>
      match req with
      | .create params => .ok (oacpCreate w cl params a)
      | .delete | .write _ => .ok (w, .invObj)

def newClient (connHandle : Nat) : Client := { connHandle, cid := 0, currentObj := none }

def World.enter (w : World) (connHandle : Nat) (a : Answers) : Option (World × Client) :=
  match w.client? connHandle with
  | some cl => some (w, cl)
  | none =>
    if w.clients.length < maxConcurrencyNum ∧ a.clientMem then
      some ({ w with clients := w.clients ++ [newClient connHandle] }, newClient connHandle)
    else
      none

def oacpRequest (w : World) (connHandle : Nat) (req : Request) (a : Answers) : Except Fault World :=
  match w.enter connHandle a with
  | none => .ok { w with rsp := none }
  | some (w, cl) => do
    let r ← handleOacpRequest w cl req a
    return { r.1 with rsp := some r.2 }

def release (w : World) (cl : Client) : Except Fault World :=
  match cl.currentObj with
  | none => .ok w
  | some ptr => do
    let o ← w.deref (some ptr)
    if o.objLockState ≠ .idle then endWrite w o else return w

def releaseAll (w : World) : List Client → Except Fault World
  | [] => .ok w
  | cl :: cls => do
    let w ← release w cl
    releaseAll w cls

def deleteClCbById (w : World) (connHandle : Nat) : Except Fault World := do
  let w ← releaseAll w (w.clients.filter (·.connHandle == connHandle))
  return { w with clients := w.clients.filter (·.connHandle != connHandle) }

def chanConnected (w : World) (connHandle cid : Nat) : World :=
  match w.client? connHandle with
  | none => w
  | some cl => w.setClient { cl with cid }

def chanDisconnected (w : World) (connHandle cid : Nat) : Except Fault World :=
  match w.clientOn? connHandle cid with
  | none => .ok w
  | some cl => do
    let w ← release w cl
    return w.setClient { cl with cid := 0 }

def receiveData (w : World) (connHandle cid : Nat) (value : List UInt8) : Except Fault World :=
  match w.clientOn? connHandle cid with
  | none => .ok w
  | some cl => handleOacpWriteRequest w cl value

def World.locked (w : World) (ptr : Nat) : Bool := (w.obj? ptr).any (·.objLockState ≠ .idle)

/--
The client goes to another object with `handle_olcp_request`, which is refused while its current
object is locked.
-/
def select (w : World) (connHandle ptr : Nat) : World :=
  match w.client? connHandle with
  | none => w
  | some cl =>
    if cl.currentObj.any w.locked then w else w.setClient { cl with currentObj := some ptr }

inductive Op where
  | request (connHandle : Nat) (req : Request) (a : Answers)
  | data (connHandle cid : Nat) (value : List UInt8)
  | chanConn (connHandle cid : Nat)
  | chanDisc (connHandle cid : Nat)
  | linkDisc (connHandle : Nat)
  | select (connHandle ptr : Nat)

def step1 (w : World) : Op → Except Fault World
  | .request connHandle req a => oacpRequest w connHandle req a
  | .data connHandle cid value => receiveData w connHandle cid value
  | .chanConn connHandle cid => .ok (chanConnected w connHandle cid)
  | .chanDisc connHandle cid => chanDisconnected w connHandle cid
  | .linkDisc connHandle => deleteClCbById w connHandle
  | .select connHandle ptr => .ok (OtsWrite.select w connHandle ptr)

def step (w : Except Fault World) (op : Op) : Except Fault World := do
  let w ← w
  step1 w op

def Op.Possible (w : World) : Op → Prop
  | .request _ _ a =>
    (∀ p ∈ a.buf, w.heap p = none) ∧ ∀ ptr ∈ a.object, ∀ o ∈ w.objs, o.ptr ≠ ptr
  | .select _ ptr => ∃ o ∈ w.objs, o.ptr = ptr
  | .data .. | .chanConn .. | .chanDisc .. | .linkDisc _ => True

def World.writeTarget (w : World) (connHandle : Nat) (a : Answers) : Option ObjectCb := do
  let cl ← w.client? connHandle
  let ptr ← cl.currentObj
  let o ← w.obj? ptr
  if w.oacpFeature.testBit (Request.write []).feature ∧ a.excluded = false ∧
    o.objLockState = .idle ∧ o.objProps.testBit propWrite ∧ cl.cid ≠ 0 then some o else none

def World.Accepts (w : World) (o : ObjectCb) (offset len : Nat) (a : Answers) : Prop :=
  (offset < o.objSize0 → w.permits o patchFeature propPatch = true) ∧
    (o.objSize1 < u32 (offset + len) → w.permits o appendFeature propAppend = true) ∧ a.buf.isSome

def World.WriteOk (w : World) (o : ObjectCb) (params : List UInt8) (a : Answers) : Prop :=
  9 ≤ params.length ∧
    (w.Accepts o (le32 params 0) (le32 params 4) a →
      le32 params 0 + le32 params 4 < 2 ^ 32 ∧
      ((params.getD 8 0).toNat = truncateMode → w.permits o truncateFeature propTruncate = true) ∧
      (o.objSize1 < le32 params 0 + le32 params 4 → o.objSize0 = 0 ∧ le32 params 4 ≤ o.objSize1))

def Op.Ok (w : World) : Op → Prop
  | .request connHandle (.write params) a =>
    ∀ o ∈ w.writeTarget connHandle a, w.WriteOk o params a
  | .data connHandle cid value =>
    ∀ cl ∈ w.clientOn? connHandle cid, cl.currentObj.isSome = true ∧
      ∀ o ∈ cl.currentObj.bind w.obj?, o.transferdLen + value.length < 2 ^ 32
  | .request _ _ _ | .chanConn .. | .chanDisc .. | .linkDisc _ | .select .. => True

def ObjectCb.owned (o : ObjectCb) : List Nat := o.allocBuf :: o.tempWriteBuf.toList

structure Sound (w : World) : Prop where
  size : ∀ o ∈ w.objs, ∃ b, w.heap o.allocBuf = some b ∧ b.length = o.objSize1
  room : ∀ o ∈ w.objs, o.objLockState ≠ .idle →
    ∃ p b, o.tempWriteBuf = some p ∧ w.heap p = some b ∧ o.wrLen ≤ b.length
  owner : ∀ p, w.heap p ≠ none → ∃ o ∈ w.objs, p ∈ o.owned
  one : ∀ o ∈ w.objs, o.owned.Nodup ∧ ∀ o' ∈ w.objs, ∀ p ∈ o.owned, p ∈ o'.owned → o = o'
  selected : ∀ cl ∈ w.clients, ∀ ptr ∈ cl.currentObj, ∃ o ∈ w.objs, o.ptr = ptr

def World.contents (w : World) (o : ObjectCb) : List UInt8 :=
  ((w.heap o.allocBuf).getD []).take o.objSize0

def Op.Completes (w : World) (o : ObjectCb) : Op → Prop
  | .data connHandle cid value =>
    (∃ cl ∈ w.clientOn? connHandle cid, cl.currentObj = some o.ptr) ∧ o.objLockState ≠ .idle ∧
      (o.received ++ value).length = o.wrLen
  | _ => False

structure Judged (w : World) (o : ObjectCb) (params : List UInt8) : Prop where
  patch : le32 params 0 < o.objSize0 → w.permits o patchFeature propPatch = true
  truncate : (params.getD 8 0).toNat = truncateMode →
    w.permits o truncateFeature propTruncate = true
  append : o.objSize1 < le32 params 0 + le32 params 4 → w.permits o appendFeature propAppend = true

structure StepSound (w : World) (op : Op) (w' : World) : Prop where
  atomic : ∀ o ∈ w.objs, ∀ o' ∈ w'.objs, o'.ptr = o.ptr →
    w'.contents o' = w.contents o ∧ o'.objSize0 = o.objSize0 ∨ op.Completes w o
  judged : ∀ connHandle params a, op = .request connHandle (.write params) a →
    w'.rsp = some .success → ∃ o ∈ w.writeTarget connHandle a, Judged w o params

structure Fresh (w : World) : Prop where
  clients : w.clients = []
  distinct : (w.objs.map (·.ptr)).Nodup
  idle : ∀ o ∈ w.objs, o.reset = o ∧ o.objSize0 ≤ o.objSize1 ∧ o.objSize1 < 2 ^ 32
  size : ∀ o ∈ w.objs, ∃ b, w.heap o.allocBuf = some b ∧ b.length = o.objSize1
  owner : ∀ p, w.heap p ≠ none → ∃ o ∈ w.objs, p ∈ o.owned
  one : ∀ o ∈ w.objs, ∀ o' ∈ w.objs, ∀ p ∈ o.owned, p ∈ o'.owned → o = o'

end OtsWrite
