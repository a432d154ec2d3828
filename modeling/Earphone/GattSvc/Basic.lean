import Earphone.Lib.Run
import Earphone.Lib.First

/-!
This module contains the queues of the GATT server for the data it sends.
-/

namespace GattSvc

inductive Mode where
  | disable
  | useExtServer
  | useNormalServer
deriving DecidableEq

inductive PduType where
  | any
  | notification
  | indication
deriving DecidableEq

inductive Fault where
  | endless

def fixedCidAtt : Nat := 4

def noConnId : Nat := 0xff

structure Conn where
  connHandle : Nat
  connId : Option Nat
  cids : List Nat

def Conn.channs (c : Conn) : List Nat :=
  if c.connId.isSome then fixedCidAtt :: c.cids else c.cids

structure Call where
  ind : Bool
  connHandle : Nat
  cid : Nat
  serviceId : Nat
  attribIdx : Nat
  svcData : List UInt8

structure IndDataQueueElem where
  serviceId : Nat
  attribIdx : Nat
  svcData : List UInt8

structure SendIndData where
  srvDataQ : List IndDataQueueElem
  pd : Bool
  connHandle : Nat
  connId : Nat
  serviceId : Nat
  attribIdx : Nat

structure NotifyData where
  connHandle : Nat
  cid : Nat
  connId : Nat
  serviceId : Nat
  attribIdx : Nat
  svcData : List UInt8

def NotifyData.call (d : NotifyData) : Call :=
  ⟨false, d.connHandle, d.cid, d.serviceId, d.attribIdx, d.svcData⟩

def IndDataQueueElem.call (connHandle cid : Nat) (e : IndDataQueueElem) : Call :=
  ⟨true, connHandle, cid, e.serviceId, e.attribIdx, e.svcData⟩

structure Cmpl where
  ind : Bool
  connHandle : Nat
  cid : Nat
  serviceId : Nat
  attribIdx : Nat
deriving DecidableEq

def Cmpl.of (ev : Cmpl) (c : Call) : Bool :=
  c.ind == ev.ind && c.connHandle == ev.connHandle && c.cid == ev.cid &&
    c.serviceId == ev.serviceId && c.attribIdx == ev.attribIdx

structure World where
  mode : Mode
  linkIndList : List SendIndData
  notifyList : List NotifyData
  conns : List Conn
  current : Option Cmpl
  accepted : List Call
  handed : List Call
  outstanding : List Call

def World.start (mode : Mode) : World := ⟨mode, [], [], [], none, [], [], []⟩

section

variable (conns : List Conn) (connHandle : Nat)

def gapChannGetInfo (cid : Nat) : Option Bool :=
  match conns.find? (·.connHandle == connHandle) with
  | some c => if cid ∈ c.channs then some c.connId.isSome else none
  | none => none

def gapChannGetNum : Nat :=
  match conns.find? (·.connHandle == connHandle) with
  | some c => c.channs.length
  | none => 0

def leGetConnIdByHandle : Option Nat := (conns.find? (·.connHandle == connHandle)).bind (·.connId)

end

def scan {α : Type} (p : α → Bool) (l : List α) : Except Fault (Option α) :=
  match (l.take 256).find? p with
  | some a => .ok (some a)
  | none => if l.length < 256 then .ok none else .error .endless

def gattSvcCheckLinkInd (w : World) (connHandle : Nat) : Except Fault (Option SendIndData) :=
  scan (·.connHandle == connHandle) w.linkIndList

def World.modifyLink (w : World) (connHandle : Nat) (f : SendIndData → SendIndData) : World :=
  { w with linkIndList := First.modify (·.connHandle == connHandle) f w.linkIndList }

def World.takes (w : World) (connHandle : Nat) (answer : Bool) : Bool :=
  match w.mode with
  | .useNormalServer => (leGetConnIdByHandle w.conns connHandle).isSome && answer
  | .useExtServer => answer
  | .disable => true

def World.hand (w : World) (c : Call) : World :=
  { w with handed := w.handed ++ [c], outstanding := w.outstanding ++ [c] }

def gattSvcSendNotifyIndData (w : World) (c : Call) (answer : Bool) : World × Bool :=
  if w.takes c.connHandle answer then (w.hand c, true) else (w, false)

def SendIndData.idle (s : SendIndData) : SendIndData :=
  { s with pd := false, serviceId := 0xff, attribIdx := 0 }

def SendIndData.waitFor (serviceId attribIdx : Nat) (s : SendIndData) : SendIndData :=
  { s with pd := true, serviceId := serviceId, attribIdx := attribIdx }

def SendIndData.push (e : IndDataQueueElem) (s : SendIndData) : SendIndData :=
  { s with srvDataQ := s.srvDataQ ++ [e] }

def SendIndData.popFirst (s : SendIndData) : SendIndData := { s with srvDataQ := s.srvDataQ.tail }

def sendFirstInd (w : World) (s : SendIndData) (cid credit : Nat) (answer : Bool) : World × Bool :=
  match s.srvDataQ with
  | [] => (w, true)
  | e :: _ =>
    if credit = 0 then (w, true)
    else
      match gattSvcSendNotifyIndData w (e.call s.connHandle cid) answer with
      | (w', true) =>
        (w'.modifyLink s.connHandle fun s => (s.waitFor e.serviceId e.attribIdx).popFirst, true)
      | (w', false) => (w', false)

def SendIndData.isDue (s : SendIndData) (serviceId attribIdx : Nat) : Bool :=
  (s.serviceId == serviceId && s.attribIdx == attribIdx) || (!s.pd && s.serviceId == 0xff)

def gattSvcHandleIndQueue (w : World) (connHandle cid serviceId attribIdx : Nat)
    (credit : Nat) (answer : Bool) : Except Fault (World × Bool) := do
  match ← gattSvcCheckLinkInd w connHandle with
  | some s =>
    if s.isDue serviceId attribIdx then
      return sendFirstInd (w.modifyLink connHandle SendIndData.idle) s.idle cid credit answer
    else
      return (w, true)
  | none => return (w, false)

def gattSvcHandleNotifyQueue (w : World) : Nat → List Bool → World × Bool
  | 0, _ => (w, true)
  | credit + 1, answers =>
    match w.notifyList with
    | [] => (w, true)
    | d :: ds =>
      match gattSvcSendNotifyIndData w d.call (answers.headD false) with
      | (w', true) => gattSvcHandleNotifyQueue { w' with notifyList := ds } credit answers.tail
      | (w', false) => (w', false)

def removeLoop (p : NotifyData → Bool) (kept : List NotifyData) :
    List NotifyData → Except Fault (List NotifyData)
  | [] => .ok kept
  | d :: ds =>
    if p d then removeLoop p kept ds
    else if kept.length + 1 = 256 then .error .endless
    else removeLoop p (kept ++ [d]) ds

def clearSvcData (w : World) (p : SendIndData → Bool) (q : NotifyData → Bool) :
    Except Fault World := do
  let links := match ← scan p w.linkIndList with
    | some _ => w.linkIndList.eraseP p
    | none => w.linkIndList
  let notifyList ← removeLoop q [] w.notifyList
  return { w with linkIndList := links, notifyList := notifyList }

def gattSvcClearSvcDataQueue (w : World) (connHandle : Nat) : Except Fault World :=
  clearSvcData w (·.connHandle == connHandle) (·.connHandle == connHandle)

def gattSvcHandleConnStateEvt (w : World) (connId : Nat) : Except Fault World :=
  clearSvcData w (·.connId == connId) (·.connId == connId)

def cccIndicate : Nat := 2

def cccNotifyIndicate : Nat := 3

def gattSvcCheckIndProp (ccc : Option Nat) (type : PduType) : Bool :=
  match ccc with
  | none => false
  | some bits =>
    if bits = cccNotifyIndicate then type == .indication
    else if bits = cccIndicate then type != .notification
    else false

structure Send where
  connHandle : Nat
  cid : Nat
  serviceId : Nat
  attribIdx : Nat
  svcData : List UInt8
  type : PduType

structure Answers where
  linkMem : Bool
  elemMem : Bool
  dataMem : Bool
  ccc : Option Nat
  credit : Nat
  queueCredit : Nat
  answers : List Bool

def Send.call (c : Send) (ind : Bool) : Call :=
  ⟨ind, c.connHandle, c.cid, c.serviceId, c.attribIdx, c.svcData⟩

def Answers.saves (a : Answers) (c : Send) : Bool := a.elemMem && (c.svcData.isEmpty || a.dataMem)

def saveNotify (w : World) (c : Send) (connId : Nat) (a : Answers) : World :=
  if a.saves c then
    { w with
      notifyList := w.notifyList ++
        [⟨c.connHandle, c.cid, connId, c.serviceId, c.attribIdx, c.svcData⟩] }
  else w

def saveInd (w : World) (c : Send) (a : Answers) : World × Bool :=
  if a.saves c then
    (w.modifyLink c.connHandle (·.push ⟨c.serviceId, c.attribIdx, c.svcData⟩), true)
  else (w, false)

def sendInd (w : World) (s : SendIndData) (c : Send) (a : Answers) : World × Bool :=
  if a.credit ≠ 0 ∧ s.srvDataQ = [] ∧ s.pd = false then
    match gattSvcSendNotifyIndData w (c.call true) (a.answers.headD false) with
    | (w', true) =>
      (w'.modifyLink c.connHandle (·.waitFor c.serviceId c.attribIdx), true)
    | (w', false) => (w'.modifyLink c.connHandle fun s => { s with pd := false }, false)
  else saveInd w c a

def sendNotify (w : World) (c : Send) (connId : Nat) (a : Answers) : World × Bool :=
  if a.credit ≠ 0 ∧ w.notifyList = [] then
    gattSvcSendNotifyIndData w (c.call false) (a.answers.headD false)
  else gattSvcHandleNotifyQueue (saveNotify w c connId a) a.queueCredit a.answers

def getLinkInd (w : World) (c : Send) (connId : Nat) (a : Answers) :
    Except Fault (World × Option SendIndData) := do
  match ← gattSvcCheckLinkInd w c.connHandle with
  | some s => return (w, some s)
  | none =>
    if a.linkMem then
      let s := ⟨[], false, c.connHandle, connId, 0xff, 0⟩
      return ({ w with linkIndList := w.linkIndList ++ [s] }, some s)
    else
      return (w, none)

def sendConnId (w : World) (c : Send) : Option Nat :=
  match gapChannGetInfo w.conns c.connHandle c.cid with
  | some true => leGetConnIdByHandle w.conns c.connHandle
  | some false => some noConnId
  | none => none

def sendWith (w : World) (s : SendIndData) (c : Send) (connId : Nat) (a : Answers) : World × Bool :=
  if gattSvcCheckIndProp a.ccc c.type then sendInd w s c a else sendNotify w c connId a

def gattSvcSendData (w : World) (c : Send) (a : Answers) : Except Fault (World × Bool) := do
  if w.mode = .disable then
    return (w, false)
  else
    match sendConnId w c with
    | none => return (w, false)
    | some connId =>
      match ← getLinkInd w c connId a with
      | (w', some s) => return sendWith w' s c connId a
      | (w', none) => return (w', false)

def Send.isInd (a : Answers) (c : Send) : Bool := gattSvcCheckIndProp a.ccc c.type

inductive Op where
  | connect (c : Conn)
  | channAdd (connHandle cid : Nat)
  | channDel (connHandle cid : Nat)
  | disconnect (connId : Nat)
  | sendData (c : Send) (a : Answers)
  | cmplBegin (ev : Cmpl)
  | cmplEnd (ev : Cmpl) (credit : Nat) (answer : Bool) (queueCredit : Nat) (answers : List Bool)

def World.drop (w : World) (connHandle : Nat) : World :=
  { w with
    conns := w.conns.filter (·.connHandle != connHandle)
    accepted := w.accepted.filter (·.connHandle != connHandle)
    handed := w.handed.filter (·.connHandle != connHandle)
    outstanding := w.outstanding.filter (·.connHandle != connHandle) }

def World.modifyConn (w : World) (connHandle : Nat) (f : List Nat → List Nat) : World :=
  { w with
    conns :=
      First.modify (·.connHandle == connHandle) (fun c => { c with cids := f c.cids }) w.conns }

def gattSvcHandleGapCommonCb (w : World) (connHandle cid : Nat) : Except Fault World :=
  if gapChannGetNum w.conns connHandle = 0 ∧ cid ≠ fixedCidAtt then
    gattSvcClearSvcDataQueue w connHandle
  else .ok w

def World.reap (w : World) (connHandle : Nat) : World :=
  if gapChannGetNum w.conns connHandle = 0 then w.drop connHandle else w

def connHandleOf (conns : List Conn) (connId : Nat) : Option Nat :=
  (conns.find? (·.connId == some connId)).map (·.connHandle)

def World.accept (w : World) (c : Call) (result : Bool) : World :=
  if result then { w with accepted := w.accepted ++ [c] } else w

def step1 (w : World) : Op → Except Fault World
  | .connect c => return { w with conns := w.conns ++ [c] }
  | .channAdd connHandle cid => return w.modifyConn connHandle (· ++ [cid])
  | .channDel connHandle cid => do
    let w ← gattSvcHandleGapCommonCb (w.modifyConn connHandle (·.erase cid)) connHandle cid
    return w.reap connHandle
  | .disconnect connId =>
    match connHandleOf w.conns connId with
    | none => return w
    | some connHandle => gattSvcHandleConnStateEvt (w.drop connHandle) connId
  | .sendData c a => do
    let (w, result) ← gattSvcSendData w c a
    return w.accept (c.call (c.isInd a)) result
  | .cmplBegin ev =>
    return { w with current := some ev, outstanding := w.outstanding.eraseP ev.of }
  | .cmplEnd ev credit answer queueCredit answers =>
    if w.mode = .disable then return { w with current := none }
    else do
      let (w, _) ← gattSvcHandleIndQueue { w with current := none } ev.connHandle ev.cid
        ev.serviceId ev.attribIdx credit answer
      return (gattSvcHandleNotifyQueue w queueCredit answers).1

def step (w : Except Fault World) (op : Op) : Except Fault World := do
  let w ← w
  step1 w op

end GattSvc
