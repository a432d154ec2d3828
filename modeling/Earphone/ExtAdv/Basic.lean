import Earphone.Lib.Run
import Earphone.Lib.First

/-!
This module contains the manager of the extended advertising sets.
-/

namespace ExtAdv

inductive Action where
  | start
  | update
  | stop
deriving DecidableEq

inductive PendingAction where
  | idle
  | start
  | update
  | stop
deriving DecidableEq

inductive ExtAdvState where
  | idle
  | start
  | advertising
  | stop
deriving DecidableEq

structure Event where
  advHandle : Nat
  expectedAction : Action
  param : Nat

def maxNumOfExtendAdvEvent : Nat := 0x32

def appIdleAdvSet : Nat := 0xFF

def appIdleUpdateFlags : Nat := 0xFF

def appStopForUpdate : Nat := 0xFF

def extAdvSetAdvParas : Nat := 0x01

def extAdvSetAdvData : Nat := 0x02

def extAdvSetScanRspData : Nat := 0x04

def extAdvSetRandomAddr : Nat := 0x08

def cancelledByHost : Nat := 0x144

structure AdvSet where
  advHandle : Nat
  advParamSet : Bool
  pendingStartStopNum : Nat
  pendingCause : Nat
  initFlags : Nat
  enabled : Bool
  appCause : Nat
  pendingAction : PendingAction
  extAdvState : ExtAdvState
  duration : Nat

def AdvSet.default : AdvSet where
  advHandle := appIdleAdvSet
  advParamSet := false
  pendingStartStopNum := 0
  pendingCause := 0
  initFlags := appIdleUpdateFlags
  enabled := false
  appCause := 0
  pendingAction := .idle
  extAdvState := .idle
  duration := 0

namespace AdvSet

def incNum (s : AdvSet) : AdvSet :=
  { s with pendingStartStopNum := (s.pendingStartStopNum + 1) % 2 ^ 8 }

def decNum (s : AdvSet) : AdvSet :=
  { s with pendingStartStopNum := (s.pendingStartStopNum + (2 ^ 8 - 1)) % 2 ^ 8 }

def actionStart (s : AdvSet) (accepted : Bool) : AdvSet :=
  if accepted then
    { s with pendingAction := .start }
  else
    { s with enabled := false }

def actionStop (s : AdvSet) (cause : Nat) (accepted : Bool) : AdvSet :=
  let s := { s with appCause := cause }
  if accepted then { s with pendingAction := .stop } else s

def actionUpdate (s : AdvSet) (updateFlags : Nat) (accepted : Bool) : AdvSet :=
  let updateFlags :=
    if s.advParamSet then updateFlags else updateFlags ||| s.initFlags ||| extAdvSetAdvParas
  if accepted then
    let s := { s with pendingAction := .update }
    if updateFlags &&& extAdvSetAdvParas ≠ 0 then
      { s with advParamSet := true, initFlags := 0 }
    else
      s
  else
    s

def checkState (s : AdvSet) (cause : Nat) (stateChange : Bool) : AdvSet :=
  let s := if stateChange then { s with pendingCause := cause } else s
  let cause := s.pendingCause
  if s.pendingStartStopNum = 0 then
    if s.extAdvState = .idle then
      if cause = cancelledByHost then
        if s.appCause ≠ appStopForUpdate then { s with enabled := false } else s
      -- a timeout, a connection and every other cause differ in what the application is told
      else
        { s with enabled := false }
    else
      s
  else if s.extAdvState = .idle ∧ cause = 0 then
    { s with enabled := false }
  else
    s

/--
What `ble_ext_adv_mgr_check_next_step` does with one message of the queue. The answer tells whether
it stops there.
-/
def perform (s : AdvSet) (action : Action) (param : Nat) (accepted : Bool) : AdvSet × Bool :=
  match action with
  | .start =>
    let s := s.decNum
    if s.extAdvState = .idle then
      let s := s.actionStart accepted
      if s.pendingStartStopNum = 0 ∧ accepted = false then
        (s.checkState 0 false, accepted)
      else
        (s, accepted)
    else
      (s, false)
  | .stop =>
    let s := s.decNum
    if s.extAdvState = .advertising then
      let s := s.actionStop param accepted
      if s.pendingStartStopNum = 0 ∧ accepted = false then
        (s.checkState 0 false, accepted)
      else
        (s, accepted)
    else
      (s, false)
  | .update => (s.actionUpdate param accepted, accepted)

def tell (s : AdvSet) (enabled : Bool) : AdvSet := { s with enabled }

def tellEnabled (s : AdvSet) (duration : Nat) : AdvSet := { s with duration, enabled := true }

def complete (s : AdvSet) (action : PendingAction) : AdvSet :=
  if s.pendingAction = action then { s with pendingAction := .idle } else s

end AdvSet

structure World where
  handleNumMax : Nat
  sets : List AdvSet
  queue : List Event

def World.start (handleNumMax : Nat) : World := ⟨handleNumMax, [], []⟩

structure Answers where
  ready : Bool
  update : Bool
  start : Bool
  stop : Bool
  sendUpdate : Bool
  sendStart : Bool
  sendStop : Bool

namespace World

def set? (w : World) (advHandle : Nat) : Option AdvSet := w.sets.find? (·.advHandle == advHandle)

def update (w : World) (advHandle : Nat) (f : AdvSet → AdvSet) : World :=
  { w with sets := First.modify (·.advHandle == advHandle) f w.sets }

def findPending (w : World) : Bool := w.sets.any (·.pendingAction != .idle)

def initAdvParams (w : World) (advHandle initFlags : Nat) : World :=
  if advHandle ≠ appIdleAdvSet ∧ w.sets.length < w.handleNumMax then
    { w with sets := w.sets ++ [{ AdvSet.default with advHandle, initFlags }] }
  else
    w

def sends (w : World) (sent : Bool) : Bool :=
  sent && decide (w.queue.length < maxNumOfExtendAdvEvent)

def sendMsg (w : World) (advHandle : Nat) (action : Action) (param : Nat) (sent : Bool) :
    World × Bool :=
  if w.sends sent then
    let w := { w with queue := w.queue ++ [⟨advHandle, action, param⟩] }
    if action = .start ∨ action = .stop then
      (w.update advHandle AdvSet.incNum, true)
    else
      (w, true)
  else
    (w, false)

def startSetAdvParam (w : World) (advHandle updateFlags : Nat) (a : Answers) : World × Bool :=
  if a.ready then
    if w.findPending then
      w.sendMsg advHandle .update updateFlags a.sendUpdate
    else
      (w.update advHandle (·.actionUpdate updateFlags a.update), a.update)
  else
    (w, false)

def requestStart (w : World) (advHandle duration : Nat) (a : Answers) : World × Bool :=
  if w.findPending then
    w.sendMsg advHandle .start duration a.sendStart
  else
    (w.update advHandle (·.actionStart a.start), a.start)

def enable (w : World) (advHandle duration : Nat) (a : Answers) : World :=
  match w.set? advHandle with
  | none => w
  | some s =>
    if s.enabled then
      w
    else
      let w := if s.advParamSet then w else (w.startSetAdvParam advHandle s.initFlags a).1
      let r := w.requestStart advHandle duration a
      if r.2 then
        r.1.update advHandle (·.tellEnabled duration)
      else
        r.1

def requestStop (w : World) (advHandle appCause : Nat) (a : Answers) : World × Bool :=
  if w.findPending then
    w.sendMsg advHandle .stop appCause a.sendStop
  else
    (w.update advHandle (·.actionStop appCause a.stop), a.stop)

def disable (w : World) (advHandle appCause : Nat) (a : Answers) : World :=
  match w.set? advHandle with
  | none => w
  | some s =>
    if s.enabled then
      let r := w.requestStop advHandle appCause a
      if r.2 ∧ appCause ≠ appStopForUpdate then
        r.1.update advHandle (·.tell false)
      else
        r.1
    else
      w

def prepareRestart (w : World) (advHandle updateFlags : Nat) (a : Answers) : World :=
  ((w.disable advHandle appStopForUpdate a).startSetAdvParam advHandle updateFlags a).1

def setOrRestart (w : World) (s : AdvSet) (updateFlags : Nat) (a : Answers) : World × Bool :=
  if s.enabled then
    (w.prepareRestart s.advHandle updateFlags a).sendMsg s.advHandle .start s.duration a.sendStart
  else
    w.startSetAdvParam s.advHandle updateFlags a

def setAdvParam (w : World) (advHandle : Nat) (a : Answers) : World :=
  match w.set? advHandle with
  | none => w
  | some s => (w.setOrRestart s extAdvSetAdvParas a).1

def setRandom (w : World) (advHandle : Nat) (a : Answers) : World :=
  match w.set? advHandle with
  | none => w
  | some s => (w.setOrRestart s extAdvSetRandomAddr a).1

def setMultiParam (w : World) (advHandle flags : Nat) (a : Answers) : World :=
  match w.set? advHandle with
  | none => w
  | some s =>
    let setFlag := s.initFlags ||| flags
    if setFlag = 0 then
      w
    else
      let r :=
        if setFlag &&& (extAdvSetRandomAddr ||| extAdvSetAdvParas) ≠ 0 then
          w.setOrRestart s setFlag a
        else
          w.startSetAdvParam advHandle setFlag a
      if r.2 ∧ setFlag &&& extAdvSetAdvParas ≠ 0 then
        r.1.update advHandle fun s => { s with advParamSet := true }
      else
        r.1

def setData (w : World) (advHandle flag : Nat) (a : Answers) : World :=
  match w.set? advHandle with
  | none => w
  | some _ => (w.startSetAdvParam advHandle flag a).1

def setAdvData (w : World) (advHandle : Nat) (a : Answers) : World :=
  w.setData advHandle extAdvSetAdvData a

def setScanResponseData (w : World) (advHandle : Nat) (a : Answers) : World :=
  w.setData advHandle extAdvSetScanRspData a

/--
The loop of `ble_ext_adv_mgr_check_next_step`; `answers` are those of the stack to the requests the
messages lead to.
-/
def nextStep (w : World) : List Event → List Bool → World
  | [], _ => { w with queue := [] }
  | e :: queue, answers =>
    let w := { w with queue }
    match w.set? e.advHandle with
    | none => nextStep w queue answers
    | some s =>
      let accepted := answers.headD true
      let w := w.update e.advHandle fun s => (s.perform e.expectedAction e.param accepted).1
      if (s.perform e.expectedAction e.param accepted).2 then
        w
      else
        nextStep w queue answers.tail

def checkNextStep (w : World) (answers : List Bool) : World := w.nextStep w.queue answers

def handleAdvState (w : World) (advHandle : Nat) (newState : ExtAdvState) (cause : Nat)
    (answers : List Bool) : World :=
  match w.set? advHandle with
  | none => w
  | some s =>
    let w := w.update advHandle fun s =>
      AdvSet.checkState { s with extAdvState := newState } cause true
    if s.extAdvState = .start then
      (w.update advHandle (·.complete .start)).checkNextStep answers
    else if s.extAdvState = .stop then
      (w.update advHandle (·.complete .stop)).checkNextStep answers
    else
      w

def handleSettingRsp (w : World) (advHandle : Nat) (answers : List Bool) : World :=
  (w.update advHandle (·.complete .update)).checkNextStep answers

def resend (advHandle : Nat) : List Event → List Bool → List Event
  | [], _ => []
  | e :: queue, answers =>
    if e.advHandle = advHandle then
      resend advHandle queue answers
    else if answers.headD true then
      e :: resend advHandle queue answers.tail
    else
      resend advHandle queue answers.tail

def handleConnected (w : World) (advHandle : Nat) (answers : List Bool) : World :=
  match w.set? advHandle with
  | none => w
  | some _ => { w with queue := resend advHandle w.queue answers }

end World

end ExtAdv
