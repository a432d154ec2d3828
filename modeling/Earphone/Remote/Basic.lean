import Mathlib.Algebra.GroupWithZero.Nat
import Mathlib.Logic.Function.Basic

/-!
This module contains the relay of messages between the two buds.
-/

namespace Remote

def u8 (n : Nat) : Nat := n % 2 ^ 8

def u16 (n : Nat) : Nat := n % 2 ^ 16

def u32 (n : Nat) : Nat := n % 2 ^ 32

inductive RelayType where
  | async
  | asyncLoopback
  | sync
  | syncLoopback
  deriving DecidableEq

inductive TimerType where
  | default
  | lowPrecision
  | highPrecision
  deriving DecidableEq

inductive ClkRef where
  | none
  | sniffing
  | ctrl
  deriving DecidableEq

inductive SessionMode where
  | active
  | sleepPending
  | sleep
  | activePending
  deriving DecidableEq

inductive RelayStatus where
  | asyncRcvd
  | asyncLoopback
  | asyncSentOut
  | asyncSentFailed
  | syncRcvd
  | syncLoopback
  | syncSentOut
  | syncSentFailed
  | syncTout
  | syncExpired
  | syncRefChanged

structure ClkRead where
  clkRef : ClkRef
  slot : Nat
  us : Nat

structure RelayMsg where
  id : Nat
  seq : Nat
  cid : Nat
  event : Nat
  param : List Nat
  relayType : RelayType
  timerType : TimerType
  clkRef : ClkRef
  timeDuration : Nat
  timeInfo : Nat

structure RemoteTimer where
  timerType : TimerType
  timerIndex : Nat
  event : Nat
  param : List Nat
  timeoutUs : Nat

structure Chann where
  handle : Nat
  channId : Nat
  timerIndex : Nat
  timerQueue : List RemoteTimer

structure Cback where
  cid : Nat
  event : Nat
  status : RelayStatus
  param : List Nat
  id : Nat

structure Db where
  connected : Bool
  txSeq : Nat
  rxSeq : Nat
  credits : Nat
  channId : Nat
  channList : List Chann
  relayQueue : List RelayMsg
  period : Nat
  retransTimer : Bool
  out : List RelayMsg
  cbacks : List Cback
  nextId : Nat
  accepted : List Nat

def remoteMsgCredits : Nat := 3

def remoteMsgQueueNum : Nat := 32

def remoteRelayPeriodMin : Nat := 30

def remoteRelayPeriodDefault : Nat := 60

def channFind (channId : Nat) (db : Db) : Option Chann := db.channList.find? (·.channId = channId)

def channCheck (handle : Nat) (db : Db) : Option Chann := db.channList.find? (·.handle = handle)

def setTimers (handle timerIndex : Nat) (timerQueue : List RemoteTimer) (db : Db) : Db :=
  { db with
    channList := db.channList.map fun c =>
      if c.handle = handle then { c with timerIndex := timerIndex, timerQueue := timerQueue } else c }

def cback (cid : Nat) (status : RelayStatus) (msg : RelayMsg) (db : Db) : Db :=
  { db with cbacks := db.cbacks ++ [⟨cid, msg.event, status, msg.param, msg.id⟩] }

def syncAhead (syncTimeSlot bbClockSlot : Nat) : Bool :=
  (syncTimeSlot > bbClockSlot && syncTimeSlot - bbClockSlot < 0x07ffffff) ||
    (syncTimeSlot ≤ bbClockSlot && bbClockSlot - syncTimeSlot > 0x07ffffff)

def slotDiff (a b : Nat) : Nat := u32 (u32 (a <<< 4) + (2 ^ 32 - u32 (b <<< 4))) >>> 4

def slotsToUs (slots : Nat) : Nat := u32 (slots * 625) >>> 1

def raiseTimeOffset (syncSlot : Nat) (clk : ClkRead) : Nat :=
  if clk.clkRef = .none then
    0
  else if syncAhead syncSlot clk.slot then
    let timeOffset := slotsToUs (slotDiff syncSlot clk.slot)
    if timeOffset < clk.us then 0 else timeOffset - clk.us
  else
    0

inductive SyncVerdict where
  | refChanged
  | expired
  | armed (timeOffset : Nat)
  deriving DecidableEq

def syncVerdict (msg : RelayMsg) (clk : ClkRead) : SyncVerdict :=
  if syncAhead msg.timeInfo clk.slot then
    let timeOffset := slotDiff msg.timeInfo clk.slot
    if timeOffset > msg.timeDuration then
      .expired
    else
      let timeOffset := slotsToUs timeOffset
      if timeOffset < clk.us then .expired else .armed (timeOffset - clk.us)
  else
    .expired

def dataIndSync (msg : RelayMsg) (clk ctrlClk : ClkRead) : SyncVerdict :=
  -- a message that refers to the sniffing may still be timed by the clock of the control link
  if clk.clkRef = .none || clk.clkRef ≠ msg.clkRef then
    if msg.clkRef = .sniffing && ctrlClk.clkRef ≠ .none &&
        u32 (u32 (msg.timeInfo <<< 4) + (2 ^ 32 - u32 (ctrlClk.slot <<< 4))) <
          msg.timeDuration <<< 4 then
      syncVerdict msg ctrlClk
    else
      .refChanged
  else
    syncVerdict msg clk

def syncMsgTime (timerPeriod : Nat) (clk : ClkRead) (msg : RelayMsg) : RelayMsg :=
  { msg with
    clkRef := clk.clkRef
    timeInfo := u32 (clk.slot + u32 (2 * timerPeriod * 1000) / 625) &&& 0x0FFFFFFF
    timeDuration := u16 (u32 (2 * timerPeriod * 1000) / 625) }

def stampTimeOffset (msg : RelayMsg) (clk : ClkRead) : Nat :=
  if msg.clkRef ≠ clk.clkRef then
    2 * remoteRelayPeriodMin * 1000 / 625
  else
    let timeOffset := slotDiff msg.timeInfo clk.slot
    if timeOffset < 2 * remoteRelayPeriodMin * 1000 / 625 || timeOffset > 0x7ffffff then
      2 * remoteRelayPeriodMin * 1000 / 625
    else if timeOffset > msg.timeDuration then
      msg.timeDuration
    else
      timeOffset

def stamp (msg : RelayMsg) (clk : ClkRead) : RelayMsg :=
  let timeOffset := stampTimeOffset msg clk
  { msg with
    clkRef := clk.clkRef
    timeInfo := u32 (clk.slot + timeOffset)
    timeDuration := u16 timeOffset }

structure TimerAlloc where
  item : Bool
  handle : Bool

structure Attempt where
  clk : ClkRead
  sent : Bool
  raiseClk : ClkRead
  raiseAlloc : TimerAlloc

structure Env where
  mode : Option SessionMode
  alloc : Bool
  clk : ClkRead
  attempts : List Attempt

def queueTimer (msg : RelayMsg) (timeOffset : Nat) (alloc : TimerAlloc) (chann : Chann) (db : Db) :
    Db :=
  if alloc.item then
    let timer : RemoteTimer :=
      { timerType := msg.timerType
        timerIndex := chann.timerIndex
        event := msg.event
        param := msg.param
        timeoutUs := timeOffset }
    -- the index is used up even if the system timer is not created
    let timerIndex := u8 (chann.timerIndex + 1)
    if msg.timerType = .default || !alloc.handle then
      setTimers chann.handle timerIndex chann.timerQueue db
    else
      setTimers chann.handle timerIndex (chann.timerQueue ++ [timer]) db
  else
    db

def remoteRaiseCmdTimer (msg : RelayMsg) (clk : ClkRead) (alloc : TimerAlloc) (chann : Chann)
    (db : Db) : Db :=
  queueTimer msg (raiseTimeOffset msg.timeInfo clk) alloc chann db

def sentOutStatus : RelayType → RelayStatus
  | .sync => .syncSentOut
  | _ => .asyncSentOut

def msgSentOut (msg : RelayMsg) (attempt : Attempt) (db : Db) : Db :=
  match channFind msg.cid db with
  | none => db
  | some chann =>
    let db :=
      if msg.relayType = .sync then
        remoteRaiseCmdTimer msg attempt.raiseClk attempt.raiseAlloc chann db
      else
        db
    cback chann.channId (sentOutStatus msg.relayType) msg db

def msgDequeueLoop (db : Db) : List RelayMsg → List Attempt → Db
  | [], _ => { db with relayQueue := [] }
  | msg :: queue, attempts =>
    if db.credits = 0 then
      { db with relayQueue := msg :: queue }
    else
      match attempts with
      | [] => { db with relayQueue := msg :: queue, retransTimer := true }
      | attempt :: attempts =>
        let msg := if msg.relayType = .sync then stamp msg attempt.clk else msg
        if attempt.sent then
          let db := { db with credits := db.credits - 1, out := db.out ++ [msg] }
          msgDequeueLoop (msgSentOut msg attempt db) queue attempts
        else
          { db with relayQueue := msg :: queue, retransTimer := true }

def remoteMsgDequeue (mode : Option SessionMode) (attempts : List Attempt) (db : Db) : Db :=
  if mode = some .active then
    msgDequeueLoop db db.relayQueue attempts
  else
    db

def remoteMsgSend (msg : RelayMsg) (env : Env) (db : Db) : Db × Bool :=
  if env.mode = none || !env.alloc || db.relayQueue.length ≥ remoteMsgQueueNum then
    (db, false)
  else
    let db :=
      { db with
        relayQueue := db.relayQueue ++ [{ msg with id := db.nextId }]
        nextId := db.nextId + 1
        accepted := db.accepted ++ [db.nextId] }
    (remoteMsgDequeue env.mode env.attempts db, true)

def nextTxSeq (db : Db) : Db := { db with txSeq := u8 (db.txSeq + 1) }

def remoteAsyncMsgRelay (handle event : Nat) (param : List Nat) (loopback : Bool) (env : Env)
    (db : Db) : Db × Bool :=
  if !db.connected then
    (db, false)
  else
    match channCheck handle db with
    | none => (db, false)
    | some chann =>
      let db := nextTxSeq db
      remoteMsgSend
        { id := 0
          seq := db.txSeq
          cid := chann.channId
          event := event
          param := param
          relayType := if loopback then .asyncLoopback else .async
          timerType := .default
          clkRef := .none
          timeDuration := 0
          timeInfo := 0 }
        env db

def remoteSyncMsgRelay (handle event : Nat) (param : List Nat) (timerType : TimerType)
    (timerPeriod : Nat) (loopback : Bool) (env : Env) (db : Db) : Db × Bool :=
  if !db.connected then
    (db, false)
  else
    match channCheck handle db with
    | none => (db, false)
    | some chann =>
      let timerPeriod := if timerPeriod = 0 then db.period else timerPeriod
      if !loopback && env.clk.clkRef = .none then
        (db, false)
      else
        let db := nextTxSeq db
        let msg : RelayMsg :=
          { id := 0
            seq := db.txSeq
            cid := chann.channId
            event := event
            param := param
            relayType := if loopback then .syncLoopback else .sync
            timerType := if timerType = .default then .lowPrecision else timerType
            clkRef := .none
            timeDuration := 0
            timeInfo := timerPeriod }
        remoteMsgSend (if loopback then msg else syncMsgTime timerPeriod env.clk msg) env db

structure IndEnv where
  clk : ClkRead
  ctrlClk : ClkRead
  alloc : TimerAlloc
  relay : Env

def dataIndChann (msg : RelayMsg) (chann : Chann) (env : IndEnv) (db : Db) : Db :=
  match msg.relayType with
  | .async => cback chann.channId .asyncRcvd msg db
  | .asyncLoopback =>
    let db := cback chann.channId .asyncLoopback msg db
    (remoteAsyncMsgRelay chann.handle msg.event msg.param false env.relay db).1
  | .sync =>
    let db := cback chann.channId .syncRcvd msg db
    match dataIndSync msg env.clk env.ctrlClk with
    | .refChanged => cback chann.channId .syncRefChanged msg db
    | .expired => cback chann.channId .syncExpired msg db
    | .armed timeOffset => queueTimer msg timeOffset env.alloc chann db
  | .syncLoopback =>
    let db := cback chann.channId .syncLoopback msg db
    (remoteSyncMsgRelay chann.handle msg.event msg.param msg.timerType msg.timeInfo false env.relay
      db).1

def remoteRelayDataInd (msg : RelayMsg) (env : IndEnv) (db : Db) : Db :=
  if msg.seq = db.rxSeq then
    db
  else
    let db := { db with rxSeq := msg.seq }
    match channFind msg.cid db with
    | none => db
    | some chann => dataIndChann msg chann env db

def remoteRelayDataRsp (mode : Option SessionMode) (attempts : List Attempt) (db : Db) : Db :=
  -- a response more than there were messages gives no further credit
  let db := if db.credits < remoteMsgCredits then { db with credits := db.credits + 1 } else db
  remoteMsgDequeue mode attempts db

def remoteRetransTimerCback (mode : Option SessionMode) (attempts : List Attempt) (db : Db) : Db :=
  let db := remoteMsgDequeue mode attempts { db with retransTimer := false }
  if db.relayQueue = [] then db else { db with retransTimer := true }

inductive PmEvent where
  | linkConnected
  | linkDisconnected
  | sniffEnterSuccess
  | sniffEnterFail
  | sniffEnterReq
  | sniffExitSuccess
  | sniffExitFail
  | sniffExitReq

def remoteBtPmCback (event : PmEvent) (mode : Option SessionMode) (attempts : List Attempt)
    (db : Db) : Db × Bool :=
  match event with
  | .sniffEnterFail | .sniffExitSuccess => (remoteMsgDequeue mode attempts db, true)
  | .sniffEnterReq => (db, db.relayQueue = [])
  | _ => (db, true)

def sentFailedStatus : RelayType → RelayStatus
  | .sync => .syncSentFailed
  | _ => .asyncSentFailed

def remoteMsgQueueClear (db : Db) : Db :=
  { db with
    relayQueue := []
    cbacks := db.cbacks ++ db.relayQueue.map fun msg =>
      ⟨msg.cid, msg.event, sentFailedStatus msg.relayType, msg.param, msg.id⟩ }

def ipcConnected (db : Db) : Db :=
  { db with connected := true, credits := remoteMsgCredits, accepted := [], cbacks := [] }

def ipcDisconnected (db : Db) : Db :=
  { remoteMsgQueueClear { db with connected := false } with txSeq := 0, rxSeq := 0 }

end Remote
