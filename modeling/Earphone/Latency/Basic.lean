import Mathlib.Algebra.GroupWithZero.Nat
import Mathlib.Tactic.Common

/-!
This module contains the dynamic latency of one playback buffer.
-/

namespace Latency

def u8 (n : Nat) : Nat := n % 2 ^ 8

def u16 (n : Nat) : Nat := n % 2 ^ 16

def u32 (n : Nat) : Nat := n % 2 ^ 32

def sub16 (a b : Nat) : Nat := u16 (a + 2 ^ 16 - b)

structure SysTimer where
  timerId : Nat
  timeoutUs : Nat
  pending : Bool
  deriving DecidableEq

def sysTimerCreate (created : Bool) (timerId timeoutUs : Nat) : Option SysTimer :=
  if created then some { timerId, timeoutUs, pending := false } else none

def sysTimerStart (timer : Option SysTimer) : Option SysTimer :=
  timer.map fun t => { t with pending := true }

def sysTimerStop (timer : Option SysTimer) : Option SysTimer :=
  timer.map fun t => { t with pending := false }

def sysTimerRestart (timeoutUs : Nat) (timer : Option SysTimer) : Option SysTimer :=
  timer.map fun t => { t with timeoutUs := timeoutUs, pending := true }

inductive StreamMode where
  | normal
  | lowLatency
  | highStability
  | direct
  | ultraLowLatency
  deriving DecidableEq

structure BufferEnt where
  mode : StreamMode
  playing : Bool
  latency : Nat
  latencyBackUp : Nat
  latencyFixed : Bool
  latencyOverride : Nat
  plcCount : Nat
  maxLatencyPlcCount : Nat
  sbc : Bool
  frameDurationUs : Nat

structure BufferDb where
  ent : BufferEnt
  checkTimer : Option SysTimer
  decCheckTimer : Option SysTimer
  resumeTimer : Option SysTimer
  lastLatencyReport : Nat
  id : Nat
  plcWhenIntervalStable : Nat
  ultraLowPlcCnt : Nat
  dynamicLatencyOn : Bool

inductive Evt where
  | latIncreased
  | latDecreased (plcCount : Nat)
  | lowLatIncreaseReq (frameNum : Nat)
  | lowLatDecreaseReq (plcCount : Nat)
  | maxLatPlc (frameNum : Nat)
  | plcFix (frameNum : Nat)
  | ultraLowLatPlcReq

inductive TimerKind where
  | decCheck
  | latResume
  | check

def TimerKind.code : TimerKind → Nat
  | .decCheck => 0
  | .latResume => 1
  | .check => 2

def timerIdOf (kind : TimerKind) (id : Nat) : Nat := kind.code * 2 ^ 16 + id

def dynamicCheckTime : Nat := 300000

def dynamicDecCheckTime : Nat := 300000000

def dynamicDecCheckTime2 : Nat := 300000000

def maxUltraLowPlcLatency : Nat := 80000

def framesDuration (ent : BufferEnt) (frameNum : Nat) : Nat :=
  u16 (u32 (ent.frameDurationUs * frameNum) / 1000)

def register (ent : BufferEnt) (id : Nat) : BufferDb where
  ent := ent
  checkTimer := none
  decCheckTimer := none
  resumeTimer := none
  lastLatencyReport := 0
  id := id
  plcWhenIntervalStable := 0
  ultraLowPlcCnt := 0
  dynamicLatencyOn := false

def reset (db : BufferDb) : BufferDb :=
  { db with checkTimer := none, decCheckTimer := none, resumeTimer := none }

def restore (ent : BufferEnt) : BufferEnt := { ent with latency := ent.latencyBackUp }

def bufferResetEnt (on : Bool) (ent : BufferEnt) : BufferEnt :=
  if ent.mode = .lowLatency ∨ ent.mode = .ultraLowLatency then
    if on then ent else { restore ent with plcCount := 0 }
  else
    ent

def bufferReset (db : BufferDb) : BufferDb :=
  let low := db.ent.mode = .lowLatency ∨ db.ent.mode = .ultraLowLatency
  { db with
    ent := bufferResetEnt db.dynamicLatencyOn db.ent
    ultraLowPlcCnt := if low then 0 else db.ultraLowPlcCnt
    plcWhenIntervalStable := if db.checkTimer.isSome then 0 else db.plcWhenIntervalStable
    checkTimer := none
    lastLatencyReport := 0 }

def decreaseStep (ent : BufferEnt) : Nat := if ent.sbc then 5 else 1

def timeoutAction (kind : TimerKind) (db : BufferDb) : BufferDb × List Evt :=
  match kind with
  | .latResume =>
    ({ db with resumeTimer := none, dynamicLatencyOn := false, ent := restore db.ent }, [])
  | .check => ({ db with checkTimer := none, plcWhenIntervalStable := 0 }, [])
  | .decCheck =>
    ({ db with decCheckTimer := none },
      if db.dynamicLatencyOn then [.lowLatDecreaseReq (decreaseStep db.ent)] else [])

def handleIntervalUnstableEvt (db : BufferDb) : BufferDb := { db with decCheckTimer := none }

def handleIntervalStableEvt (db : BufferDb) : BufferDb × List Evt :=
  if db.decCheckTimer = none ∧ db.dynamicLatencyOn then
    (db, [.lowLatDecreaseReq (decreaseStep db.ent)])
  else
    (db, [])

def resume (db : BufferDb) : BufferDb :=
  { db with dynamicLatencyOn := false, ent := restore db.ent, resumeTimer := none }

def dynamicSet (created : Bool) (latency : Nat) (autoResume : Bool) (db : BufferDb) : BufferDb :=
  let set := { db with dynamicLatencyOn := true, ent := { db.ent with latency := latency } }
  if autoResume then
    match db.resumeTimer with
    | none =>
      { set with
        resumeTimer := sysTimerStart
          (sysTimerCreate created (timerIdOf .latResume db.id) dynamicDecCheckTime2) }
    | some timer => { set with resumeTimer := sysTimerStart (some timer) }
  else
    set

def takeBack (plcCount : Nat) (ent : BufferEnt) : BufferEnt :=
  let left := ent.plcCount - plcCount
  if left = 0 then
    { restore ent with plcCount := 0 }
  else
    { ent with latency := sub16 ent.latency (framesDuration ent plcCount), plcCount := left }

def startDecCheck (created : Bool) (timeoutUs : Nat) (db : BufferDb) : BufferDb :=
  match db.decCheckTimer with
  | none =>
    { db with
      decCheckTimer := sysTimerStart
        (sysTimerCreate created (timerIdOf .decCheck db.id) timeoutUs) }
  | some _ => db

def lowLatDynamicDecrease (created : Bool) (plcCount : Nat) (db : BufferDb) : BufferDb × List Evt :=
  if db.ent.plcCount = 0 ∨ db.dynamicLatencyOn = false then
    (db, [])
  else
    let taken := min db.ent.plcCount plcCount
    let ent := takeBack taken db.ent
    let db := { db with ent := ent, dynamicLatencyOn := decide (ent.plcCount ≠ 0) }
    let db := if ent.plcCount ≠ 0 then startDecCheck created dynamicDecCheckTime db else db
    (db, [.latDecreased taken])

def add (on : Bool) (plcCount : Nat) (ent : BufferEnt) : BufferEnt :=
  { ent with
    plcCount := if on then u16 (ent.plcCount + plcCount) else plcCount
    latency := u16 (ent.latency + framesDuration ent plcCount) }

def lowLatDynamicIncrease (created : Bool) (plcCount : Nat) (autoDec : Bool) (db : BufferDb) :
    BufferDb × List Evt :=
  let db :=
    if autoDec then startDecCheck created (dynamicDecCheckTime * 2) db
    else { db with decCheckTimer := none }
  ({ db with ent := add db.dynamicLatencyOn plcCount db.ent, dynamicLatencyOn := true },
    [.latIncreased])

structure Env where
  secondary : Bool
  stable : Option Bool
  backup : Option Nat
  created : Bool

def countStable (db : BufferDb) : Bool × BufferDb :=
  let count := u8 (db.plcWhenIntervalStable + 1)
  if 2 < count then
    (true, { db with checkTimer := none, plcWhenIntervalStable := 0 })
  else
    (false, { db with checkTimer := sysTimerStart db.checkTimer, plcWhenIntervalStable := count })

def startCheck (created : Bool) (db : BufferDb) : BufferDb :=
  { db with
    checkTimer := sysTimerStart (sysTimerCreate created (timerIdOf .check db.id) dynamicCheckTime)
    plcWhenIntervalStable := if created then 0 else db.plcWhenIntervalStable }

def adjustCheck (env : Env) (db : BufferDb) : Bool × BufferDb :=
  if db.ent.playing = false ∨ db.ent.latencyFixed then
    (false, db)
  else if db.checkTimer.isSome then
    if env.secondary then
      countStable db
    else
      match env.stable with
      | none => (false, db)
      | some false => (true, { db with checkTimer := none, plcWhenIntervalStable := 0 })
      | some true => countStable db
  else
    (false, startCheck env.created db)

def increaseReq (plcCount frameNum : Nat) (ent : BufferEnt) : Evt :=
  if ent.maxLatencyPlcCount < plcCount then .maxLatPlc frameNum else .lowLatIncreaseReq frameNum

def secondaryPlc (env : Env) (frameNum : Nat) (db : BufferDb) : BufferDb × List Evt :=
  let (adjust, db) := adjustCheck env db
  (db, if adjust && decide (db.ent.plcCount ≤ db.ent.maxLatencyPlcCount) then
    [.lowLatIncreaseReq frameNum] else [])

def plcNext (env : Env) (frameNum : Nat) (db : BufferDb) : BufferDb × List Evt :=
  if db.ent.latencyFixed then
    if db.ent.mode = .ultraLowLatency then
      if env.secondary = false ∧ maxUltraLowPlcLatency ≤ db.lastLatencyReport then
        (db, [.plcFix frameNum])
      else
        (db, [])
    else
      (db, [.plcFix frameNum])
  else if env.secondary then
    secondaryPlc env frameNum db
  else
    let (adjust, db) := adjustCheck env db
    if adjust then
      ({ db with checkTimer := none }, [increaseReq db.ent.plcCount frameNum db.ent])
    else
      (db, [.plcFix frameNum])

def plcOther (env : Env) (frameNum : Nat) (db : BufferDb) : BufferDb × List Evt :=
  if db.ent.latencyFixed then
    if db.ent.mode = .ultraLowLatency ∧ db.lastLatencyReport ≠ 0 ∧
        db.lastLatencyReport < maxUltraLowPlcLatency then
      (db, [.ultraLowLatPlcReq])
    else
      (db, [])
  else if env.secondary then
    secondaryPlc env frameNum db
  else
    ({ db with checkTimer := none, plcWhenIntervalStable := 0 },
      if db.ent.maxLatencyPlcCount < db.ent.plcCount then [.maxLatPlc frameNum]
      else (env.backup.map Evt.lowLatIncreaseReq).toList)

def handlePlcEvent (env : Env) (localSeq plcLocalSeq frameNum : Nat) (db : BufferDb) :
    BufferDb × List Evt :=
  let db := { db with decCheckTimer := sysTimerStart db.decCheckTimer }
  if u16 (localSeq + 1) = plcLocalSeq then
    plcNext env frameNum db
  else
    plcOther env frameNum db

def ultraLowLatencyPlcReq (frameNum : Nat) (db : BufferDb) : BufferDb :=
  { db with ultraLowPlcCnt := u8 (db.ultraLowPlcCnt + frameNum) }

def recordUpdate (latencyReport : Nat) (db : BufferDb) : BufferDb :=
  { db with lastLatencyReport := latencyReport }

def setDynamicLatencyOn (on : Bool) (db : BufferDb) : BufferDb := { db with dynamicLatencyOn := on }

end Latency
