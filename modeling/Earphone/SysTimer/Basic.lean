import Earphone.Lib.DeltaList
import Earphone.Lib.Run

/-!
This module contains the high precision system timers.
-/

namespace SysTimer

abbrev Handle := Nat

def u32 (n : Nat) : Nat := n % 2 ^ 32

structure Timer where
  timeoutInterval : Nat
  reload : Bool
  cback : Bool
  deriving DecidableEq

inductive HwTimer where
  | stopped
  | started (at_ period : Nat)

structure Fire where
  handle : Handle
  since : Option Nat
  timeoutInterval : Nat
  time : Nat

structure State where
  timers : Handle → Option Timer
  hpTimerList : DeltaList Handle
  timeoutInterval : Nat
  hpTimeoutTime : Nat
  hw : HwTimer
  msgQueue : Nat
  now : Nat
  startedAt : Handle → Option Nat
  listedAt : Nat
  hpTimeoutAt : Nat
  dueFor : Option Handle
  fired : List Fire

def initial : State where
  timers := fun _ => none
  hpTimerList := []
  timeoutInterval := 0
  hpTimeoutTime := 0
  hw := .stopped
  msgQueue := 0
  now := 0
  startedAt := fun _ => none
  listedAt := 0
  hpTimeoutAt := 0
  dueFor := none
  fired := []

def hwTimerRestart (s : State) (period : Nat) : State :=
  { s with hw := .started s.now (max period 5) }

def hwTimerStop (s : State) : State := { s with hw := .stopped }

def hwTimerGetElapsedTime (s : State) : Nat :=
  match s.hw with
  | .stopped => 0
  | .started at_ period => if s.now < at_ + period then s.now - at_ else 0

def hwTimerIsActive (s : State) : Bool :=
  match s.hw with
  | .stopped => false
  | .started at_ period => decide (s.now < at_ + period)

def osHpTimeGet (s : State) : Nat := u32 s.now

def sysHwTimerHandler (posted : Bool) (s : State) : State :=
  match s.hw with
  | .stopped => s
  | .started at_ period =>
    if at_ + period ≤ s.now then
      { s with
        hw := .stopped
        msgQueue := if posted then s.msgQueue + 1 else s.msgQueue
        hpTimeoutTime := osHpTimeGet s
        hpTimeoutAt := s.now
        dueFor := s.hpTimerList.head?.map Prod.fst }
    else
      s

def sysHpTimerElapsedTimeUpdate (s : State) : State :=
  let timeoutElapsed := hwTimerGetElapsedTime s
  if timeoutElapsed = 0 then
    let timeoutElapsed := u32 (s.timeoutInterval + osHpTimeGet s + (2 ^ 32 - s.hpTimeoutTime))
    { s with
      hpTimerList := s.hpTimerList.charge timeoutElapsed
      listedAt := s.now }
  else
    { s with
      hpTimeoutTime := osHpTimeGet s
      timeoutInterval := 0
      hpTimerList := s.hpTimerList.charge timeoutElapsed
      hpTimeoutAt := s.now
      listedAt := s.now }

def restartHead (s : State) : State :=
  match s.hpTimerList with
  | [] => s
  | (_, timeoutLeft) :: _ => hwTimerRestart { s with timeoutInterval := timeoutLeft } timeoutLeft

def sysHpTimerListInsert (h : Handle) (t : Timer) (s : State) : State :=
  if s.hpTimerList = [] then
    hwTimerRestart
      { s with
        hpTimerList := [(h, t.timeoutInterval)]
        timeoutInterval := t.timeoutInterval
        startedAt := Function.update s.startedAt h (some s.now)
        listedAt := s.now }
      t.timeoutInterval
  else
    let s := sysHpTimerElapsedTimeUpdate s
    let timerActive := hwTimerIsActive s
    let s := hwTimerStop s
    let s :=
      { s with
        hpTimerList := s.hpTimerList.insert h t.timeoutInterval
        startedAt := Function.update s.startedAt h (some s.now) }
    if timerActive then restartHead s else s

def listDelete (h : Handle) : DeltaList Handle → DeltaList Handle
  | [] => []
  | (j, m) :: xs =>
    if j = h then
      match xs with
      | [] => []
      | (i, n) :: ys => (i, u32 (n + m)) :: ys
    else
      (j, m) :: listDelete h xs

def sysHpTimerListRemove (h : Handle) (s : State) : State :=
  if h ∈ s.hpTimerList.keys then
    let s := sysHpTimerElapsedTimeUpdate s
    let timerActive := hwTimerIsActive s
    let s := hwTimerStop s
    let s :=
      { s with
        hpTimerList := listDelete h s.hpTimerList
        startedAt := Function.update s.startedAt h none
        dueFor := if s.dueFor = some h then none else s.dueFor }
    if timerActive then restartHead s else s
  else
    s

def elapse (us : Nat) (s : State) : State := { s with now := s.now + us }

def setTimer (h : Handle) (t : Option Timer) (s : State) : State :=
  { s with timers := Function.update s.timers h t }

def sysTimerCreate (h : Handle) (t : Timer) (s : State) : State :=
  match s.timers h with
  | none => setTimer h (some { t with timeoutInterval := u32 t.timeoutInterval }) s
  | some _ => s

def sysTimerStart (h : Handle) (gap : Nat) (s : State) : State :=
  match s.timers h with
  | none => s
  | some t => sysHpTimerListInsert h t (elapse gap (sysHpTimerListRemove h s))

def sysTimerRestart (h : Handle) (timeoutUs : Nat) (gap : Nat) (s : State) : State :=
  match s.timers h with
  | none => s
  | some t =>
    let t := { t with timeoutInterval := u32 timeoutUs }
    sysHpTimerListInsert h t (elapse gap (setTimer h (some t) (sysHpTimerListRemove h s)))

def sysTimerStop (h : Handle) (s : State) : State :=
  match s.timers h with
  | none => s
  | some _ => sysHpTimerListRemove h s

def sysTimerDelete (h : Handle) (s : State) : State :=
  match s.timers h with
  | none => s
  | some _ => setTimer h none (sysHpTimerListRemove h s)

inductive Call where
  | elapse (us : Nat)
  | interrupt (posted : Bool)
  | create (h : Handle) (t : Timer)
  | start (h : Handle) (gap : Nat)
  | restart (h : Handle) (timeoutUs gap : Nat)
  | stop (h : Handle)
  | delete (h : Handle)

def Call.step (s : State) : Call → State
  | .elapse us => SysTimer.elapse us s
  | .interrupt posted => sysHwTimerHandler posted s
  | .create h t => sysTimerCreate h t s
  | .start h gap => sysTimerStart h gap s
  | .restart h timeoutUs gap => sysTimerRestart h timeoutUs gap s
  | .stop h => sysTimerStop h s
  | .delete h => sysTimerDelete h s

def expireOut (h : Handle) (timeoutLeft : Nat) (rest : DeltaList Handle) (s : State) : State :=
  { hwTimerStop s with
    timeoutInterval := 0
    hpTimerList := rest
    startedAt := Function.update s.startedAt h none
    listedAt := s.listedAt + timeoutLeft
    dueFor := none }

def expireReload (h : Handle) (t : Timer) (s : State) : State :=
  if t.reload then sysHpTimerListInsert h t s else s

def expireRearm (s : State) : State :=
  if hwTimerIsActive s = false ∧ s.hpTimerList ≠ [] then
    restartHead (sysHpTimerElapsedTimeUpdate s)
  else
    s

def recordFire (h : Handle) (t : Timer) (since : Option Nat) (s : State) : State :=
  { s with fired := s.fired ++ [⟨h, since, t.timeoutInterval, s.now⟩] }

def invoke (h : Handle) (t : Timer) (since : Option Nat) (body : List Call) (s : State) : State :=
  Run.exec Call.step (recordFire h t since s) body

def sysHpTimerExpire (body : List Call) (s : State) : State :=
  match s.hpTimerList with
  | [] => { hwTimerStop s with timeoutInterval := 0 }
  | (h, timeoutLeft) :: rest =>
    let out := expireOut h timeoutLeft rest s
    match s.timers h with
    | none => expireRearm out
    | some t =>
      if t.cback then
        expireRearm (invoke h t (s.startedAt h) body (expireReload h t out))
      else
        expireRearm out

inductive Event where
  | call (c : Call)
  | sysMsgHandler (body : List Call)

def Event.step (s : State) : Event → State
  | .call c => c.step s
  | .sysMsgHandler body =>
    if s.msgQueue = 0 then
      s
    else
      sysHpTimerExpire body { s with msgQueue := s.msgQueue - 1 }

def Fire.OnTime (f : Fire) : Prop :=
  ∃ since, f.since = some since ∧ since + f.timeoutInterval ≤ f.time

instance (f : Fire) : Decidable f.OnTime :=
  match h : f.since with
  | none => .isFalse (by simp [Fire.OnTime, h])
  | some since => decidable_of_iff (since + f.timeoutInterval ≤ f.time) (by simp [Fire.OnTime, h])

def NeverEarly (s : State) : Prop := ∀ f ∈ s.fired, f.OnTime
  deriving Decidable

end SysTimer
