import Mathlib.Algebra.GroupWithZero.Nat
import Mathlib.Data.List.Basic

/-!
This module contains the queue of a data transfer.
-/

namespace DataTransfer

structure Packet where
  push : Nat
  data : List UInt8

inductive Mode where
  | needAck
  | noNeedAck
  | noCond
  deriving DecidableEq

inductive State where
  | idle
  | next
  | waitAck
  | retry
  | waitReady
  deriving DecidableEq

def dtOk : UInt8 := 0

def dtRetryResendNum : Nat := 20

def dtWaitAckResendNum : Nat := 5

structure Data where
  used : Bool
  pkt : Option Packet
  pktLen : Nat
  idx : UInt8
  mode : Mode

def Data.zero : Data where
  used := false
  pkt := none
  pktLen := 0
  idx := 0
  mode := .needAck

inductive Cause where
  | sent
  | acked
  | exhausted
  | reset

structure Db where
  queueData : List Data
  wIdx : Nat
  rIdx : Nat
  resend : Nat
  state : State
  hold : Bool
  noAck : Bool
  offset : Nat
  timer : Bool
  pushed : Nat
  sent : List (Nat × Bool)
  freed : List (Nat × Cause)

namespace Db

variable (s : Db)

def queueNum : Nat := s.queueData.length

def data (idx : Nat) : Data := s.queueData.getD idx .zero

def setData (idx : Nat) (d : Data) : Db := { s with queueData := s.queueData.set idx d }

def succIdx (idx : Nat) : Nat :=
  if idx + 1 ≥ s.queueNum then 0 else idx + 1

def free (pkt : Option Packet) (cause : Cause) : Db :=
  { s with freed := s.freed ++ pkt.toList.map fun p => (p.push, cause) }

def dropDataQueue (cause : Cause) : Db :=
  let d := s.data s.rIdx
  let s :=
    if d.used then
      let s := (s.free d.pkt cause).setData s.rIdx .zero
      { s with rIdx := s.succIdx s.rIdx }
    else
      s
  { s with resend := 0, state := .idle }

def getNextState (result : UInt8) (mode : Mode) : State :=
  if mode = .noCond then .next
  else if result ≠ dtOk then .retry
  else
    match mode with
    | .needAck => .waitAck
    | .noNeedAck => .next
    | .noCond => .next

def popDataQueue (send : Nat → UInt8) : Nat → Db → Option Db
  | 0, _ => none
  | fuel + 1, s =>
    let d := s.data s.rIdx
    -- the hold is looked at first, and no timer is started for it
    if s.hold then some { s with state := .waitReady }
    else if s.state ≠ .idle then some s
    -- the indices of a full queue are equal, too
    else if s.wIdx = s.rIdx then some { s with state := .idle }
    else if d.used = false then some { s with state := .idle }
    else
      let state : State := getNextState (send s.sent.length) d.mode
      let s : Db :=
        { s with
          state
          sent := s.sent ++ d.pkt.toList.map fun p => (p.push, state != .retry) }
      if state = .next then
        popDataQueue send fuel (s.dropDataQueue .sent)
      else
        some { s with timer := true }

def pop (send : Nat → UInt8) : Option Db := popDataQueue send (s.queueNum + 1) s

def switchNext (send : Nat → UInt8) (cause : Cause) : Option Db := (s.dropDataQueue cause).pop send

def eventIdOf (p : Packet) (isBigEnd : Bool) : Nat :=
  let b₀ := (p.data.getD s.offset 0).toNat
  let b₁ := (p.data.getD (s.offset + 1) 0).toNat
  if isBigEnd then b₁ ||| b₀ <<< 8 else b₀ ||| b₁ <<< 8

def switchCheck (send : Nat → UInt8) (eventId : UInt16) (isBigEnd : Bool) : Option Db :=
  match (s.data s.rIdx).pkt with
  | none => some s
  | some p =>
    if s.eventIdOf p isBigEnd ≠ eventId.toNat then some s
    else if s.state ≠ .waitAck then some s
    else { s with timer := false }.switchNext send .acked

def queueReset : Db :=
  { s with
    timer := false
    freed := s.freed ++ (s.queueData.filter (·.used)).flatMap fun d =>
      d.pkt.toList.map fun p => (p.push, Cause.reset)
    queueData := s.queueData.map fun d =>
      if d.used then { d with used := false, pkt := none } else d
    wIdx := 0
    rIdx := 0
    resend := 0
    state := .idle }

def cfgHoldFlag (hold : Bool) : Db := { s with hold }

def put (w : Nat) (d : Data) : Db :=
  { s.setData w d with
    pushed := s.pushed + 1
    wIdx := (s.setData w d).succIdx s.wIdx }

def pushDataQueue (send : Nat → UInt8) (idx : UInt8) (data : List UInt8) (len : Nat) (mode : Mode) :
    Option Db :=
  let d : Data := { used := true, pkt := some { push := s.pushed, data }, pktLen := len, idx, mode }
  -- the slot was chosen before the reset moves the indices
  if (s.data s.wIdx).used then
    (s.queueReset.put s.wIdx d).pop send
  else
    (s.put s.wIdx d).pop send

def dataTransferResend (send : Nat → UInt8) (resendNum : Nat) : Option Db :=
  -- with a `no_ack` callback the first expiry is the last one
  let resend := if s.noAck then resendNum else s.resend
  let s := { s with resend := (resend + 1) % 2 ^ 8 }
  if s.resend ≥ resendNum then
    { s.dropDataQueue .exhausted with state := .idle }.pop send
  else
    { s with state := .idle }.pop send

def handleTimeout (send : Nat → UInt8) : Option Db :=
  let s := { s with timer := false }
  match s.state with
  | .next => s.switchNext send .sent
  | .waitAck => s.dataTransferResend send dtWaitAckResendNum
  | .retry => s.dataTransferResend send dtRetryResendNum
  | .waitReady => { s with state := .idle }.pop send
  | .idle => some s

end Db

def create (queueNum offset : Nat) (hold noAck : Bool) : Db where
  queueData := List.replicate queueNum .zero
  wIdx := 0
  rIdx := 0
  resend := 0
  state := .idle
  hold := hold
  noAck := noAck
  offset := offset
  timer := false
  pushed := 0
  sent := []
  freed := []

inductive Op where
  | push (idx : UInt8) (data : List UInt8) (len : Nat) (mode : Mode)
  | ack (eventId : UInt16) (isBigEnd : Bool)
  | timeout
  | reset
  | hold (hold : Bool)

def step (send : Nat → UInt8) (s : Db) : Op → Option Db
  | .push idx data len mode => s.pushDataQueue send idx data len mode
  | .ack eventId isBigEnd => s.switchCheck send eventId isBigEnd
  | .timeout => if s.timer then s.handleTimeout send else some s
  | .reset => some s.queueReset
  | .hold hold => some (s.cfgHoldFlag hold)

end DataTransfer
