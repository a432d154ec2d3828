import Earphone.Lib.First
import Earphone.Lib.Run

/-!
This module contains the sending side of iAP2 in `bt_iap.c`.
-/

namespace Iap2

inductive SessionId where
  | ctrl
  | ea
  deriving DecidableEq

structure Elem where
  number : Nat
  sessionId : SessionId
  seq : Nat
  retransCnt : Nat
  timer : Bool
  deriving DecidableEq

inductive State where
  | iap2Sync
  | other
  deriving DecidableEq

structure Link where
  index : Nat
  state : State
  usedTxQ : List Elem
  sentTxQ : List Elem
  remainTxQNum : Nat
  accPktSeq : Nat
  ackedSeq : Nat
  devMaxRetrans : Nat

structure Param where
  txQElemNum : UInt8
  accStartSeq : UInt8
  accMaxRetrans : UInt8

structure Sys where
  link : Link
  nextNumber : Nat
  accepted : List Nat
  reports : List (Nat × Bool)
  dropped : List Nat
  resent : List (Nat × Nat)

def u8 (n : Nat) : Nat := n % 256

def btIap2SendData : Nat := 3

def timerId (seq index : Nat) : Nat := btIap2SendData * 65536 + seq * 256 + index

def eaNumbers (q : List Elem) : List Nat := (q.filter fun e => e.sessionId = .ea).map Elem.number

def txLoop : List Bool → List Elem → Link → Link
  | _, [], link => link
  | true :: attempts, e :: es, link =>
    txLoop attempts es { link with
      accPktSeq := u8 (link.accPktSeq + 1)
      usedTxQ := es
      sentTxQ := link.sentTxQ ++ [{ e with seq := u8 (link.accPktSeq + 1), timer := true }] }
  | _, e :: es, link =>
    { link with
      accPktSeq := u8 (u8 (link.accPktSeq + 1) + 255)
      usedTxQ := { e with seq := u8 (link.accPktSeq + 1) } :: es }

def btIap2TxData (attempts : List Bool) (s : Sys) : Sys :=
  { s with link := txLoop attempts s.link.usedTxQ s.link }

def release (success : Bool) (e : Elem) (s : Sys) : Sys :=
  { s with
    link := { s.link with remainTxQNum := u8 (s.link.remainTxQNum + 1) }
    reports := s.reports ++ (eaNumbers [e]).map (·, success) }

def setSent (sent : List Elem) (s : Sys) : Sys := { s with link := { s.link with sentTxQ := sent } }

def ackLoop : List Elem → Sys → Sys
  | [], s => setSent [] s
  | e :: es, s =>
    if e.seq = s.link.ackedSeq then release true e (setSent es s)
    else ackLoop es (release true e (setSent es s))

def btIap2UpdateAckedPkt (s : Sys) : Sys :=
  if s.link.sentTxQ.any fun e => e.seq = s.link.ackedSeq then ackLoop s.link.sentTxQ s else s

def btIap2HandleReset (param : Param) (s : Sys) : Sys :=
  if s.link.state = .iap2Sync then s
  else
    { s with
      link := { s.link with
        state := .iap2Sync, usedTxQ := [], sentTxQ := [], accPktSeq := param.accStartSeq.toNat,
        devMaxRetrans := param.accMaxRetrans.toNat }
      dropped := s.dropped ++ (eaNumbers s.link.usedTxQ ++ eaNumbers s.link.sentTxQ) }

def rcvAcked (acked : Nat) (s : Sys) : Sys :=
  btIap2UpdateAckedPkt { s with link := { s.link with ackedSeq := acked } }

def giveUp : List Elem → Sys → Sys
  | [], s => s
  | e :: es, s => release false e (setSent es s)

def sendDataTimeout (seq : Nat) (s : Sys) : Sys :=
  match s.link.sentTxQ.find? fun e => e.seq = seq with
  | none => s
  | some e =>
    if s.link.devMaxRetrans ≤ u8 (e.retransCnt + 1) then
      giveUp (First.modify (fun e => e.seq = seq)
        (fun e => { e with retransCnt := u8 (e.retransCnt + 1), timer := false })
        s.link.sentTxQ) s
    else
      { setSent (First.modify (fun e => e.seq = seq)
          (fun e => { e with retransCnt := u8 (e.retransCnt + 1), timer := true })
          s.link.sentTxQ) s with
        resent := s.resent ++ [(e.number, e.seq)] }

def btIapHandleTimeout (timerId : Nat) (s : Sys) : Sys :=
  if s.link.index = timerId % 65536 then
    if timerId / 65536 % 256 = btIap2SendData then sendDataTimeout (timerId % 65536 / 256) s else s
  else s

def send (sessionId : SessionId) (fits alloc : Bool) (attempts : List Bool) (s : Sys) : Sys :=
  if !fits ∨ s.link.remainTxQNum = 0 ∨ !alloc then s
  else
    btIap2TxData attempts { s with
      link := { s.link with
        remainTxQNum := u8 (s.link.remainTxQNum + 255)
        usedTxQ := s.link.usedTxQ ++ [⟨s.nextNumber, sessionId, 0, 0, false⟩] }
      nextNumber := s.nextNumber + 1
      accepted := s.accepted ++ (if sessionId = .ea then [s.nextNumber] else []) }

inductive Event where
  | send (sessionId : SessionId) (fits alloc : Bool) (attempts : List Bool)
  | creditInfo (attempts : List Bool)
  | ack (acked : UInt8) (attempts : List Bool)
  | reset (acked : UInt8) (attempts : List Bool)
  | timeout (seq : Nat)

def step (param : Param) (s : Sys) : Event → Sys
  | .send sessionId fits alloc attempts => send sessionId fits alloc attempts s
  | .creditInfo attempts => btIap2TxData attempts s
  | .ack acked attempts => btIap2TxData attempts (rcvAcked acked.toNat s)
  | .reset acked attempts =>
    btIap2TxData attempts (btIap2HandleReset param (rcvAcked acked.toNat s))
  | .timeout seq => btIapHandleTimeout (timerId seq s.link.index) s

def syncCmpl (param : Param) (index accPktSeq devMaxRetrans : UInt8) : Sys :=
  { link :=
      { index := index.toNat, state := .other, usedTxQ := [], sentTxQ := [],
        remainTxQNum := param.txQElemNum.toNat, accPktSeq := accPktSeq.toNat, ackedSeq := 0,
        devMaxRetrans := devMaxRetrans.toNat }
    nextNumber := 0, accepted := [], reports := [], dropped := [], resent := [] }

end Iap2
