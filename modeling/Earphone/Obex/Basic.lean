import Earphone.Lib.Scan

/-!
This module contains the receiving side of `obex.c`.
-/

namespace Obex

open Scan

inductive State where
  | disconnected
  | rfcConnected
  | l2cConnected
  | obexConnecting
  | connected
  | idle
  | disconnect
  | get
  | put
  | setPath
  | abort

inductive Role where
  | client
  | server

inductive SrmStatus where
  | disable
  | wait
  | enable
  deriving DecidableEq

structure RxData where
  totalLen : Nat
  data : List UInt8
  len_lt : data.length < totalLen

structure Link where
  psm : Nat
  cid : Nat
  dlci : Nat
  state : State
  role : Role
  srmStatus : SrmStatus
  connId : Nat
  remoteMaxPktLen : Nat
  rxData : Option RxData
  cback : Bool

inductive Effect where
  | send (bytes : List Nat)
  | connectWithAuthRsp (hashed : List UInt8)
  | l2cDisconnReq (cid : Nat)
  | rfcDisconnReq (dlci : Nat)
  | connInd
  | connCmpl (maxPktLen : Nat) (obexOverL2c : Bool)
  | setPathDone (cause : Nat)
  | putDone (name : Option Slice) (cause : Nat) (srmStatus : SrmStatus)
  | getObject (data : Option Slice) (rspCode : Nat) (srmStatus : Option SrmStatus)
  | remotePut (data : Slice) (srmStatus : SrmStatus)
  | abortDone (cause : Nat)

def obexOpcodeConnect : Nat := 0x80

def obexOpcodeDisconnect : Nat := 0x81

def obexOpcodePut : Nat := 0x02

def obexOpcodeFput : Nat := 0x82

def obexOpcodeAction : Nat := 0x06

def obexOpcodeFaction : Nat := 0x86

def obexOpcodeSession : Nat := 0x87

def obexBaseLen : Nat := 3

def obexConnectLen : Nat := 7

def obexHdrPutLen : Nat := 3

def obexHdrConnectLen : Nat := 7

def obexHiName : Nat := 0x01

def obexHiSrm : Nat := 0x97

def obexHiSrmp : Nat := 0x98

def obexHiConnectionId : Nat := 0xCB

def obexHiAuthenChallenge : Nat := 0x4D

def obexRspContinue : Nat := 0x90

def obexRspSuccess : Nat := 0xA0

def obexRspUnauthorized : Nat := 0xC1

def obexRspNotImplement : Nat := 0xD1

def password : List UInt8 := [0x3A, 0x30, 0x30, 0x30, 0x30]

def hdrLens (pkt : List UInt8) (p hdr : Nat) : Except Stuck (Nat × Nat) :=
  if hdr / 64 = 2 then .ok (2, 1)
  else if hdr / 64 = 3 then .ok (5, 1)
  else do
    let len ← be16At pkt (p + 1)
    return (len, 3)

def hdrValue (pkt : List UInt8) (p : Nat) (lens : Nat × Nat) : Except Stuck Slice :=
  if lens.2 ≤ lens.1 then sliceAt pkt ⟨p + lens.2, sub16 lens.1 lens.2⟩ else .error .slice

def obexFindHdrInPkt (pkt : List UInt8) (tgtHdr : Nat) :
    Nat → Nat → Nat → Except Stuck (Option Slice)
  | 0, _, _ => .error .endless
  | fuel + 1, p, pktLen =>
    if pktLen = 0 then .ok none
    else do
      let hdr ← byteAt pkt p
      let lens ← hdrLens pkt p hdr
      if pktLen < lens.1 then .ok none
      else if hdr = tgtHdr then some <$> hdrValue pkt p lens
      else obexFindHdrInPkt pkt tgtHdr fuel (p + lens.1) (pktLen - lens.1)

def obexFindValueInAppParam (param : List UInt8) (tag : Nat) :
    Nat → Nat → Nat → Except Stuck (Option Slice)
  | 0, _, _ => .error .endless
  | fuel + 1, p, paramLen =>
    if paramLen = 0 then .ok none
    else do
      let type ← byteAt param p
      let len ← byteAt param (p + 1)
      let rest := sub16 (sub16 paramLen 1) 1
      if rest < len then .ok none
      else if type = tag then some <$> sliceAt param ⟨p + 2, len⟩
      else obexFindValueInAppParam param tag fuel (p + 2 + len) (rest - len)

def authenChallenge (pkt : List UInt8) : Nat → Nat → Nat → Except Stuck (Option (List UInt8))
  | 0, _, _ => .error .endless
  | fuel + 1, p, hdrDataLen =>
    if hdrDataLen = 0 then .ok none
    else do
      let tag ← byteAt pkt p
      if tag = 0 then
        let nonce ← bytesAt pkt (p + 2) 16
        return some (nonce ++ password)
      else do
        let paraLen ← byteAt pkt (p + 1)
        authenChallenge pkt fuel (p + (paraLen + 2)) (sub16 hdrDataLen (paraLen + 2))

def hdrIsOne (pkt : List UInt8) (pktLen hdrsAt hdr fuel : Nat) : Except Stuck Bool := do
  let found ← obexFindHdrInPkt pkt hdr fuel hdrsAt (sub16 pktLen hdrsAt)
  match found with
  | none => return false
  | some s => do
    let value ← byteAt pkt s.start
    return value = 1

def reqConnect (link : Link) (pkt : List UInt8) (pktLen fuel : Nat) :
    Except Stuck (Link × List Effect) := do
  let srm ← hdrIsOne pkt pktLen obexHdrConnectLen obexHiSrm fuel
  let maxPktLen ← be16At pkt 5
  return ({ link with
    srmStatus := if srm then .enable else link.srmStatus, remoteMaxPktLen := maxPktLen },
    [.connInd])

def srmRsp : Effect := .send [obexRspContinue, 0, 5, obexHiSrm, 1]

def remotePut (link : Link) (pkt : List UInt8) (pktLen : Nat) (before : List Effect) :
    Except Stuck (Link × List Effect) :=
  if link.cback then do
    let data ← sliceAt pkt ⟨obexHdrPutLen, sub16 pktLen obexHdrPutLen⟩
    return (link, before ++ [.remotePut data link.srmStatus])
  else return (link, before)

def reqPut (link : Link) (pkt : List UInt8) (pktLen fuel : Nat) :
    Except Stuck (Link × List Effect) :=
  if link.psm ≠ 0 ∧ link.srmStatus = .disable then do
    let srm ← hdrIsOne pkt pktLen obexHdrPutLen obexHiSrm fuel
    if srm then remotePut { link with srmStatus := .enable } pkt pktLen [srmRsp]
    else remotePut link pkt pktLen []
  else remotePut link pkt pktLen []

def reqOpcode (link : Link) (pkt : List UInt8) (pktLen opcode fuel : Nat) :
    Except Stuck (Link × List Effect) :=
  if opcode = obexOpcodeConnect then
    if link.cback then reqConnect link pkt pktLen fuel else return (link, [])
  else if opcode = obexOpcodeDisconnect then return (link, [.send [obexRspSuccess, 0, 3]])
  else if opcode = obexOpcodePut then reqPut link pkt pktLen fuel
  else if opcode = obexOpcodeFput then remotePut link pkt pktLen []
  else if opcode = obexOpcodeAction ∨ opcode = obexOpcodeFaction ∨ opcode = obexOpcodeSession then
    return (link, [.send [obexRspNotImplement, 0, 3]])
  else return (link, [])

def obexHandleReqPkt (link : Link) (pkt : List UInt8) (pktLen fuel : Nat) :
    Except Stuck (Link × List Effect) := do
  let opcode ← byteAt pkt 0
  reqOpcode link pkt pktLen opcode fuel

def disconnReq (link : Link) : Effect :=
  if link.psm ≠ 0 then .l2cDisconnReq link.cid else .rfcDisconnReq link.dlci

def connFailed (link : Link) : Link × List Effect :=
  ({ link with state := .idle }, [disconnReq link])

def readConnId (link : Link) (pkt : List UInt8) : Option Slice → Except Stuck Nat
  | none => return link.connId
  | some s => do
    let hi ← be16At pkt s.start
    let lo ← be16At pkt (s.start + 2)
    return hi * 65536 + lo

def connCmpl (link : Link) (maxPktLen connId : Nat) : Link × List Effect :=
  if link.cback then
    ({ link with remoteMaxPktLen := maxPktLen, connId := connId, state := .connected },
      [.connCmpl maxPktLen (link.psm ≠ 0)])
  else ({ link with remoteMaxPktLen := maxPktLen, connId := connId }, [])

def rspConnected (link : Link) (pkt : List UInt8) (pktLen fuel : Nat) :
    Except Stuck (Link × List Effect) := do
  let maxPktLen ← be16At pkt 5
  let found ← obexFindHdrInPkt pkt obexHiConnectionId fuel obexConnectLen
    (sub16 pktLen obexConnectLen)
  let connId ← readConnId link pkt found
  return connCmpl link maxPktLen connId

def answerChallenge (link : Link) (pkt : List UInt8) (alloc : Bool) (fuel : Nat) :
    Option Slice → Except Stuck (Link × List Effect)
  | none => return connFailed link
  | some s =>
    if alloc then do
      let hashed ← authenChallenge pkt fuel s.start s.len
      return (link, (hashed.map Effect.connectWithAuthRsp).toList)
    else return connFailed link

def rspUnauthorized (link : Link) (pkt : List UInt8) (pktLen : Nat) (alloc : Bool) (fuel : Nat) :
    Except Stuck (Link × List Effect) := do
  let found ← obexFindHdrInPkt pkt obexHiAuthenChallenge fuel obexConnectLen
    (sub16 pktLen obexConnectLen)
  answerChallenge link pkt alloc fuel found

def srmAfter (srmStatus : SrmStatus) (srm srmp : Bool) : SrmStatus :=
  match srmStatus with
  | .disable => if srm then if srmp then .wait else .enable else .disable
  | .wait => if srmp then .wait else .enable
  | .enable => .enable

def rspSrm (link : Link) (pkt : List UInt8) (pktLen rspCode fuel : Nat) : Except Stuck Link :=
  if rspCode = obexRspSuccess then return { link with state := .idle }
  else do
    let srm ← hdrIsOne pkt pktLen obexBaseLen obexHiSrm fuel
    let srmp ← hdrIsOne pkt pktLen obexBaseLen obexHiSrmp fuel
    return { link with srmStatus := srmAfter link.srmStatus srm srmp }

def putDone (link : Link) (name : Option Slice) (rspCode : Nat) : Link × List Effect :=
  (link, if link.cback then [.putDone name rspCode link.srmStatus] else [])

def rspPut (link : Link) (pkt : List UInt8) (pktLen rspCode fuel : Nat) :
    Except Stuck (Link × List Effect) :=
  if rspCode = obexRspSuccess ∨ rspCode = obexRspContinue then do
    let link ← rspSrm link pkt pktLen rspCode fuel
    -- The name is looked for from the first byte of the packet on, its opcode.
    let name ← obexFindHdrInPkt pkt obexHiName fuel 0 pktLen
    return putDone link name rspCode
  else return putDone link none rspCode

def rspGet (link : Link) (pkt : List UInt8) (pktLen rspCode fuel : Nat) :
    Except Stuck (Link × List Effect) :=
  if rspCode = obexRspSuccess ∨ rspCode = obexRspContinue then do
    let link ← rspSrm link pkt pktLen rspCode fuel
    if link.cback then do
      let data ← sliceAt pkt ⟨obexBaseLen, sub16 pktLen obexBaseLen⟩
      return (link, [.getObject (some data) rspCode (some link.srmStatus)])
    else return (link, [])
  else
    return ({ link with state := .idle },
      if link.cback then [.getObject none rspCode none] else [])

def rspState (link : Link) (pkt : List UInt8) (pktLen : Nat) (alloc : Bool) (rspCode fuel : Nat) :
    Except Stuck (Link × List Effect) :=
  match link.state with
  | .obexConnecting =>
    if rspCode = obexRspSuccess then rspConnected link pkt pktLen fuel
    else if rspCode = obexRspUnauthorized then rspUnauthorized link pkt pktLen alloc fuel
    else return connFailed link
  | .setPath => return (link, if link.cback then [.setPathDone rspCode] else [])
  | .put => rspPut link pkt pktLen rspCode fuel
  | .get => rspGet link pkt pktLen rspCode fuel
  | .disconnect => return (link, [disconnReq link])
  | .abort =>
    return ({ link with state := .idle }, if link.cback then [.abortDone rspCode] else [])
  | _ => return (link, [])

def obexHandleRspPkt (link : Link) (pkt : List UInt8) (pktLen : Nat) (alloc : Bool) (fuel : Nat) :
    Except Stuck (Link × List Effect) := do
  let rspCode ← byteAt pkt 0
  rspState link pkt pktLen alloc rspCode fuel

structure Allocs where
  rxData : Bool
  md5 : Bool

def handlePkt (link : Link) (pkt : List UInt8) (pktLen : Nat) (allocs : Allocs) (fuel : Nat) :
    Except Stuck (Link × List Effect) :=
  match link.role with
  | .server => obexHandleReqPkt link pkt pktLen fuel
  | .client => obexHandleRspPkt link pkt pktLen allocs.md5 fuel

def freeRxData (out : Link × List Effect) : Link × List Effect :=
  ({ out.1 with rxData := none }, out.2)

def dataIndRest (link : Link) (rx : RxData) (pkt : List UInt8) (allocs : Allocs) (fuel : Nat) :
    Except Stuck (Link × List Effect) :=
  if h : pkt.length ≤ rx.totalLen - rx.data.length then
    if hfull : (rx.data ++ pkt).length = rx.totalLen then
      freeRxData <$> handlePkt link (rx.data ++ pkt) rx.totalLen allocs fuel
    else
      return ({ link with
        rxData := some ⟨rx.totalLen, rx.data ++ pkt, by
          have := rx.len_lt
          simp only [List.length_append] at hfull ⊢
          omega⟩ }, [])
  else return ({ link with rxData := none }, [])

def dataIndTotal (link : Link) (pkt : List UInt8) (totalLen : Nat) (allocs : Allocs)
    (fuel : Nat) : Except Stuck (Link × List Effect) :=
  if h : pkt.length < totalLen then
    if allocs.rxData then return ({ link with rxData := some ⟨totalLen, pkt, h⟩ }, [])
    else return (link, [])
  else handlePkt link pkt totalLen allocs fuel

def dataIndFirst (link : Link) (pkt : List UInt8) (allocs : Allocs) (fuel : Nat) :
    Except Stuck (Link × List Effect) := do
  let totalLen ← be16At pkt 1
  dataIndTotal link pkt totalLen allocs fuel

def obexHandleDataInd (link : Link) (pkt : List UInt8) (allocs : Allocs) (fuel : Nat) :
    Except Stuck (Link × List Effect) :=
  match link.rxData with
  | some rx => dataIndRest link rx pkt allocs fuel
  | none => dataIndFirst link pkt allocs fuel

end Obex
