import Earphone.Lib.Scan

/-!
This module contains the receiving side of `avctp.c`.
-/

namespace Avctp

open Scan

def avctpStartHdrLength : Nat := 4

def uuidAvRemoteControl : Nat := 0x110e

inductive PktType where
  | unfrag
  | start
  | continue
  | end
  deriving DecidableEq

def packetType (header : Nat) : PktType :=
  match header / 4 % 4 with
  | 0 => .unfrag
  | 1 => .start
  | 2 => .continue
  | _ => .end

def crtype (header : Nat) : Nat := header / 2 % 2

def transactLabel (header : Nat) : Nat := header / 16

structure Buf where
  size : Nat
  written : List UInt8

structure ControlChann where
  profileId : Nat
  pktNum : Nat
  writeIdx : Nat
  reassemblyLen : Nat
  reassemblyBuf : Option Buf

structure DataInd where
  data : List UInt8
  data_lt : data.length < 65536
  granted : Bool
  l2cBuf : Bool

inductive Effect where
  | dataInd (transactLabel crtype : Nat) (data : List UInt8)
  | invalidPid (transactLabel profileId : Nat)

def idle : ControlChann := ⟨0, 0, 0, 0, none⟩

def avctpReassemblyBufReset (chann : ControlChann) : ControlChann :=
  match chann.reassemblyBuf with
  | some _ => idle
  | none => chann

def deliver (chann : ControlChann) (header : Nat) (data : List UInt8) (l2cBuf : Bool) :
    ControlChann × List Effect :=
  (avctpReassemblyBufReset chann,
    if chann.profileId = uuidAvRemoteControl then
      [.dataInd (transactLabel header) (crtype header) data]
    else if l2cBuf then [.invalidPid (transactLabel header) chann.profileId]
    else [])

def unfragInd (chann : ControlChann) (ind : DataInd) (header length : Nat) :
    Except Stuck (ControlChann × List Effect) := do
  let chann := avctpReassemblyBufReset chann
  let profileId ← be16At ind.data 1
  let data ← bytesAt ind.data 3 (sub16 length 2)
  return deliver { chann with profileId := profileId } header data ind.l2cBuf

def copyAt (buf : Buf) (writeIdx : Nat) (data : List UInt8) : Except Stuck Buf :=
  if writeIdx + data.length ≤ buf.size then
    .ok { buf with written := buf.written.take writeIdx ++ data }
  else .error .overflow

def fragmentInd (chann : ControlChann) (ind : DataInd) (header pos length : Nat) :
    Except Stuck (ControlChann × List Effect) :=
  match chann.reassemblyBuf with
  | none => .ok (chann, [])
  | some buf =>
    if chann.pktNum = 0 ∨ packetType header = .end ∧ chann.pktNum > 1 ∨
        chann.writeIdx + length > chann.reassemblyLen then
      .ok (avctpReassemblyBufReset chann, [])
    else do
      let data ← bytesAt ind.data pos length
      let buf ← copyAt buf chann.writeIdx data
      let chann := { chann with
        reassemblyBuf := some buf
        writeIdx := (chann.writeIdx + length) % 65536
        pktNum := chann.pktNum - 1 }
      if packetType header = .end then
        return deliver chann header (buf.written.take chann.writeIdx) ind.l2cBuf
      else return (chann, [])

def startInd (chann : ControlChann) (ind : DataInd) (header length : Nat) :
    Except Stuck (ControlChann × List Effect) :=
  if ind.data.length < avctpStartHdrLength then .ok (chann, [])
  else do
    let chann := avctpReassemblyBufReset chann
    let pktNum ← byteAt ind.data 1
    let profileId ← be16At ind.data 2
    let reassemblyLen := pktNum * ind.data.length % 65536
    let chann : ControlChann :=
      { chann with
        pktNum := pktNum
        profileId := profileId
        reassemblyLen := reassemblyLen
        reassemblyBuf := if ind.granted then some ⟨reassemblyLen, []⟩ else none
        writeIdx := 0 }
    fragmentInd chann ind header 4 (sub16 (sub16 length 1) 2)

def avctpHandleL2cDataInd (chann : ControlChann) (ind : DataInd) :
    Except Stuck (ControlChann × List Effect) := do
  let header ← byteAt ind.data 0
  let length := sub16 ind.data.length 1
  match packetType header with
  | .unfrag => unfragInd chann ind header length
  | .start => startInd chann ind header length
  | _ => fragmentInd chann ind header 1 length

def avctpBrowsingHandleL2cDataInd (ind : DataInd) : Except Stuck (List Effect) := do
  let header ← byteAt ind.data 0
  let length := sub16 ind.data.length 1
  let profileId ← be16At ind.data 1
  let data ← bytesAt ind.data 3 (sub16 length 2)
  return if profileId = uuidAvRemoteControl then
      [.dataInd (transactLabel header) (crtype header) data]
    else if ind.l2cBuf then [.invalidPid (transactLabel header) profileId]
    else []

def receive (chann : ControlChann) : List DataInd → Except Stuck (ControlChann × List Effect)
  | [] => .ok (chann, [])
  | ind :: inds => do
    let (chann, effects) ← avctpHandleL2cDataInd chann ind
    let (chann, later) ← receive chann inds
    return (chann, effects ++ later)

end Avctp
