import Earphone.Lib.Scan

/-!
This module contains the receiving loop of `bt_iap.c`.
-/

namespace Iap

open Scan

def iapStartByte : UInt8 := 0x55

def iapLengthMarker : UInt8 := 0x00

def iap2StartByte1 : UInt8 := 0xFF

def iap2StartByte2 : UInt8 := 0x5A

structure Link where
  header : List UInt8
  headerLen : Nat
  payloadLen : Nat
  payload : Option (List UInt8)

inductive Event where
  | iapPkt (header payload : List UInt8)
  | iap2Pkt (header payload : List UInt8)

def isIap2 (header : List UInt8) : Bool :=
  header.getD 0 0 = iap2StartByte1 && header.getD 1 0 = iap2StartByte2

def isIap (header : List UInt8) : Bool := header.getD 0 0 = iapStartByte

def isSyncIap (header : List UInt8) : Bool :=
  header.getD 0 0 = iap2StartByte1 && header.getD 1 0 = iapStartByte

def handlePkt (header payload : List UInt8) : Event :=
  if isIap2 header then .iap2Pkt header payload else .iapPkt header payload

def be16 (header : List UInt8) (i : Nat) : Nat :=
  (header.getD i 0).toNat * 256 + (header.getD (i + 1) 0).toNat

def headerCheck (link : Link) : Link :=
  if link.header.length = 2 then
    if isIap2 link.header then { link with headerLen := 9 }
    else if isIap link.header then
      if link.header.getD 1 0 = iapLengthMarker then
        { link with headerLen := link.headerLen + 2 }
      else link
    else if isSyncIap link.header then { link with headerLen := link.headerLen + 1 }
    else { link with header := [] }
  else if link.header.length = 3 then
    if isSyncIap link.header && link.header.getD 2 0 = iapLengthMarker then
      { link with headerLen := link.headerLen + 2 }
    else link
  else link

def iapPayloadLen (header : List UInt8) (i : Nat) : Nat :=
  ((if header.getD i 0 = iapLengthMarker then be16 header (i + 1)
    else (header.getD i 0).toNat) + 1) % 65536

def headerDone (link : Link) : Link × List Event :=
  if link.header.length = link.headerLen then
    if isIap2 link.header then
      if sub16 (be16 link.header 2) 9 = 0 then
        ({ link with payloadLen := 0, header := [] }, [handlePkt link.header []])
      else ({ link with payloadLen := sub16 (be16 link.header 2) 9 }, [])
    else if isIap link.header then
      ({ link with payloadLen := iapPayloadLen link.header 1 }, [])
    else if isSyncIap link.header then
      ({ link with payloadLen := iapPayloadLen link.header 2 }, [])
    else (link, [])
  else (link, [])

def startHeader (link : Link) : Link :=
  if link.header = [] then { link with headerLen := 2 } else link

def headerByte (link : Link) (b : UInt8) : Link × List Event :=
  headerDone (headerCheck { startHeader link with header := link.header ++ [b] })

def InHeader (link : Link) : Prop := link.header = [] ∨ link.header.length < link.headerLen
  deriving Decidable

def pktDone (link : Link) (payload : List UInt8) : Link × List Event :=
  ({ link with payload := none, header := [] }, [handlePkt link.header payload])

structure Round where
  link : Link
  events : List Event
  taken : Nat
  stop : Bool

def headerRound (link : Link) (data : List UInt8) (p : Nat) : Except Stuck Round := do
  if 9 ≤ link.header.length then throw .overflow
  match data[p]? with
  | none => throw .outside
  | some b =>
    let out := headerByte link b
    return ⟨out.1, out.2, 1, false⟩

def bufferRound (link : Link) (body data : List UInt8) (p len : Nat) : Except Stuck Round := do
  let copyLen := min (sub16 link.payloadLen body.length) len
  let bytes ← bytesAt data p copyLen
  if link.payloadLen < body.length + copyLen then throw .overflow
  if (body ++ bytes).length = link.payloadLen then
    let out := pktDone link (body ++ bytes)
    return ⟨out.1, out.2, copyLen, false⟩
  else return ⟨{ link with payload := some (body ++ bytes) }, [], copyLen, false⟩

def directRound (link : Link) (data : List UInt8) (p len : Nat) (alloc : Bool) :
    Except Stuck Round :=
  if link.payloadLen ≤ len then do
    let bytes ← bytesAt data p link.payloadLen
    let out := pktDone link bytes
    return ⟨out.1, out.2, link.payloadLen, false⟩
  else if alloc then do
    let bytes ← bytesAt data p len
    return ⟨{ link with payload := some bytes }, [], len, false⟩
  else return ⟨{ link with header := [] }, [], 0, true⟩

def round (link : Link) (data : List UInt8) (p len : Nat) (alloc : Bool) : Except Stuck Round :=
  if InHeader link then headerRound link data p
  else
    match link.payload with
    | some body => bufferRound link body data p len
    | none => directRound link data p len alloc

def rcvLoop (data : List UInt8) (alloc : Bool) :
    Nat → Link → Nat → Nat → Except Stuck (Link × List Event)
  | 0, _, _, _ => .error .endless
  | fuel + 1, link, p, len =>
    if len = 0 then .ok (link, [])
    else do
      let r ← round link data p len alloc
      if r.stop then return (r.link, r.events)
      else do
        let out ← rcvLoop data alloc fuel r.link (p + r.taken) (len - r.taken)
        return (out.1, r.events ++ out.2)

def resync (link : Link) : Link :=
  if link.header.length < link.headerLen then { link with header := [] }
  else if link.payload.isSome then { link with payload := none, header := [] }
  else link

def newHeader (data : List UInt8) : Except Stuck Bool := do
  let b0 ← byteAt data 0
  if b0 = iap2StartByte1.toNat then
    let b1 ← byteAt data 1
    return b1 = iap2StartByte2.toNat
  else return false

def btIapHandleRcvData (data : List UInt8) (alloc : Bool) (fuel : Nat) (link : Link) :
    Except Stuck (Link × List Event) := do
  let new ← newHeader data
  rcvLoop data alloc fuel (if new then resync link else link) 0 data.length

def btIapHandleAll (fuel : Nat) : Link → List (List UInt8 × Bool) → Except Stuck (Link × List Event)
  | link, [] => .ok (link, [])
  | link, frag :: frags => do
    let out ← btIapHandleRcvData frag.1 frag.2 fuel link
    let rest ← btIapHandleAll fuel out.1 frags
    return (rest.1, out.2 ++ rest.2)

def newLink : Link := { header := [], headerLen := 0, payloadLen := 0, payload := none }

end Iap
