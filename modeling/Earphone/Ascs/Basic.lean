import Earphone.Lib.Ltv

/-!
This module contains the ASE table of a link as `ase_sm.h` declares it.
-/

namespace Ascs

open Scan Ltv

inductive AseState where
  | idle
  | codecConfigured
  | qosConfigured
  | enabling
  | streaming
  | disabling
  | releasing
  deriving DecidableEq

inductive Direction where
  | sink
  | source
  deriving DecidableEq

inductive Op where
  | configCodec
  | configQos
  | enable
  | recStartReady
  | disable
  | recStopReady
  | updateMetadata
  | release
  deriving DecidableEq

def Op.ofByte : Nat → Option Op
  | 1 => some .configCodec
  | 2 => some .configQos
  | 3 => some .enable
  | 4 => some .recStartReady
  | 5 => some .disable
  | 6 => some .recStopReady
  | 7 => some .updateMetadata
  | 8 => some .release
  | _ => none

def Op.toByte : Op → Nat
  | .configCodec => 1
  | .configQos => 2
  | .enable => 3
  | .recStartReady => 4
  | .disable => 5
  | .recStopReady => 6
  | .updateMetadata => 7
  | .release => 8

structure Resp where
  code : Nat
  reason : Nat

namespace Resp

def success : Resp := ⟨0x00, 0⟩

def invalidAseId : Resp := ⟨0x03, 0⟩

def invalidAseSmTransition : Resp := ⟨0x04, 0⟩

def invalidAseDirection : Resp := ⟨0x05, 0⟩

def unsupportedAudioCap (reason : Nat) : Resp := ⟨0x06, reason⟩

def rejectedParam (reason : Nat) : Resp := ⟨0x08, reason⟩

def invalidParam (reason : Nat) : Resp := ⟨0x09, reason⟩

def unsupportedMetadata (reason : Nat) : Resp := ⟨0x0A, reason⟩

def rejectedMetadata (reason : Nat) : Resp := ⟨0x0B, reason⟩

def invalidMetadata (reason : Nat) : Resp := ⟨0x0C, reason⟩

end Resp

def respUnsupportedOpcode : Nat := 0x01

def respInvalidLength : Nat := 0x02

def respInsufficientResource : Nat := 0x0D

def respUnspecifiedError : Nat := 0x0E

def reasonCodecId : Nat := 0x01

def reasonCodecCfg : Nat := 0x02

def reasonSduInterval : Nat := 0x03

def reasonFraming : Nat := 0x04

def reasonPhy : Nat := 0x05

def reasonMaxSduSize : Nat := 0x06

def reasonMaxTransportLatency : Nat := 0x08

def reasonPresentationDelay : Nat := 0x09

def reasonInvalidAseCisMapping : Nat := 0x0A

def ascsAesCharMaxNum : Nat := 7

def lc3CodecId : Nat := 0x06

def vendorCodecId : Nat := 0xFF

structure CodecCfg where
  typeExist : Nat
  frameDuration : Nat
  sampleFrequency : Nat
  codecFrameBlocksPerSdu : Nat
  octetsPerCodecFrame : Nat
  audioChannelAllocation : Nat

def CodecCfg.zero : CodecCfg := ⟨0, 0, 0, 0, 0, 0⟩

structure CodecStateData where
  supportedFraming : Nat
  preferredPhy : Nat
  preferredRetransNumber : Nat
  maxTransportLatency : Nat
  presentationDelayMin : Nat
  presentationDelayMax : Nat
  preferredPresentationDelayMin : Nat
  preferredPresentationDelayMax : Nat
  codecId : List Nat
  codecSpecCfgLen : Nat

def CodecStateData.zero : CodecStateData := ⟨0, 0, 0, 0, 0, 0, 0, 0, [0, 0, 0, 0, 0], 0⟩

structure QosStateData where
  cigId : Nat
  cisId : Nat
  sduInterval : Nat
  framing : Nat
  phy : Nat
  maxSdu : Nat
  retransmissionNumber : Nat
  maxTransportLatency : Nat
  presentationDelay : Nat

def QosStateData.zero : QosStateData := ⟨0, 0, 0, 0, 0, 0, 0, 0, 0⟩

structure AseEntry where
  aseId : Nat
  direction : Direction
  aseState : AseState
  cisConnHandle : Nat
  recStartReady : Bool
  recStopReady : Bool
  appHandshake : Bool
  appHandshakeRec : Bool
  addedPathDirection : Nat
  codecSpecCfgLen : Nat
  metadataLen : Nat
  minTransportLatency : Nat
  codecStateData : CodecStateData
  qosStateData : QosStateData
  codecCfg : CodecCfg
  codecSpecCfg : Option (List UInt8)
  metadata : Option (List UInt8)

abbrev AseTable := List AseEntry

def aseInit (aseId : Nat) (direction : Direction) : AseEntry :=
  { aseId, direction
    aseState := .idle
    cisConnHandle := 0
    recStartReady := false
    recStopReady := false
    appHandshake := false
    appHandshakeRec := false
    addedPathDirection := 0
    codecSpecCfgLen := 0
    metadataLen := 0
    minTransportLatency := 0
    codecStateData := .zero
    qosStateData := .zero
    codecCfg := .zero
    codecSpecCfg := none
    metadata := none }

def aseSmLinkInit (snkAseNum srcAseNum : Nat) : AseTable :=
  (List.range snkAseNum).map (fun i => aseInit (i + 1) .sink) ++
    (List.range srcAseNum).map fun i => aseInit (snkAseNum + i + 1) .source

def aseFindByAseId (table : AseTable) (aseId : Nat) : Option AseEntry :=
  table.find? fun e => e.aseId = aseId

def AseState.hasCis : AseState → Bool
  | .qosConfigured => true
  | .enabling => true
  | .streaming => true
  | .disabling => true
  | _ => false

def aseFindByCigCis (table : AseTable) (direction : Direction) (cigId cisId : Nat) :
    Option AseEntry :=
  table.find? fun e =>
    e.aseState.hasCis && e.direction = direction &&
      e.qosStateData.cigId = cigId && e.qosStateData.cisId = cisId

def aseCpCheckSmState (aseState : AseState) (direction : Direction) (cpOp : Op)
    (isClient : Bool) : Bool :=
  match cpOp with
  | .configCodec =>
    aseState = .idle || aseState = .codecConfigured || aseState = .qosConfigured
  | .configQos => isClient && (aseState = .codecConfigured || aseState = .qosConfigured)
  | .enable => isClient && aseState = .qosConfigured
  | .recStartReady =>
    aseState = .enabling && (isClient && direction = .source) || (!isClient && direction = .sink)
  | .recStopReady =>
    aseState = .disabling && (isClient && direction = .source) || (!isClient && direction = .sink)
  | .disable => aseState = .enabling || aseState = .streaming
  | .updateMetadata => aseState = .enabling || aseState = .streaming
  | .release => aseState ≠ .idle && aseState ≠ .releasing

def leNum : List UInt8 → Nat
  | [] => 0
  | b :: bs => b.toNat + 256 * leNum bs

def codecCfgNeed (type length : Nat) : Except Unit Nat :=
  if type = 0x01 then if length = 2 then .ok 1 else .error ()
  else if type = 0x02 then if length = 2 then .ok 1 else .error ()
  else if type = 0x03 then if length = 5 then .ok 4 else .error ()
  else if type = 0x04 then if length = 3 then .ok 2 else .error ()
  else if type = 0x05 then if length = 2 then .ok 1 else .error ()
  else .ok 0

def codecCfgUse (type : Nat) (value : List UInt8) (cfg : CodecCfg) : Except Unit CodecCfg :=
  if type = 0x01 then
    if leNum value > 0x0A ∨ leNum value < 0x01 then .error ()
    else .ok { cfg with sampleFrequency := leNum value, typeExist := cfg.typeExist ||| 0x0001 }
  else if type = 0x02 then
    if leNum value > 0x03 then .error ()
    else .ok { cfg with frameDuration := leNum value, typeExist := cfg.typeExist ||| 0x0002 }
  else if type = 0x03 then
    if leNum value ||| 0x0FFFFFFF ≠ 0x0FFFFFFF then .error ()
    else
      .ok { cfg with audioChannelAllocation := leNum value, typeExist := cfg.typeExist ||| 0x0004 }
  else if type = 0x04 then
    .ok { cfg with octetsPerCodecFrame := leNum value, typeExist := cfg.typeExist ||| 0x0008 }
  else if type = 0x05 then
    if leNum value = 0 then .error ()
    else
      .ok { cfg with codecFrameBlocksPerSdu := leNum value, typeExist := cfg.typeExist ||| 0x0010 }
  else .ok { cfg with typeExist := cfg.typeExist ||| 0x1000 }

def codecCfgFormat : Format Unit CodecCfg :=
  { need := codecCfgNeed, use := codecCfgUse, short := () }

def codecCfgInit : CodecCfg := { CodecCfg.zero with codecFrameBlocksPerSdu := 1 }

def codecCfgParse (bytes : List UInt8) (base valueLen fuel : Nat) :
    Except Stuck (Except Unit CodecCfg) :=
  if valueLen = 0 then .ok (.error ())
  else walk codecCfgFormat bytes base valueLen fuel 0 codecCfgInit

def metadataNeed (type length : Nat) : Except Resp Nat :=
  if type = 0x01 then if length = 3 then .ok 0 else .error (.invalidMetadata type)
  else if type = 0x02 then if length = 3 then .ok 2 else .error (.invalidMetadata type)
  else if type = 0xFF then if length < 4 then .error (.invalidMetadata type) else .ok 0
  else if type = 0x05 then if length < 1 then .error (.invalidMetadata type) else .ok 0
  else .error (.unsupportedMetadata type)

def audioContextMask : Nat := 0x0FFF

def metadataUse (type : Nat) (value : List UInt8) (contexts : Nat) : Except Resp Nat :=
  if type = 0x02 then
    if leNum value ||| audioContextMask ≠ audioContextMask ∨ leNum value &&& audioContextMask = 0 then
      .error (.rejectedMetadata type)
    else .ok (leNum value)
  else .ok contexts

def metadataFormat : Format Resp Nat :=
  { need := metadataNeed, use := metadataUse, short := .invalidMetadata 0 }

def metadataCheckFormat (bytes : List UInt8) (base len contexts fuel : Nat) :
    Except Stuck (Except Resp Nat) :=
  if len = 0 then .ok (.error (.invalidMetadata 0))
  else walk metadataFormat bytes base len fuel 0 contexts

end Ascs
