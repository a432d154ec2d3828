import Earphone.Ascs.Basic

namespace Ascs

open Scan Ltv

def aseCpOpMinLen : Nat := 3

def codecCfgParamLen : Nat := 9

def qosCfgParamLen : Nat := 16

def add16 (a b : Nat) : Nat := (a + b) % 65536

def lenLoop (bytes : List UInt8) (skip : Nat) : Nat → Nat → Except Stuck Nat
  | 0, idx => .ok idx
  | n + 1, idx => do
    let idx := add16 idx skip
    let len ← byteAt bytes idx
    lenLoop bytes skip n (add16 (add16 idx 1) len)

def aseCpCheckMsgLen (cpOp : Op) (bytes : List UInt8) : Except Stuck Bool :=
  if bytes.length < aseCpOpMinLen then .ok false
  else do
    let aseNum ← byteAt bytes 1
    match cpOp with
    | .configCodec => do
      let idx ← lenLoop bytes 8 aseNum 2
      return idx = bytes.length
    | .configQos => return bytes.length = 2 + aseNum * qosCfgParamLen
    | .recStartReady => return bytes.length = 2 + aseNum
    | .recStopReady => return bytes.length = 2 + aseNum
    | .release => return bytes.length = 2 + aseNum
    | .disable => return bytes.length = 2 + aseNum
    | .enable => do
      let idx ← lenLoop bytes 1 aseNum 2
      return idx = bytes.length
    | .updateMetadata => do
      let idx ← lenLoop bytes 1 aseNum 2
      return idx = bytes.length

structure CodecCfgParam where
  aseId : Nat
  targetLatency : Nat
  targetPhy : Nat
  codecId : List Nat
  codecSpecCfgLen : Nat

def codecCfgParam (bytes : List UInt8) (p : Nat) : CodecCfgParam :=
  { aseId := octet bytes p
    targetLatency := octet bytes (p + 1)
    targetPhy := octet bytes (p + 2)
    codecId := (octets bytes (p + 3) 5).map UInt8.toNat
    codecSpecCfgLen := octet bytes (p + 8) }

structure QosCfgParam where
  aseId : Nat
  qos : QosStateData

def qosCfgParam (bytes : List UInt8) (p : Nat) : QosCfgParam :=
  { aseId := octet bytes p
    qos :=
      { cigId := octet bytes (p + 1)
        cisId := octet bytes (p + 2)
        sduInterval := leNum (octets bytes (p + 3) 3)
        framing := octet bytes (p + 6)
        phy := octet bytes (p + 7)
        maxSdu := leNum (octets bytes (p + 8) 2)
        retransmissionNumber := octet bytes (p + 10)
        maxTransportLatency := leNum (octets bytes (p + 11) 2)
        presentationDelay := leNum (octets bytes (p + 13) 3) } }

def structAt {α : Type} (get : List UInt8 → Nat → α) (bytes : List UInt8) (p n : Nat) :
    Except Stuck α :=
  if p + n ≤ bytes.length then .ok (get bytes p) else .error .outside

structure App where
  pacFind : Direction → List Nat → CodecCfg → Bool
  contextsCheck : Nat → Direction → Bool → Nat → Bool

inductive CpParam where
  | configCodec (data : CodecCfgParam) (codecParsedData : CodecCfg) (codecSpecCfg : List UInt8)
  | configQos (data : QosCfgParam)
  | metadata (aseId metadataLength : Nat) (metadata : List UInt8)
  | aseId (aseId : Nat)

def CpParam.ase : CpParam → Nat
  | .configCodec data _ _ => data.aseId
  | .configQos data => data.aseId
  | .metadata ase _ _ => ase
  | .aseId ase => ase

structure AseCp where
  op : Op
  numberOfAse : Nat
  params : List CpParam

structure CpNotify where
  opcode : Nat
  numberOfAse : Nat
  params : List (Nat × Resp)

def entryAt (i n : Nat) : Except Stuck Unit :=
  if i < n then .ok () else .error .overflow

def checkAse (table : AseTable) (op : Op) (aseId : Nat) : Except Resp AseEntry :=
  match aseFindByAseId table aseId with
  | none => .error .invalidAseId
  | some e =>
    if (op = .recStartReady ∨ op = .recStopReady) ∧ e.direction = .sink then
      .error .invalidAseDirection
    else if aseCpCheckSmState e.aseState e.direction op true = false then
      .error .invalidAseSmTransition
    else .ok e

def checkCodecHead (param : CodecCfgParam) : Except Resp Unit :=
  if param.targetLatency > 3 then .error (.invalidParam reasonMaxTransportLatency)
  else if param.targetPhy > 3 then .error (.invalidParam reasonPhy)
  else if param.codecId.head? ≠ some lc3CodecId ∧ param.codecId.head? ≠ some vendorCodecId then
    .error (.invalidParam reasonCodecId)
  else if param.codecId.head? = some lc3CodecId ∧ param.codecId ≠ [lc3CodecId, 0, 0, 0, 0] then
    .error (.invalidParam reasonCodecId)
  else .ok ()

def checkCodecCap (app : App) (e : AseEntry) (param : CodecCfgParam) :
    Except Unit CodecCfg → Except Resp CodecCfg
  | .error _ => .error (.invalidParam reasonCodecCfg)
  | .ok cfg =>
    if param.codecId.head? = some lc3CodecId ∧ app.pacFind e.direction param.codecId cfg = false then
      .error (.unsupportedAudioCap reasonCodecCfg)
    else .ok cfg

def aseCheckCfgCodecParam (app : App) (e : AseEntry) (param : CodecCfgParam) (bytes : List UInt8)
    (base aseIdx fuel : Nat) : Except Stuck (Except Resp CodecCfg) :=
  match checkCodecHead param with
  | .error resp => .ok (.error resp)
  | .ok () => do
    entryAt (if param.codecSpecCfgLen = 0 then 0 else aseIdx) ascsAesCharMaxNum
    let parsed ← codecCfgParse bytes base param.codecSpecCfgLen fuel
    return checkCodecCap app e param parsed

def aseCheckCfgQosParam (e : AseEntry) (qos : QosStateData) : Except Resp Unit :=
  if qos.sduInterval < 0x0000FF ∨ qos.sduInterval > 0xFFFFFF then
    .error (.invalidParam reasonSduInterval)
  else if qos.maxSdu > 0x0FFF then .error (.invalidParam reasonMaxSduSize)
  else if (qos.maxTransportLatency < 0x0005 ∨ qos.maxTransportLatency > 0x0FA0) ∧
      (e.codecStateData.codecId.head? = some lc3CodecId ∨
        e.codecStateData.codecId.head? ≠ some lc3CodecId ∧ qos.maxTransportLatency > 0x0FA0) then
    .error (.invalidParam reasonMaxTransportLatency)
  else if qos.presentationDelay < e.codecStateData.presentationDelayMin ∨
      qos.presentationDelay > e.codecStateData.presentationDelayMax then
    .error (.rejectedParam reasonPresentationDelay)
  else if qos.phy ||| 0x07 ≠ 0x07 then .error (.invalidParam reasonPhy)
  else if qos.framing > 1 then .error (.invalidParam reasonFraming)
  else if e.codecStateData.supportedFraming = 1 ∧ qos.framing = 0 then
    .error (.rejectedParam reasonFraming)
  else .ok ()

def checkCisMapping (table : AseTable) (e : AseEntry) (qos : QosStateData) : Except Resp Unit :=
  match aseFindByCigCis table e.direction qos.cigId qos.cisId with
  | none => .ok ()
  | some check =>
    if check.aseId ≠ e.aseId then .error (.invalidParam reasonInvalidAseCisMapping) else .ok ()

def checkContexts (app : App) (e : AseEntry) (op : Op) (aseId : Nat) :
    Except Resp Nat → Except Resp Unit
  | .error resp => .error resp
  | .ok contexts =>
    if contexts ≠ 0xFFFF ∧ app.contextsCheck aseId e.direction (op ≠ .enable) contexts = true then
      .error (.rejectedMetadata 0x02)
    else .ok ()

def checkMetadata (app : App) (e : AseEntry) (op : Op) (aseId : Nat) (bytes : List UInt8)
    (base metadataLen fuel : Nat) : Except Stuck (Except Resp Unit) :=
  if metadataLen = 0 then .ok (.ok ())
  else do
    let contexts ← metadataCheckFormat bytes base metadataLen 0xFFFF fuel
    return checkContexts app e op aseId contexts

def checkEntry (app : App) (table : AseTable) (op : Op) (bytes : List UInt8)
    (idx aseIdx aseId fuel : Nat) : Except Stuck (Except Resp (CpParam × Nat)) :=
  match checkAse table op aseId with
  | .error resp => .ok (.error resp)
  | .ok e =>
    match op with
    | .configCodec => do
      let param ← structAt codecCfgParam bytes idx codecCfgParamLen
      let idx := add16 idx codecCfgParamLen
      let parsed ← aseCheckCfgCodecParam app e param bytes idx aseIdx fuel
      match parsed with
      | .error resp => return .error resp
      | .ok cfg => do
        entryAt aseIdx ascsAesCharMaxNum
        return .ok (.configCodec param cfg (octets bytes idx param.codecSpecCfgLen),
          add16 idx param.codecSpecCfgLen)
    | .configQos => do
      let param ← structAt qosCfgParam bytes idx qosCfgParamLen
      match aseCheckCfgQosParam e param.qos with
      | .error resp => return .error resp
      | .ok () => do
        entryAt aseIdx ascsAesCharMaxNum
        match checkCisMapping table e param.qos with
        | .error resp => return .error resp
        | .ok () => return .ok (.configQos param, add16 idx qosCfgParamLen)
    | _ =>
      if op = .enable ∨ op = .updateMetadata then do
        let metadataLen ← byteAt bytes (add16 idx 1)
        let base := add16 (add16 idx 1) 1
        let checked ← checkMetadata app e op aseId bytes base metadataLen fuel
        match checked with
        | .error resp => return .error resp
        | .ok () => do
          entryAt aseIdx ascsAesCharMaxNum
          return .ok (.metadata aseId metadataLen (octets bytes base metadataLen),
            add16 base metadataLen)
      else do
        entryAt aseIdx ascsAesCharMaxNum
        return .ok (.aseId aseId, add16 idx 1)

def checkLoop (app : App) (table : AseTable) (op : Op) (bytes : List UInt8) (aseNum : Nat) :
    Nat → Nat → Nat → Except Stuck (List (Nat × Resp) × Option (List CpParam))
  | 0, _, _ => .error .endless
  | fuel + 1, idx, aseIdx =>
    if idx < bytes.length then do
      entryAt aseIdx aseNum
      let aseId ← byteAt bytes idx
      let checked ← checkEntry app table op bytes idx aseIdx aseId fuel
      match checked with
      | .error resp => return ([(aseId, resp)], none)
      | .ok (param, next) => do
        let rest ← checkLoop app table op bytes aseNum fuel next ((aseIdx + 1) % 256)
        return ((aseId, .success) :: rest.1, rest.2.map (param :: ·))
    else return ([], some [])

def invalidOperation (opcode code : Nat) : CpNotify :=
  { opcode := opcode, numberOfAse := 0xFF, params := [(0, ⟨code, 0⟩)] }

def rejectResps (cbResult : Nat) (resps : List (Nat × Resp)) : List (Nat × Resp) :=
  if cbResult = respInsufficientResource ∨ cbResult = respUnspecifiedError then
    resps.map fun r => (r.1, { r.2 with code := cbResult })
  else resps

def aseCheckCpData (app : App) (verdict : AseCp → Nat) (memory : Bool) (table : AseTable)
    (bytes : List UInt8) (fuel : Nat) : Except Stuck (Option CpNotify × Option AseCp) := do
  let opcode ← byteAt bytes 0
  match Op.ofByte opcode with
  | none => return (some (invalidOperation opcode respUnsupportedOpcode), none)
  | some op => do
    let lenOk ← aseCpCheckMsgLen op bytes
    if lenOk = false then return (some (invalidOperation opcode respInvalidLength), none)
    else do
      let aseNum ← byteAt bytes 1
      if aseNum = 0 ∧ 2 ≠ bytes.length then
        return (some (invalidOperation opcode respInvalidLength), none)
      else if memory = false then return (none, none)
      else do
        let checked ← checkLoop app table op bytes aseNum fuel 2 0
        match checked.2 with
        | none => return (some ⟨opcode, checked.1.length, checked.1⟩, none)
        | some params =>
          let cp : AseCp := { op := op, numberOfAse := aseNum, params := params }
          let cbResult := if op = .recStartReady ∨ op = .recStopReady then 0 else verdict cp
          if cbResult = 0 then return (some ⟨opcode, aseNum, checked.1⟩, some cp)
          else return (some ⟨opcode, aseNum, rejectResps cbResult checked.1⟩, none)

end Ascs
