import Earphone.Rfc.Basic

namespace Rfc

structure DataInd where
  cid : Nat
  length : Nat
  gap : Nat
  data : Nat → UInt8
  length_lt : length < 2 ^ 16

namespace DataInd

def octet (ind : DataInd) (i : Nat) : Nat := (ind.data (ind.gap + i)).toNat

def extended (ind : DataInd) : Bool := ind.octet 2 &&& 1 = 0

def cr (ind : DataInd) : Bool := (ind.octet 0 >>> 1) &&& 1 ≠ 0

def dlci (ind : DataInd) : Nat := ind.octet 0 >>> 2

def poll (ind : DataInd) : Bool := ind.octet 1 &&& rfcPollBit ≠ 0

def type (ind : DataInd) : Nat := ind.octet 1 &&& 0xEF

def len (ind : DataInd) : Nat :=
  if ind.extended then
    ind.octet 2 >>> 1 ||| ind.octet 3 <<< 7
  else
    ind.octet 2 >>> 1

def credited (ind : DataInd) : Bool := ind.dlci ≠ 0 && ind.type = rfcUih && ind.poll

def start (ind : DataInd) : Nat := (if ind.extended then 4 else 3) + ind.credited.toNat

def returnCredits (ind : DataInd) : Nat := if ind.credited then ind.octet (ind.start - 1) else 0

def rest (ind : DataInd) : Nat := (ind.length + 2 ^ 16 - ind.start) % 2 ^ 16

def covered (ind : DataInd) : Nat := if ind.type = rfcUih then 2 else 3

def checked (ind : DataInd) : Bool :=
  crc8EtsCheck ((List.range ind.covered).map ind.octet) (ind.octet (ind.start + ind.len))

end DataInd

def Db.read (db : Db) (ind : DataInd) (offsets : List Nat) : Db :=
  { db with log := { db.log with reads := db.log.reads ++ offsets.map (ind.gap + ·) } }

def rfcDecodePn (id : Nat) (ind : DataInd) (p len : Nat) (db : Db) : Db :=
  if len = rfcSizePn then
    let layer := ind.octet (p + 1) >>> 4 &&& 0x0f
    let db := (db.read ind [p, p + 1, p + 4, p + 5]).modify id fun chann =>
      { chann with
        dlci := ind.octet p &&& 0x3f
        convergenceLayer := layer
        frameSize := ind.octet (p + 4) + ind.octet (p + 5) <<< 8 }
    if layer = rfcConvergenceCreditReq || layer = rfcConvergenceCreditCfm then
      (db.read ind [p + 7]).modify id
        fun chann => { chann with remoteRemainCredits := ind.octet (p + 7) &&& 0x07 }
    else
      db
  else
    db

def rfcEncodePn (chann : Chann) : List Octet :=
  [.known chann.dlci, .known ((chann.convergenceLayer <<< 4) % 2 ^ 8), .known 0, .known 0,
    .known (chann.frameSize &&& 0xff), .known ((chann.frameSize >>> 8) % 2 ^ 8), .known 0,
    .known (min chann.initCredits 7)]

def limitFrameSize (id : Nat) (db : Db) : Db :=
  let chann := db.chann id
  let mtuSize := (db.ctrl chann).mtuSize
  if chann.frameSize + rfcRsvdSize > mtuSize then
    db.modify id fun chann =>
      { chann with frameSize := (mtuSize + 2 ^ 16 - rfcRsvdSize) % 2 ^ 16 }
  else
    db

def handlePnCommand (ctrl chann : Chann) (oldDesc : Bool) (ind : DataInd) (p len : Nat) (db : Db) :
    Db :=
  if (chann.state ≠ .connected || oldDesc) && chann.state ≠ .configAccepted then
    let db := (rfcDecodePn chann.id ind p len db).modify chann.id fun chann =>
      if chann.convergenceLayer = rfcConvergenceCreditReq then
        { chann with convergenceLayer := rfcConvergenceCreditCfm }
      else
        chann
    let db := (limitFrameSize chann.id db).modify chann.id
      fun chann => { chann with state := .configIncoming }
    rfcSendAuthenReq (db.chann chann.id) false db
  else
    rfcSendUih ctrl rfcTypePn false (rfcEncodePn chann) rfcSizePn db

def handlePnResponse (chann : Chann) (ind : DataInd) (p len : Nat) (db : Db) : Db :=
  if chann.state ≠ .connected then
    let db := (rfcDecodePn chann.id ind p len db).modify chann.id fun chann' =>
      { chann' with
        frameSize := if chann'.frameSize > chann.frameSize then chann.frameSize else chann'.frameSize
        convergenceLayer :=
          if chann'.convergenceLayer = rfcConvergenceCreditReq then
            rfcConvergence0
          else
            chann'.convergenceLayer
        state := .connecting
        waitRspTimer := true }
    rfcSendSabm (db.chann chann.id) true true db
  else
    db

def rfcHandlePn (ctrl : Chann) (tcr : Bool) (ind : DataInd) (p len : Nat) (db : Db) : Db :=
  let db := db.read ind [p]
  let dlci := ind.octet p
  match rfcFindChannByDlci dlci ctrl.l2cCid db, tcr with
  | some chann, true => handlePnCommand ctrl chann true ind p len db
  | none, true =>
    match db.serviceList.find? (·.localServerChann = (dlci >>> 1 &&& 0x1F)) with
    | none => rfcSendDm ctrl dlci false false db
    | some item =>
      match rfcAllocChann dlci db with
      | (none, db) => rfcSendDm ctrl dlci false false db
      | (some chann, db) =>
        let db := db.modify chann.id
          fun chann => { chann with ctrlChann := some ctrl.id, service := some item.id }
        handlePnCommand ctrl (db.chann chann.id) false ind p len db
  | some chann, false => handlePnResponse chann ind p len db
  | none, false => db

def postConnCmpl (chann : Chann) (db : Db) : Db :=
  let (serviceId, db) := readServiceId chann db
  rfcMsgPost chann.service (.connCmpl (db.ctrl chann).bdAddr chann.dlci serviceId chann.frameSize
    chann.remoteRemainCredits) db

def handleMscResponse (chann : Chann) (db : Db) : Db :=
  if chann.usFlowActive &&& rfcMscCmdPending ≠ 0 then
    let db := (db.modify chann.id fun chann =>
      { chann with
        mscHandshake := chann.mscHandshake ||| rfcMscRspRcv
        usFlowActive := ((chann.usFlowActive &&& 0xFE) ||| rfcMscCmdOutgoing) &&& 0xFD }).modify
      (db.ctrl chann).id fun chann => { chann with waitRspTimer := true }
    rfcSendMsc (db.ctrl chann) true chann.dlci chann.usFlowCtrl chann.usFlowBreak db
  else
    db.modify chann.id fun chann =>
      { chann with
        mscHandshake := chann.mscHandshake ||| rfcMscRspRcv
        usFlowActive := chann.usFlowActive &&& 0xFE }

def handleMscStatus (ctrl chann : Chann) (tcr : Bool) (dlci status : Nat) (db : Db) : Db :=
  if tcr then
    (rfcSendMsc ctrl false dlci status 0 db).modify chann.id fun chann =>
      { chann with mscHandshake := chann.mscHandshake ||| rfcMscCmdRcv, dsFlowCtrl := status }
  else
    handleMscResponse chann db

def rfcHandleMsc (ctrl : Chann) (tcr : Bool) (ind : DataInd) (p : Nat) (db : Db) : Db :=
  let db := db.read ind [p]
  let dlci := ind.octet p >>> 2
  match rfcFindChannByDlci dlci ctrl.l2cCid db with
  | none => db
  | some chann =>
    let db := db.read ind [p + 1]
    let db := handleMscStatus ctrl chann tcr dlci (ind.octet (p + 1)) db
    let chann' := db.chann chann.id
    if chann.mscHandshake ≠ chann'.mscHandshake &&
        chann'.mscHandshake = (rfcMscCmdRcv ||| rfcMscRspRcv) then
      rfcCheckSendCredits <| postConnCmpl chann' <|
        db.modify chann.id fun chann => { chann with waitMscTimer := false }
    else
      db

def rfcHandleRls (ctrl : Chann) (tcr : Bool) (ind : DataInd) (p : Nat) (db : Db) : Db :=
  let db := db.read ind [p]
  let dlci := ind.octet p >>> 2
  match rfcFindChannByDlci dlci ctrl.l2cCid db with
  | none => db
  | some chann =>
    if tcr then
      let db := db.read ind [p + 1]
      let status := ind.octet (p + 1)
      (rfcSendRls ctrl false dlci status db).modify chann.id fun chann => { chann with rls := status }
    else
      db

def DataInd.copy (ind : DataInd) (p len : Nat) : List Octet :=
  (List.range len).map fun i => .known (ind.octet (p + i))

def rfcHandleRpn (ctrl : Chann) (tcr : Bool) (ind : DataInd) (p tlen : Nat) (db : Db) : Db :=
  if tlen = 1 || tlen = 8 then
    let db := db.read ind [p]
    let dlci := ind.octet p >>> 2
    match rfcFindChannByDlci dlci ctrl.l2cCid db with
    | none =>
      match rfcAllocChann dlci db with
      | (none, db) => db
      | (some chann, db) =>
        let db := (db.modify chann.id fun chann => { chann with ctrlChann := some ctrl.id }).read ind
          ((List.range tlen).map (p + ·))
        -- only the first `tlen` bytes of the response on the stack are written
        let rsp := ind.copy p tlen ++ List.replicate (8 - tlen) .uninit
        if tcr then rfcSendUih ctrl rfcTypeRpn false rsp 8 db else db
    | some _ =>
      let rsp : List Octet :=
        [.known ((dlci <<< 2 ||| 2 ||| rfcEaBit) % 2 ^ 8), .known 0x07, .known 0x03, .known 0x00,
          .known 0x11, .known 0x13, .known 0x00, .known 0x00]
      if tcr then rfcSendUih ctrl rfcTypeRpn false rsp 8 db else db
  else
    db

def DataInd.uihLen (ind : DataInd) (data : Nat) : Nat :=
  if ind.octet (data + 1) &&& rfcEaBit ≠ 0 then
    ind.octet (data + 1) >>> 1
  else
    ind.octet (data + 1) >>> 1 ||| ind.octet (data + 2) <<< 7

def DataInd.uihHeader (ind : DataInd) (data : Nat) : Nat :=
  if ind.octet (data + 1) &&& rfcEaBit ≠ 0 then 2 else 3

def rfcHandleUih (ctrl : Chann) (ind : DataInd) (data len : Nat) (cr : Bool) (db : Db) : Db :=
  let db := db.read ind ((List.range (ind.uihHeader data)).map (data + ·))
  let p := data + ind.uihHeader data
  let uihCr : Bool := ind.octet data &&& 2 ≠ 0
  let type := ind.octet data >>> 2
  let uihLen := ind.uihLen data
  let db :=
    if uihCr then db else db.modify ctrl.id fun chann => { chann with waitRspTimer := false }
  if type = rfcTypePn then
    rfcHandlePn ctrl uihCr ind p ((len + 2 ^ 16 - ind.uihHeader data) % 2 ^ 16) db
  else if type = rfcTypeFcon then
    if uihCr then
      rfcCheckSendCredits <| rfcSendUih ctrl rfcTypeFcon false [] 0 <|
        db.modify ctrl.id fun chann => { chann with dsFlowCtrl := 0 }
    else
      db
  else if type = rfcTypeFcoff then
    if uihCr then
      rfcSendUih ctrl rfcTypeFcoff false [] 0 <|
        db.modify ctrl.id fun chann => { chann with dsFlowCtrl := rfcFlowBit }
    else
      db
  else if type = rfcTypeMsc then
    rfcHandleMsc ctrl uihCr ind p db
  else if type = rfcTypeRls then
    rfcHandleRls ctrl uihCr ind p db
  else if type = rfcTypeRpn then
    rfcHandleRpn ctrl uihCr ind p uihLen db
  else if type = rfcTypeTest then
    if uihCr then
      rfcSendUih ctrl rfcTypeTest false (ind.copy p (uihCopied uihLen)) uihLen <|
        db.read ind ((List.range (uihCopied uihLen)).map (p + ·))
    else
      db
  else if type = rfcTypeNsc then
    let ctrl := db.ctrl ctrl
    disconnLink ctrl (rfcErr ||| rfcErrNsc) db
  else if cr then
    rfcSendUih ctrl rfcTypeNsc false (ind.copy data 1) 1 (db.read ind [data])
  else
    db

def connectOpenedChann (ctrl : Nat) (db : Db) (id : Nat) : Db :=
  let chann := db.chann id
  if chann.state = .opened && chann.ctrlChann = some ctrl then
    let db := limitFrameSize id db
    rfcSendAuthenReq (db.chann id) true db
  else
    db

def connectOpened (ctrl : Nat) (db : Db) : Db :=
  (db.channList.map Chann.id).foldl (connectOpenedChann ctrl) db

def startRspTimer (id : Nat) (db : Db) : Db :=
  db.modify id fun chann => { chann with waitRspTimer := true }

def startMsc (chann : Chann) (db : Db) : Db :=
  let db := startRspTimer (db.ctrl chann).id <| db.modify chann.id fun chann =>
    { chann with
      state := .connected
      usFlowActive := chann.usFlowActive ||| rfcMscCmdOutgoing
      waitMscTimer := true }
  rfcSendMsc (db.ctrl chann) true chann.dlci chann.usFlowCtrl 0 db

def rfcHandleSabm (chann : Chann) (poll : Bool) (db : Db) : Db :=
  if !poll then
    db
  else if chann.dlci = 0 then
    let db :=
      if chann.state = .connecting then
        db.modify chann.id fun chann => { chann with initiator := false, waitRspTimer := false }
      else
        db
    let db := rfcSendUa (db.chann chann.id) false true db
    connectOpened chann.id <| db.modify chann.id fun chann => { chann with state := .connected }
  else
    match chann.state with
    | .configAccepted => startMsc chann (rfcSendUa chann false true db)
    | .connected => rfcSendUa chann false true db
    | _ =>
      rfcFreeChann chann (rfcErr ||| rfcErrInvalidState) <|
        rfcSendDm (db.ctrl chann) chann.dlci false true db

def sendPendingDisc (chann : Chann) (db : Db) : Db :=
  rfcSendDisc chann true true <| db.modify chann.id
    fun chann => { chann with state := .disconnecting, waitRspTimer := true }

def setIdle (id : Nat) (db : Db) : Db :=
  db.modify id fun chann => { chann with state := .idle, waitRspTimer := false }

def rfcHandleUa (chann : Chann) (poll : Bool) (db : Db) : Db :=
  if !poll then
    db
  else
    let db := db.modify chann.id fun chann => { chann with waitRspTimer := false }
    if chann.dlci = 0 then
      match chann.state with
      | .connecting =>
        connectOpened chann.id <| db.modify chann.id fun chann => { chann with state := .connected }
      | .disconnectPending => sendPendingDisc chann db
      | .disconnecting => disconnLink chann rfcSuccess (setIdle chann.id db)
      | _ => db
    else
      match chann.state with
      | .connecting => startMsc chann db
      | .disconnectPending => sendPendingDisc chann db
      | .disconnecting =>
        let db := setIdle chann.id db
        rfcFreeChann chann rfcSuccess (rfcCheckDisconnCtrlChann (db.ctrl chann) db)
      | _ => db

def failChann (chann : Chann) (cause : Nat) (db : Db) : Db :=
  let db := setIdle chann.id db
  let db :=
    if chann.dlci ≠ 0 then
      rfcCheckDisconnCtrlChann (db.ctrl chann) db
    else
      disconnLink chann cause db
  rfcFreeChann chann cause db

def rfcHandleDm (chann : Chann) (db : Db) : Db :=
  if chann.state ≠ .idle then
    rfcCheckSendCredits (failChann chann (rfcErr ||| rfcErrInvalidState) db)
  else
    db

def rfcHandleDisc (chann : Chann) (poll : Bool) (db : Db) : Db :=
  if !poll then
    db
  else if chann.state = .disconnecting then
    let db := setIdle chann.id (rfcSendUa chann false true db)
    if chann.dlci = 0 then
      disconnLink chann rfcSuccess db
    else
      rfcFreeChann chann rfcSuccess (rfcCheckDisconnCtrlChann (db.ctrl chann) db)
  else
    let db :=
      if chann.state = .connected then
        rfcSendUa chann false true db
      else
        rfcSendDm (db.ctrl chann) chann.dlci false true db
    let db := db.modify chann.id fun chann => { chann with state := .idle }
    rfcCheckSendCredits <|
      if chann.dlci = 0 then
        rfcCloseDataChann chann.id rfcSuccess db
      else
        rfcFreeChann chann rfcSuccess db

def handleUserData (chann : Chann) (ind : DataInd) (db : Db) : Db :=
  let db :=
    if chann.convergenceLayer = rfcConvergenceCreditCfm && ind.poll && ind.returnCredits ≠ 0 then
      rfcCheckSendCredits <| db.modify chann.id fun chann =>
        { chann with
          remoteRemainCredits := (chann.remoteRemainCredits + ind.returnCredits) % 2 ^ 8 }
    else
      db
  let chann := db.chann chann.id
  let bdAddr := (db.ctrl chann).bdAddr
  if ind.len > 0 then
    -- the service gets a pointer to the information field, which is not read here
    rfcMsgPost chann.service (.dataInd bdAddr chann.dlci chann.remoteRemainCredits
      ((List.range ind.len).map fun i => ind.octet (ind.start + i))) db
  else
    rfcMsgPost chann.service (.creditInfo bdAddr chann.dlci chann.remoteRemainCredits) db

def isCommand (ctrl : Chann) (ind : DataInd) : Bool :=
  (ind.cr && !ctrl.initiator) || (!ind.cr && ctrl.initiator)

def handleNoChann (ctrl : Chann) (ind : DataInd) (db : Db) : Db :=
  if ind.type = rfcSabm then
    rfcSendDm ctrl ind.dlci false true db
  else if ind.type ≠ rfcDm && isCommand ctrl ind then
    rfcSendDm ctrl ind.dlci false false db
  else
    db

def handleFrame (chann : Chann) (ind : DataInd) (db : Db) : Db :=
  if ind.type = rfcSabm then
    rfcHandleSabm chann ind.poll db
  else if ind.type = rfcUa then
    rfcHandleUa chann ind.poll db
  else if ind.type = rfcDm then
    rfcHandleDm chann db
  else if ind.type = rfcDisc then
    rfcHandleDisc chann ind.poll db
  else if ind.type = rfcUih then
    if chann.state ≠ .connected then
      rfcSendDm (db.ctrl chann) chann.dlci false false db
    else if ind.dlci = 0 then
      rfcHandleUih chann ind ind.start ind.len (isCommand (db.ctrl chann) ind) db
    else
      handleUserData chann ind db
  else
    db

def rfcHandleL2cDataInd (ind : DataInd) (db : Db) : Db :=
  if ind.length < 4 then
    db
  else
    let db := db.read ind (List.range ind.start)
    if ind.len + 1 ≠ ind.rest then
      db
    else
      let db := db.read ind (List.range ind.covered ++ [ind.start + ind.len])
      if !ind.checked then
        db
      else
        match rfcFindChannByDlci ind.dlci ind.cid db with
        | some chann => handleFrame chann ind db
        | none =>
          if ind.dlci ≠ 0 then
            match rfcFindChannByDlci 0 ind.cid db with
            | some ctrl => handleNoChann ctrl ind db
            | none => db
          else
            db

end Rfc
