import Earphone.Lib.Run
import Earphone.Rfc.Receive

namespace Rfc

def rfcHandleL2cConnInd (bdAddr cid : Nat) (db : Db) : Db :=
  match rfcAllocChann 0 db with
  | (some chann, db) =>
    (db.modify chann.id fun chann =>
      { chann with
        l2cCid := cid
        ctrlChann := some chann.id
        bdAddr := bdAddr
        linkState := .connecting }).req (.l2cConnCfm true cid db.enableErtm)
  | (none, db) => db.req (.l2cConnCfm false cid db.enableErtm)

def dropLink (ctrl : Chann) (cause : Nat) (db : Db) : Db :=
  rfcFreeChann ctrl cause <| rfcCloseDataChann ctrl.id cause db

def rfcHandleL2cConnRsp (bdAddr cid cause : Nat) (db : Db) : Db :=
  match rfcFindChannByAddr bdAddr 0 db with
  | none => db
  | some ctrl =>
    if cause ≠ 0 then
      dropLink ctrl cause db
    else
      let db := db.modify ctrl.id fun chann => { chann with l2cCid := cid }
      if ctrl.linkState = .disconnectReq then
        ((rfcCloseDataChann ctrl.id cause db).req (.l2cDisconnReq cid)).modify ctrl.id
          fun chann => { chann with linkState := .disconnecting }
      else
        db

def rfcCheckL2cCollision (ctrl : Chann) (db : Db) : Option Chann :=
  db.channList.find? fun chann =>
    chann.dlci = 0 && chann.bdAddr = ctrl.bdAddr && chann.l2cCid ≠ ctrl.l2cCid

def movedDlci (ctrl newCtrl : Chann) (dlci : Nat) : Nat :=
  if ctrl.linkInitiator ≠ newCtrl.linkInitiator then dlci ^^^ 0x01 else dlci

def changeCtrlChann (ctrl newCtrl : Chann) (db : Db) (id : Nat) : Db :=
  let chann := db.chann id
  if isDataOf ctrl.id chann then
    let dlci := movedDlci ctrl newCtrl chann.dlci
    let db := db.modify id fun chann => { chann with ctrlChann := some newCtrl.id, dlci := dlci }
    let db :=
      if ctrl.linkInitiator ≠ newCtrl.linkInitiator then
        rfcMsgPost chann.service (.dlciChange newCtrl.bdAddr chann.dlci dlci) db
      else
        db
    if chann.state = .opened && newCtrl.state = .connected then
      let db := limitFrameSize id db
      rfcSendAuthenReq (db.chann id) true db
    else
      db
  else
    db

def rfcChangeCtrlChann (ctrl newCtrl : Chann) (db : Db) : Db :=
  (db.channList.map Chann.id).foldl (changeCtrlChann ctrl newCtrl) db

def rfcHandleL2cConnCmpl (cid cause remoteMtu dsDataOffset : Nat) (db : Db) : Db :=
  match rfcFindChannByDlci 0 cid db with
  | none => if cause = 0 then db.req (.l2cDisconnReq cid) else db
  | some ctrl =>
    match rfcCheckL2cCollision ctrl db with
    | some newCtrl =>
      let db := rfcChangeCtrlChann ctrl newCtrl db
      if cause ≠ 0 then rfcFreeChann ctrl cause db else db.req (.l2cDisconnReq ctrl.l2cCid)
    | none =>
      if cause ≠ 0 then
        dropLink ctrl cause db
      else
        let db := { db with dsOffset := dsDataOffset }.modify ctrl.id
          fun chann => { chann with mtuSize := remoteMtu, linkState := .connected }
        if ctrl.state = .idle && ctrl.linkInitiator then
          let db := db.modify ctrl.id
            fun chann => { chann with initiator := true, state := .connecting, waitRspTimer := true }
          rfcSendSabm (db.chann ctrl.id) true true db
        else
          db

def rfcHandleL2cDisconnRsp (cid cause : Nat) (db : Db) : Db :=
  match rfcFindChannByDlci 0 cid db with
  | none => db
  | some ctrl => dropLink ctrl cause db

def rfcHandleL2cDisconnInd (cid cause : Nat) (db : Db) : Db :=
  rfcHandleL2cDisconnRsp cid cause (db.req (.l2cDisconnCfm cid))

def rfcHandleAuthenRsp (dlci cid cause : Nat) (outgoing : Bool) (db : Db) : Db :=
  match rfcFindChannByDlci dlci cid db with
  | none => db
  | some chann =>
    if outgoing then
      if cause ≠ 0 then
        let db := db.modify chann.id fun chann => { chann with state := .idle }
        rfcFreeChann chann (rfcErr ||| rfcErrRejectSecurity)
          (rfcCheckDisconnCtrlChann (db.ctrl chann) db)
      else if chann.state = .opened then
        let db := db.modify chann.id
          fun chann => { chann with state := .configOutgoing, waitRspTimer := true }
        rfcSendUih (db.ctrl chann) rfcTypePn true (rfcEncodePn chann) rfcSizePn db
      else
        db
    else
      if cause ≠ 0 then
        rfcFreeChann chann (rfcErr ||| rfcErrRejectSecurity)
          (rfcSendUih (db.ctrl chann) rfcTypePn false (rfcEncodePn chann) rfcSizePn db)
      else if chann.state = .configIncoming then
        rfcMsgPost chann.service (.connInd (db.ctrl chann).bdAddr chann.dlci chann.frameSize) db
      else
        db

def rfcWaitRspTimeout (id : Nat) (db : Db) : Db :=
  failChann (db.chann id) (rfcErr ||| rfcErrTimeout) db

def rfcWaitMscTimeout (id : Nat) (db : Db) : Db :=
  let db := db.modify id fun chann =>
    { chann with mscHandshake := rfcMscCmdRcv ||| rfcMscRspRcv, waitMscTimer := false }
  postConnCmpl (db.chann id) db

def connReqCtrl (bdAddr : Nat) (db : Db) : Option (Nat × Bool) × Db :=
  match rfcFindChannByAddr bdAddr 0 db with
  | some ctrl => (some (ctrl.id, false), db)
  | none =>
    match rfcAllocChann 0 db with
    | (none, db) => (none, db)
    | (some ctrl, db) =>
      (some (ctrl.id, true), db.modify ctrl.id
        fun chann => { chann with ctrlChann := some ctrl.id, bdAddr := bdAddr })

def connReqLink (bdAddr ctrlId dataId : Nat) (service : Option Nat) (db : Db) : Db × Bool :=
  let ctrl := db.chann ctrlId
  match ctrl.linkState with
  | .idle =>
    ((db.req (.l2cConnReq bdAddr db.enableErtm)).modify ctrlId fun chann =>
      { chann with linkInitiator := true, service := service, linkState := .connecting }, true)
  | .connected =>
    match ctrl.state with
    | .idle =>
      let db := db.modify ctrlId
        fun chann => { chann with initiator := true, state := .connecting, waitRspTimer := true }
      (rfcSendSabm (db.chann ctrlId) true true db, true)
    | .connected =>
      let db := limitFrameSize dataId db
      (rfcSendAuthenReq (db.chann dataId) true db, true)
    -- unlike for a link that is being disconnected, the data channel stays
    | .disconnecting => (db, false)
    | _ => (db, true)
  | .disconnectReq => (db.modify ctrlId fun chann => { chann with linkState := .connecting }, true)
  | .disconnecting =>
    ({ db with channList := Table.erase Chann.id db.channList dataId }, false)
  | .connecting => (db, true)

def connReqDlci (ctrl : Chann) (serverChann : Nat) : Nat :=
  if ctrl.state = .idle || ctrl.initiator then
    (serverChann <<< 1) % 2 ^ 8
  else
    (serverChann <<< 1) % 2 ^ 8 ||| 1

def rfcConnReq (bdAddr serverChann serviceId frameSize maxCredits : Nat) (db : Db) : Db × Bool :=
  let frameSize := if frameSize = 0 then rfcDefaultMtu else frameSize
  match connReqCtrl bdAddr db with
  | (none, db) => (db, false)
  | (some (ctrlId, newControl), db) =>
    let dropNew := fun db : Db =>
      if newControl then rfcFreeChann (db.chann ctrlId) rfcErrInvalidState db else db
    let dlci := connReqDlci (db.chann ctrlId) serverChann
    match rfcFindChannByAddr bdAddr dlci db with
    | some _ => (dropNew db, false)
    | none =>
      match rfcAllocChann dlci db with
      | (none, db) => (dropNew db, false)
      | (some data, db) =>
        let service := (db.serviceList.find? (·.serviceId = serviceId)).map (·.id)
        let db := db.modify data.id fun chann =>
          { rfcInitCredits maxCredits chann with
            ctrlChann := some ctrlId
            service := service
            state := .opened
            frameSize := frameSize }
        connReqLink bdAddr ctrlId data.id service db

def rfcConnCfm (bdAddr dlci status frameSize maxCredits : Nat) (db : Db) : Db :=
  match rfcFindChannByAddr bdAddr dlci db with
  | none => db
  | some chann =>
    if status ≠ 0 then
      rfcFreeChann chann rfcSuccess
        (rfcSendUih (db.ctrl chann) rfcTypePn false (rfcEncodePn chann) rfcSizePn db)
    else if (db.ctrl chann).linkState ≠ .disconnectReq && chann.state = .configIncoming then
      let db := db.modify chann.id fun chann =>
        { rfcInitCredits maxCredits
            { chann with
              usFlowCtrl := 0
              frameSize := if frameSize > chann.frameSize then chann.frameSize else frameSize } with
          state := .configAccepted }
      rfcSendUih (db.ctrl chann) rfcTypePn false (rfcEncodePn (db.chann chann.id)) rfcSizePn db
    else
      db

def rfcDisconnReq (bdAddr dlci : Nat) (db : Db) : Db × Bool :=
  match rfcFindChannByAddr bdAddr dlci db with
  | none => (db, false)
  | some chann =>
    let ctrl := db.ctrl chann
    if ctrl.linkState = .connecting && ctrl.l2cCid = 0 then
      (db.modify ctrl.id fun chann => { chann with linkState := .disconnectReq }, true)
    else
      match chann.state with
      | .idle | .disconnecting => (db, false)
      | .opened =>
        let db := db.modify chann.id fun chann => { chann with state := .idle }
        (rfcFreeChann chann rfcSuccess (rfcCheckDisconnCtrlChann (db.ctrl chann) db), true)
      | .connecting =>
        (db.modify chann.id fun chann => { chann with state := .disconnectPending }, true)
      | _ =>
        (rfcCheckSendCredits <| rfcSendDisc chann true true <| db.modify chann.id
          fun chann => { chann with state := .disconnecting, waitRspTimer := true }, true)

inductive Event where
  | l2cConnInd (bdAddr cid : Nat)
  | l2cConnRsp (bdAddr cid cause : Nat)
  | l2cConnCmpl (cid cause remoteMtu dsDataOffset : Nat)
  | l2cDisconnInd (cid cause : Nat)
  | l2cDisconnRsp (cid cause : Nat)
  | l2cDataInd (ind : DataInd)
  | authenRsp (dlci cid cause : Nat) (outgoing : Bool)
  | waitRspTimeout (id : Nat)
  | waitMscTimeout (id : Nat)
  | connReq (bdAddr serverChann serviceId frameSize maxCredits : Nat)
  | connCfm (bdAddr dlci status frameSize maxCredits : Nat)
  | disconnReq (bdAddr dlci : Nat)
  | setErtmMode (enable : Bool)
  | resources (allocs bufs : List Bool)

def Event.step (db : Db) : Event → Db
  | .l2cConnInd bdAddr cid => rfcHandleL2cConnInd bdAddr cid db
  | .l2cConnRsp bdAddr cid cause => rfcHandleL2cConnRsp bdAddr cid cause db
  | .l2cConnCmpl cid cause remoteMtu dsDataOffset =>
    rfcHandleL2cConnCmpl cid cause remoteMtu dsDataOffset db
  | .l2cDisconnInd cid cause => rfcHandleL2cDisconnInd cid cause db
  | .l2cDisconnRsp cid cause => rfcHandleL2cDisconnRsp cid cause db
  | .l2cDataInd ind => rfcHandleL2cDataInd ind db
  | .authenRsp dlci cid cause outgoing => rfcHandleAuthenRsp dlci cid cause outgoing db
  | .waitRspTimeout id =>
    if db.channList.any fun chann => chann.id = id && chann.waitRspTimer then
      rfcWaitRspTimeout id db
    else
      db
  | .waitMscTimeout id =>
    if db.channList.any fun chann => chann.id = id && chann.waitMscTimer then
      rfcWaitMscTimeout id db
    else
      db
  | .connReq bdAddr serverChann serviceId frameSize maxCredits =>
    (rfcConnReq bdAddr serverChann serviceId frameSize maxCredits db).1
  | .connCfm bdAddr dlci status frameSize maxCredits =>
    rfcConnCfm bdAddr dlci status frameSize maxCredits db
  | .disconnReq bdAddr dlci => (rfcDisconnReq bdAddr dlci db).1
  | .setErtmMode enable => { db with enableErtm := enable }
  | .resources allocs bufs => { db with allocs := allocs, bufs := bufs }

end Rfc
