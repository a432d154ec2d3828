import Earphone.Roleswap.Basic

namespace Roleswap

open Layout

inductive Kind where
  | conn (type : DataType)
  | disconn (type : DataType)
  | transact (type : DataType)
  | a2dpStreamConn
  | a2dpStreamDisconn
  | ctrlTokenReq
  | ctrlTokenRsp
  | ctrlDisconnSniffingReq

def Kind.ofCodes : Nat → Nat → Option Kind
  | 0x00, 0 => some (.conn .acl)
  | 0x00, 1 => some (.disconn .acl)
  | 0x00, 2 => some (.transact .acl)
  | 0x02, 0 => some (.conn .sm)
  | 0x02, 2 => some (.transact .sm)
  | 0x03, 0 => some (.conn .l2c)
  | 0x04, 0 => some (.conn .rfcCtrl)
  | 0x04, 2 => some (.conn .rfcData)
  | 0x04, 4 => some (.transact .rfcData)
  | 0x05, 0 => some (.conn .a2dp)
  | 0x05, 1 => some (.disconn .a2dp)
  | 0x05, 2 => some .a2dpStreamConn
  | 0x05, 3 => some .a2dpStreamDisconn
  | 0x05, 4 => some (.transact .a2dp)
  | 0x06, 0 => some (.conn .avrcp)
  | 0x06, 1 => some (.disconn .avrcp)
  | 0x06, 2 => some (.transact .avrcp)
  | 0x07, 0 => some (.conn .hfp)
  | 0x07, 1 => some (.disconn .hfp)
  | 0x07, 2 => some (.transact .hfp)
  | 0x08, 0 => some (.conn .spp)
  | 0x08, 1 => some (.disconn .spp)
  | 0x08, 2 => some (.transact .spp)
  | 0x09, 0 => some (.conn .pbap)
  | 0x09, 1 => some (.disconn .pbap)
  | 0x09, 2 => some (.transact .pbap)
  | 0x0A, 0 => some (.conn .hidDevice)
  | 0x0A, 1 => some (.disconn .hidDevice)
  | 0x0A, 2 => some (.transact .hidDevice)
  | 0x0B, 0 => some (.conn .hidHost)
  | 0x0B, 1 => some (.disconn .hidHost)
  | 0x0B, 2 => some (.transact .hidHost)
  | 0x0C, 0 => some (.conn .iap)
  | 0x0C, 1 => some (.disconn .iap)
  | 0x0C, 2 => some (.transact .iap)
  | 0x0D, 0 => some (.conn .avp)
  | 0x0D, 1 => some (.disconn .avp)
  | 0x0D, 2 => some (.transact .avp)
  | 0x0E, 0 => some .ctrlTokenReq
  | 0x0E, 1 => some .ctrlTokenRsp
  | 0x0E, 2 => some .ctrlDisconnSniffingReq
  | 0x0F, 0 => some (.conn .btRfc)
  | 0x0F, 1 => some (.disconn .btRfc)
  | 0x10, 0 => some (.conn .att)
  | 0x10, 1 => some (.disconn .att)
  | 0x10, 2 => some (.transact .att)
  | _, _ => none

def transactStruct : DataType → Struct × List Field
  | .acl => (.aclTransact, [.role, .mode, .linkPolicy, .supervTout, .authenState, .encryptState])
  | .rfcData => (.rfcTransact, [.givenCredits, .remoteRemainCredits])
  | .spp => (.sppTransact, [.state, .remoteCredit])
  | .a2dp => (.a2dpTransact, [.sigState, .state, .txTransLabel, .rxStartTransLabel, .lastSeqNumber,
    .cmdFlag, .codecType, .codecInfo])
  | .avrcp => (.avrcpTransact, [.avctpState, .state, .playStatus, .cmdCredits, .transactLabel,
    .volChangePendingTransact])
  | .hfp => (.hfpTransact, [.state, .battReportType, .atCmdCredits, .currCallStatus,
    .prevCallStatus, .serviceStatus, .supportedFeatures, .codecType])
  | .pbap => (.pbapTransact, [.obexState, .pbapState, .path, .repos])
  | .hidDevice => (.hidDeviceTransact, [.controlState, .interruptState, .protoMode])
  | .hidHost => (.hidHostTransact, [.controlState, .interruptState, .protoMode])
  | .iap => (.iapTransact, [.remoteCredit, .state, .accPktSeq, .ackedSeq, .devPktSeq])
  | .avp => (.avpTransact, [.state])
  | .att => (.attTransact, [.state])
  | type => (type.info, [])

def transactKey : DataType → Option Field
  | .rfcData => some .dlci
  | .spp => some .localServerChann
  | _ => none

def Kind.length : Kind → Nat
  | .conn type => type.info.size
  | .disconn .acl => 6
  | .disconn .spp | .disconn .btRfc => 9
  | .disconn _ => 8
  | .transact type => (transactStruct type).1.size
  | .a2dpStreamConn => Struct.a2dpInfo.size
  | .a2dpStreamDisconn => 8
  | .ctrlTokenReq => 1
  | .ctrlTokenRsp => 0
  | .ctrlDisconnSniffingReq => 6

def readAddr (bud : Bud) : Bud :=
  if bud.roleswapInfoList.isEmpty then bud else bud.read (Span.places ⟨0, 6⟩)

def connKey : DataType → Option Field
  | .l2c => some .localCid
  | .rfcCtrl => some .l2cCid
  | .rfcData => some .dlci
  | .spp => some .rfcDlci
  | .btRfc => some .dlci
  | _ => none

def keyPlaces (s : Struct) (key : Option Field) : List Nat :=
  match key with
  | none => []
  | some f => (s.span f).places

def sameKey (type : DataType) (s : Struct) (key : Option Field) (info : Bytes) : Data → Bool :=
  match key with
  | none => ofType type
  | some f => keyed type f (s.get f info)

def storeData (bdAddr : Nat) (type : DataType) (p : Data → Bool) (f : Bytes → Bytes)
    (places : List Nat) (bud : Bud) : Bud :=
  let bud := (bud.modify bdAddr p f).act [.store bdAddr type]
  { bud with log := { bud.log with stores := bud.log.stores ++ places } }

def storeConn (type : DataType) (len : Nat) (info : Bytes) (bud : Bud) : Bud :=
  let bdAddr := type.info.get .bdAddr info
  let same := sameKey type type.info (connKey type) info
  match bud.find bdAddr same with
  | some _ =>
    storeData bdAddr type same (blit info 0 0 type.info.size) (List.range type.info.size)
      (bud.read (List.range type.info.size))
  | none => btRoleswapInfoAlloc bdAddr type info len bud

def recvConn (type : DataType) (after : Nat → List Act) (len : Nat) (info : Bytes) (bud : Bud) :
    Bud :=
  let bud := storeConn type len info (readAddr (bud.read (keyPlaces type.info (connKey type))))
  if bud.sniffingLink then
    (bud.read (List.range type.info.size)).act (after (type.info.get .bdAddr info))
  else
    bud

def copyFields (src dst : Struct) (fields : List Field) (info u : Bytes) : Bytes :=
  fields.foldl
    (fun u f => blit info (src.span f).offset (dst.span f).offset (dst.span f).size u) u

def recvStore (type : DataType) (src : Struct) (key : Option Field) (f : Bytes → Bytes → Bytes)
    (reads stores : List Nat) (info : Bytes) (bud : Bud) : Bud :=
  let bdAddr := src.get .bdAddr info
  let same := sameKey type src key info
  let bud := readAddr (bud.read (keyPlaces src key))
  match bud.find bdAddr same with
  | none => bud
  | some _ => storeData bdAddr type same (f info) stores (bud.read reads)

def recvFields (type : DataType) (src : Struct) (key : Option Field) (fields : List Field) :
    Bytes → Bud → Bud :=
  recvStore type src key (copyFields src type.info fields)
    (fields.flatMap fun f => (src.span f).places)
    (fields.flatMap fun f => (type.info.span f).places)

def recvSmUpdate : Bytes → Bud → Bud :=
  recvStore .sm .smInfo none (fun info => blit info 0 0 Struct.smInfo.size)
    (List.range Struct.smInfo.size) (List.range Struct.smInfo.size)

def findOrAllocBase (bdAddr : Nat) (bud : Bud) : Bud :=
  match bud.btRoleswapInfoBaseFind bdAddr with
  | some _ => bud
  | none => (bud.read (Span.places ⟨0, 6⟩)).btRoleswapInfoBaseAlloc bdAddr

def recvAclConn (len : Nat) (info : Bytes) (bud : Bud) : Bud :=
  let bdAddr := Struct.aclInfo.get .bdAddr info
  let bud := findOrAllocBase bdAddr (readAddr bud)
  match bud.btRoleswapInfoBaseFind bdAddr with
  | none => bud
  | some _ =>
    match bud.find bdAddr (ofType .acl) with
    | some _ =>
      recvFields .acl .aclInfo none [.bdType, .connType, .role, .mode, .linkPolicy, .supervTout,
        .authenState, .encryptState] info bud
    | none => btRoleswapInfoAlloc bdAddr .acl info len bud

def btSniffingFreeRfc (bdAddr dlci : Nat) (bud : Bud) : Bud :=
  match bud.find bdAddr (isRfcData dlci) with
  | none => bud
  | some data =>
    let cid := Struct.rfcDataInfo.get .l2cCid data.u
    let bud := (bud.btRoleswapInfoFree bdAddr .rfcData (isRfcData dlci)).act [.delRfcData dlci cid]
    match bud.find bdAddr (isRfcDataOn cid) with
    | some _ => bud
    | none =>
      match bud.find bdAddr (isRfcCtrl cid) with
      | none => bud
      | some _ =>
        let bud := (bud.btRoleswapInfoFree bdAddr .rfcCtrl (isRfcCtrl cid)).act [.delRfcCtrl bdAddr]
        (btRoleswapL2cInfoFree bdAddr cid bud).act [.delL2cInfo cid]

def freeL2c (bdAddr cid : Nat) (bud : Bud) : Bud :=
  (btRoleswapL2cInfoFree bdAddr cid bud).act [.delL2cInfo cid]

def freeBelow (bdAddr : Nat) (data : Data) (bud : Bud) : Bud :=
  match data.type with
  | .a2dp =>
    let bud := freeL2c bdAddr (Struct.a2dpInfo.get .sigCid data.u) bud
    if Struct.a2dpInfo.get .streamCid data.u ≠ 0 then
      freeL2c bdAddr (Struct.a2dpInfo.get .streamCid data.u) bud
    else
      bud
  | .avrcp => freeL2c bdAddr (Struct.avrcpInfo.get .l2cCid data.u) bud
  | .hfp => btSniffingFreeRfc bdAddr (Struct.hfpInfo.get .rfcDlci data.u) bud
  | .pbap =>
    if Struct.pbapInfo.get .obexPsm data.u ≠ 0 then
      freeL2c bdAddr (Struct.pbapInfo.get .l2cCid data.u) bud
    else
      btSniffingFreeRfc bdAddr (Struct.pbapInfo.get .rfcDlci data.u) bud
  | .hidDevice =>
    freeL2c bdAddr (Struct.hidDeviceInfo.get .interruptCid data.u) <|
      freeL2c bdAddr (Struct.hidDeviceInfo.get .controlCid data.u) bud
  | .hidHost =>
    freeL2c bdAddr (Struct.hidHostInfo.get .interruptCid data.u) <|
      freeL2c bdAddr (Struct.hidHostInfo.get .controlCid data.u) bud
  | .iap => btSniffingFreeRfc bdAddr (Struct.iapInfo.get .dlci data.u) bud
  | .avp => freeL2c bdAddr (Struct.avpInfo.get .l2cCid data.u) bud
  | .att =>
    freeL2c bdAddr (Struct.attInfo.get .l2cCid data.u) <|
      bud.act [.delGattInfo bdAddr (Struct.attInfo.get .l2cCid data.u)]
  | _ => bud

def recvDisconn (type : DataType) (info : Bytes) (bud : Bud) : Bud :=
  let bdAddr := load ⟨0, 6⟩ info
  let bud := readAddr bud
  match bud.find bdAddr (ofType type) with
  | none => bud
  | some data =>
    freeBelow bdAddr data <|
      ((bud.btRoleswapInfoFree bdAddr type (ofType type)).read (Span.places ⟨6, 2⟩)).act
        [.delInfo bdAddr type (load ⟨6, 2⟩ info)]

def recvAclDisconn (info : Bytes) (bud : Bud) : Bud :=
  let bdAddr := load ⟨0, 6⟩ info
  let bud := readAddr bud
  match bud.btRoleswapInfoBaseFind bdAddr with
  | none => bud
  | some _ => bud.btRoleswapInfoBaseFree bdAddr

def recvSppDisconn (info : Bytes) (bud : Bud) : Bud :=
  let bdAddr := load ⟨0, 6⟩ info
  let localServerChann := load ⟨8, 1⟩ info
  let bud := bud.read (List.range 9)
  match bud.find bdAddr (isSpp localServerChann) with
  | none => bud
  | some data =>
    btSniffingFreeRfc bdAddr (Struct.sppInfo.get .rfcDlci data.u) <|
      (bud.act [.delInfo bdAddr .spp (load ⟨6, 2⟩ info)]).btRoleswapInfoFree bdAddr .spp
        (isSpp localServerChann)

def recvBtRfcDisconn (info : Bytes) (bud : Bud) : Bud :=
  let bdAddr := load ⟨0, 6⟩ info
  let localServerChann := load ⟨6, 1⟩ info
  let bud := bud.read (List.range 7)
  match bud.find bdAddr (isBtRfc localServerChann) with
  | none => bud
  | some data =>
    btSniffingFreeRfc bdAddr (Struct.btRfcInfo.get .dlci data.u) <|
      (bud.act [.delInfo bdAddr .btRfc 0]).btRoleswapInfoFree bdAddr .btRfc
        (isBtRfc localServerChann)

def recvA2dpStreamDisconn (info : Bytes) (bud : Bud) : Bud :=
  let bdAddr := load ⟨0, 6⟩ info
  let bud := readAddr bud
  match bud.find bdAddr (ofType .a2dp) with
  | none => bud
  | some data =>
    let span := Struct.a2dpInfo.span .streamCid
    freeL2c bdAddr (Struct.a2dpInfo.get .streamCid data.u) <|
      storeData bdAddr .a2dp (ofType .a2dp) (blit (fun _ => 0) 0 span.offset span.size) span.places
        bud

def btSniffingRecvCtrl (kind : Kind) (info : Bytes) (bud : Bud) : Bud :=
  match kind with
  | .ctrlTokenReq =>
    if bud.role = .secondary then
      (bud.read [0]).act [.stopAfterRoleswap (load ⟨0, 1⟩ info), .sendTokenRsp]
    else
      bud
  | .ctrlTokenRsp => bud.act [.tokenRsp]
  | .ctrlDisconnSniffingReq =>
    if bud.role = .primary then
      if bud.state = .recoveryConnected then
        bud.act [.disconnRecovery, .sendDisconnSniffingReq]
      else
        bud
    else if bud.role = .secondary then
      if bud.state = .sniffingConnected || bud.state = .setupRecovery ||
          bud.state = .recoveryConnected then
        bud.act [.disconnSniffing]
      else
        bud
    else
      bud
  | _ => bud

def afterConn (type : DataType) (bdAddr : Nat) : List Act :=
  match type with
  | .l2c | .sm | .rfcCtrl | .rfcData | .avp | .att | .btRfc => [.setInfo bdAddr type]
  | _ => [.setInfo bdAddr type, .connCmpl bdAddr type]

def handleKind (kind : Kind) (len : Nat) (info : Bytes) (bud : Bud) : Bud :=
  match kind with
  | .conn .acl => recvAclConn len info bud
  | .conn .btRfc => recvConn .btRfc (afterConn .btRfc) Struct.btRfcInfo.size info bud
  | .conn type => recvConn type (afterConn type) len info bud
  | .a2dpStreamConn => recvConn .a2dp (fun bdAddr => [.setInfo bdAddr .a2dp]) len info bud
  | .disconn .acl => recvAclDisconn info bud
  | .disconn .spp => recvSppDisconn info bud
  | .disconn .btRfc => recvBtRfcDisconn info bud
  | .disconn type => recvDisconn type info bud
  | .a2dpStreamDisconn => recvA2dpStreamDisconn info bud
  | .transact .sm => recvSmUpdate info bud
  | .transact type =>
    recvFields type (transactStruct type).1 (transactKey type) (transactStruct type).2 info bud
  | kind => btSniffingRecvCtrl kind info bud

def recvRecord (bud : Bud) (r : Record) : Bud :=
  match Kind.ofCodes r.module r.submodule with
  | none => bud
  | some kind => handleKind kind r.len r.info bud

def records (data : Bytes) (start n : Nat) : List Record :=
  if n < 4 then
    []
  else
    let len := load ⟨start + 2, 2⟩ data
    if len > n - 4 then
      []
    else
      { module := (data start).toNat
        submodule := (data (start + 1)).toNat
        len := len
        info := fun i => data (start + 4 + i) } :: records data (start + 4 + len) (n - (len + 4))
  termination_by n

def recvFrom (data : Bytes) (start n : Nat) (bud : Bud) : Bud :=
  if n < 4 then
    bud
  else
    let len := load ⟨start + 2, 2⟩ data
    if len > n - 4 then
      bud
    else
      recvFrom data (start + 4 + len) (n - (len + 4)) <| recvRecord bud
        { module := (data start).toNat
          submodule := (data (start + 1)).toNat
          len := len
          info := fun i => data (start + 4 + i) }
  termination_by n

def btSniffingRecv (data : Bytes) (dataLen : Nat) (bud : Bud) : Bud := recvFrom data 0 dataLen bud

end Roleswap
