import Earphone.Lib.First
import Earphone.Lib.Layout

/-!
This module contains the data model of the role swap database.
-/

namespace Roleswap

open Layout

inductive Field where
  | bdAddr | handle | bdType | connType | role | mode | linkPolicy | supervTout | authenState
  | encryptState | type | airMode | pktLen | state | secState | remoteAuthen | remoteIo | localCid
  | remoteCid | localMtu | remoteMtu | localMps | remoteMps | psm | l2cCid | mtuSize | linkInitiator
  | initiator | dataOffset | uuid | frameSize | dlci | remoteRemainCredits | givenCredits
  | initCredits | sigCid | streamCid | intFlag | intSeid | acpSeidIdx | acpSeid | delayReport
  | contentProect | sigState | txTransLabel | rxStartTransLabel | cmdFlag | lastSeqNumber | codecType
  | codecInfo | avctpState | playStatus | cmdCredits | transactLabel | volChangePendingTransact
  | vendorCmdTransact | rfcDlci | indicatorCnt | indicatorType | indicatorRange | cpbs
  | battReportType | atCmdCredits | currCallStatus | prevCallStatus | serviceStatus
  | supportedFeatures | localServerChann | remoteCredit | obexConnId | obexPsm | localMaxPktLen
  | remoteMaxPktLen | obexState | pbapState | featFlag | path | repos | protoMode | controlCid
  | controlState | controlRemoteMtu | controlDataOffset | interruptCid | interruptState
  | interruptRemoteMtu | interruptDataOffset | rfcFrameSize | devMaxPktLen | devRetransTout
  | devCumulativeAckTout | accPktSeq | ackedSeq | devPktSeq | devMaxOutPkt | devMaxRetrans
  | devMaxCumulativeAck | connHandle
  deriving DecidableEq

abbrev u8 (f : Field) : Member Field := { name := f, size := 1, align := 1 }

abbrev u16 (f : Field) : Member Field :=
  { name := f, size := 2, align := 2, align_pos := Nat.two_pos }

theorem align_four : 0 < 4 := by decide

abbrev u32 (f : Field) : Member Field :=
  { name := f, size := 4, align := 4, align_pos := align_four }

abbrev u8s (f : Field) (n : Nat) : Member Field := { name := f, size := n, align := 1 }

abbrev addr : Member Field := u8s .bdAddr 6

abbrev codec : Member Field :=
  { name := .codecInfo, size := 16, align := 4, align_pos := align_four }

inductive Struct where
  | aclInfo | aclTransact
  | scoInfo
  | smInfo
  | l2cInfo
  | rfcCtrlInfo
  | rfcDataInfo | rfcTransact
  | sppInfo | sppTransact
  | a2dpInfo | a2dpTransact
  | avrcpInfo | avrcpTransact
  | hfpInfo | hfpTransact
  | pbapInfo | pbapTransact
  | hidDeviceInfo | hidDeviceTransact
  | hidHostInfo | hidHostTransact
  | iapInfo | iapTransact
  | avpInfo | avpTransact
  | btRfcInfo
  | attInfo | attTransact

namespace Struct

def members : Struct → List (Member Field)
  | aclInfo => [addr, u16 .handle, u8 .bdType, u8 .connType, u8 .role, u8 .mode, u16 .linkPolicy,
    u16 .supervTout, u8 .authenState, u8 .encryptState]
  | aclTransact => [addr, u8 .role, u8 .mode, u16 .linkPolicy, u16 .supervTout, u8 .authenState,
    u8 .encryptState]
  | scoInfo => [addr, u16 .handle, u8 .type, u8 .airMode, u8 .pktLen]
  | smInfo => [addr, u32 .mode, u8 .state, u8 .secState, u8 .remoteAuthen, u8 .remoteIo]
  | l2cInfo => [addr, u16 .localCid, u16 .remoteCid, u16 .localMtu, u16 .remoteMtu, u16 .localMps,
    u16 .remoteMps, u16 .psm, u8 .role, u8 .mode]
  | rfcCtrlInfo => [addr, u16 .l2cCid, u16 .mtuSize, u8 .linkInitiator, u8 .initiator,
    u8 .dataOffset]
  | rfcDataInfo => [addr, u16 .uuid, u16 .frameSize, u16 .l2cCid, u8 .dlci, u8 .remoteRemainCredits,
    u8 .givenCredits, u8 .initCredits]
  | rfcTransact => [addr, u8 .dlci, u8 .remoteRemainCredits, u8 .givenCredits]
  | sppInfo => [addr, u16 .l2cCid, u16 .frameSize, u8 .rfcDlci, u8 .localServerChann, u8 .state,
    u8 .remoteCredit]
  | sppTransact => [addr, u8 .localServerChann, u8 .state, u8 .remoteCredit]
  | a2dpInfo => [addr, u16 .sigCid, u16 .streamCid, u8 .intFlag, u8 .intSeid, u8 .acpSeidIdx,
    u8 .acpSeid, u8 .delayReport, u8 .dataOffset, u8 .contentProect, u8 .sigState, u8 .state,
    u8 .txTransLabel, u8 .rxStartTransLabel, u8 .cmdFlag, u16 .lastSeqNumber, u8 .codecType,
    u8 .role, codec]
  | a2dpTransact => [addr, u8 .sigState, u8 .state, u8 .txTransLabel, u8 .rxStartTransLabel,
    u16 .lastSeqNumber, u8 .cmdFlag, u8 .codecType, codec]
  | avrcpInfo => [addr, u16 .l2cCid, u16 .remoteMtu, u8 .dataOffset, u8 .avctpState, u8 .state,
    u8 .playStatus, u8 .cmdCredits, u8 .transactLabel, u8 .volChangePendingTransact,
    u8 .vendorCmdTransact]
  | avrcpTransact => [addr, u8 .avctpState, u8 .state, u8 .playStatus, u8 .cmdCredits,
    u8 .transactLabel, u8 .volChangePendingTransact]
  | hfpInfo => [addr, u16 .l2cCid, u16 .uuid, u8 .rfcDlci, u8 .indicatorCnt, u8s .indicatorType 20,
    u8s .indicatorRange 20, u16 .cpbs, u16 .frameSize, u8 .state, u8 .battReportType,
    u8 .atCmdCredits, u8 .currCallStatus, u8 .prevCallStatus, u8 .serviceStatus,
    u8 .supportedFeatures, u8 .codecType]
  | hfpTransact => [addr, u8 .state, u8 .battReportType, u8 .atCmdCredits, u8 .currCallStatus,
    u8 .prevCallStatus, u8 .serviceStatus, u8 .supportedFeatures, u8 .codecType]
  | pbapInfo => [addr, u16 .l2cCid, u32 .obexConnId, u16 .obexPsm, u16 .localMaxPktLen,
    u16 .remoteMaxPktLen, u8 .obexState, u8 .rfcDlci, u8 .pbapState, u8 .featFlag, u8 .dataOffset,
    u8 .path, u8 .repos]
  | pbapTransact => [addr, u8 .obexState, u8 .pbapState, u8 .path, u8 .repos]
  | hidDeviceInfo | hidHostInfo => [addr, u8 .protoMode, u16 .controlCid, u8 .controlState,
    u16 .controlRemoteMtu, u16 .controlDataOffset, u16 .interruptCid, u8 .interruptState,
    u16 .interruptRemoteMtu, u16 .interruptDataOffset]
  | hidDeviceTransact | hidHostTransact => [addr, u8 .protoMode, u8 .controlState,
    u8 .interruptState]
  | iapInfo => [addr, u16 .rfcFrameSize, u8 .dlci, u8 .remoteCredit, u8 .state, u16 .devMaxPktLen,
    u16 .devRetransTout, u16 .devCumulativeAckTout, u8 .accPktSeq, u8 .ackedSeq, u8 .devPktSeq,
    u8 .devMaxOutPkt, u8 .devMaxRetrans, u8 .devMaxCumulativeAck]
  | iapTransact => [addr, u8 .remoteCredit, u8 .state, u8 .accPktSeq, u8 .ackedSeq, u8 .devPktSeq]
  | avpInfo => [addr, u16 .l2cCid, u8 .state, u8 .dataOffset]
  | avpTransact => [addr, u8 .state]
  | btRfcInfo => [addr, u8 .localServerChann, u8 .dlci]
  | attInfo => [addr, u16 .l2cCid, u8 .state, u8 .dataOffset, u16 .remoteMtu, u16 .localMtu,
    u16 .connHandle]
  | attTransact => [addr, u8 .state]

def size (s : Struct) : Nat := sizeof s.members

def span (s : Struct) (f : Field) : Span := Layout.span s.members f

def get (s : Struct) (f : Field) (m : Bytes) : Nat := load (s.span f) m

def set (s : Struct) (f : Field) (v : Nat) (m : Bytes) : Bytes := store (s.span f) v m

end Struct

inductive DataType where
  | acl | sco | sm | l2c | rfcCtrl | rfcData | a2dp | avrcp | hfp | spp | pbap | hidDevice | hidHost
  | iap | avp | btRfc | att
  deriving DecidableEq

def DataType.info : DataType → Struct
  | acl => .aclInfo
  | sco => .scoInfo
  | sm => .smInfo
  | l2c => .l2cInfo
  | rfcCtrl => .rfcCtrlInfo
  | rfcData => .rfcDataInfo
  | a2dp => .a2dpInfo
  | avrcp => .avrcpInfo
  | hfp => .hfpInfo
  | spp => .sppInfo
  | pbap => .pbapInfo
  | hidDevice => .hidDeviceInfo
  | hidHost => .hidHostInfo
  | iap => .iapInfo
  | avp => .avpInfo
  | btRfc => .btRfcInfo
  | att => .attInfo

def DataType.all : List DataType :=
  [acl, sco, sm, l2c, rfcCtrl, rfcData, a2dp, avrcp, hfp, spp, pbap, hidDevice, hidHost, iap, avp,
    btRfc, att]

def unionSize : Nat := (DataType.all.map fun t => t.info.size).foldr max 0

structure Data where
  type : DataType
  length : Nat
  u : Bytes

structure Info where
  bdAddr : Nat
  infoList : List Data

inductive SessionRole where
  | single
  | primary
  | secondary
  deriving DecidableEq

inductive SniffingState where
  | idle
  | setupSniffing
  | sniffingConnected
  | setupRecovery
  | recoveryConnected
  | disconnRecovery
  | coordinatedRoleswap
  | uncoordinatedRoleswap
  | idleRoleswap
  deriving DecidableEq

structure Record where
  module : Nat
  submodule : Nat
  len : Nat
  info : Bytes

inductive Act where
  | baseAlloc (bdAddr : Nat)
  | baseFree (bdAddr : Nat)
  | alloc (bdAddr : Nat) (type : DataType)
  | free (bdAddr : Nat) (type : DataType)
  | store (bdAddr : Nat) (type : DataType)
  | setInfo (bdAddr : Nat) (type : DataType)
  | connCmpl (bdAddr : Nat) (type : DataType)
  | delInfo (bdAddr : Nat) (type : DataType) (cause : Nat)
  | delL2cInfo (cid : Nat)
  | delGattInfo (bdAddr cid : Nat)
  | delRfcData (dlci cid : Nat)
  | delRfcCtrl (bdAddr : Nat)
  | getL2cInfo (cid : Nat)
  | stopAfterRoleswap (value : Nat)
  | tokenRsp
  | sendTokenRsp
  | disconnSniffing
  | disconnRecovery
  | sendDisconnSniffingReq

structure Log where
  reads : List Nat := []
  stores : List Nat := []
  acts : List Act := []
  sent : List Record := []

structure Bud where
  roleswapInfoList : List Info := []
  role : SessionRole
  state : SniffingState := .idle
  sniffingLink : Bool := false
  allocs : List Bool := []
  log : Log := {}

namespace Bud

def read (bud : Bud) (places : List Nat) : Bud :=
  { bud with log := { bud.log with reads := bud.log.reads ++ places } }

def act (bud : Bud) (acts : List Act) : Bud :=
  { bud with log := { bud.log with acts := bud.log.acts ++ acts } }

def btRoleswapInfoBaseFind (bdAddr : Nat) (bud : Bud) : Option Info :=
  bud.roleswapInfoList.find? (·.bdAddr = bdAddr)

def find (bdAddr : Nat) (p : Data → Bool) (bud : Bud) : Option Data :=
  (bud.btRoleswapInfoBaseFind bdAddr).bind fun base => base.infoList.find? p

def modifyBase (bdAddr : Nat) (f : List Data → List Data) (bud : Bud) : Bud :=
  { bud with
    roleswapInfoList := First.modify (·.bdAddr = bdAddr)
      (fun base => { base with infoList := f base.infoList }) bud.roleswapInfoList }

def modify (bdAddr : Nat) (p : Data → Bool) (f : Bytes → Bytes) (bud : Bud) : Bud :=
  bud.modifyBase bdAddr <| First.modify p fun data => { data with u := f data.u }

def btRoleswapInfoFree (bdAddr : Nat) (type : DataType) (p : Data → Bool) (bud : Bud) : Bud :=
  (bud.modifyBase bdAddr (List.eraseP p)).act [.free bdAddr type]

def btRoleswapInfoBaseAlloc (bdAddr : Nat) (bud : Bud) : Bud :=
  let bud' : Bud := { bud with allocs := bud.allocs.tail }
  if bud.allocs.headD true then
    let base : Info := { bdAddr := bdAddr, infoList := [] }
    { bud' with roleswapInfoList := bud.roleswapInfoList ++ [base] }.act [.baseAlloc bdAddr]
  else
    bud'

def btRoleswapInfoBaseFree (bdAddr : Nat) (bud : Bud) : Bud :=
  { bud with roleswapInfoList := bud.roleswapInfoList.eraseP (·.bdAddr = bdAddr) }.act
    [.baseFree bdAddr]

end Bud

def ofType (type : DataType) (data : Data) : Bool := data.type = type

def keyed (type : DataType) (key : Field) (value : Nat) (data : Data) : Bool :=
  data.type = type && type.info.get key data.u = value

def isL2c (cid : Nat) : Data → Bool := keyed .l2c .localCid cid

def isRfcCtrl (cid : Nat) : Data → Bool := keyed .rfcCtrl .l2cCid cid

def isRfcData (dlci : Nat) : Data → Bool := keyed .rfcData .dlci dlci

def isRfcDataOn (cid : Nat) : Data → Bool := keyed .rfcData .l2cCid cid

def isSpp (localServerChann : Nat) : Data → Bool := keyed .spp .localServerChann localServerChann

def isBtRfc (localServerChann : Nat) : Data → Bool :=
  keyed .btRfc .localServerChann localServerChann

def btRoleswapInfoAlloc (bdAddr : Nat) (type : DataType) (info : Bytes) (len : Nat) (bud : Bud) :
    Bud :=
  match bud.btRoleswapInfoBaseFind bdAddr with
  | none => bud
  | some _ =>
    if type = .rfcCtrl &&
        (bud.find bdAddr (isRfcCtrl (Struct.rfcCtrlInfo.get .l2cCid info))).isSome then
      bud
    else
      let bud' : Bud := { bud with allocs := bud.allocs.tail }
      if bud.allocs.headD true then
        let data : Data := { type := type, length := len, u := blit info 0 0 len fun _ => 0 }
        let bud' := (bud'.read (List.range len)).modifyBase bdAddr (· ++ [data])
        { bud' with log := { bud'.log with stores := bud'.log.stores ++ List.range len } }.act
          [.alloc bdAddr type]
      else
        bud'

def btRoleswapL2cInfoFree (bdAddr cid : Nat) (bud : Bud) : Bud :=
  match bud.find bdAddr (isL2c cid) with
  | none => bud
  | some _ => bud.btRoleswapInfoFree bdAddr .l2c (isL2c cid)

end Roleswap
