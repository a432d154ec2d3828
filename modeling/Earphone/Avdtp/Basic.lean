import Earphone.Lib.Run

/-!
This module contains the discovery of the endpoints of the remote side by the AVDTP signalling
channel.
-/

namespace Avdtp

abbrev Role := UInt8

def avdtpTsepSrc : Role := 0
def avdtpTsepSnk : Role := 1

def audioSrc : UInt8 := 0x00
def audioSnk : UInt8 := 0x08

def seidNotInUse : UInt8 := 0x00

def avdtpMsgTypeCmd : UInt8 := 0x00
def avdtpMsgTypeRspAccept : UInt8 := 0x02
def avdtpMsgTypeRspReject : UInt8 := 0x03

def avdtpDiscover : UInt8 := 0x01
def avdtpGetCpbs : UInt8 := 0x02
def avdtpSetCfg : UInt8 := 0x03
def avdtpRecfg : UInt8 := 0x05
def avdtpGetAllCpbs : UInt8 := 0x0C
def avdtpVersionV13 : Nat := 0x0103

def srvCategMediaTrans : UInt8 := 0x01
def srvCategCp : UInt8 := 0x04
def srvCategMediaCodec : UInt8 := 0x07
def srvCategDelayReport : UInt8 := 0x08

def categMediaTransMask : UInt8 := 0x01
def categCpMask : UInt8 := 0x08
def categMediaCodecMask : UInt8 := 0x40
def categDelayReportMask : UInt8 := 0x80

def sbcMediaCodecType : UInt8 := 0x00
def aacMediaCodecType : UInt8 := 0x02
def usacMediaCodecType : UInt8 := 0x03
def vendorCodecType : UInt8 := 0xff

def codecTypeSbc : UInt8 := 0x00
def codecTypeAac : UInt8 := 0x02
def codecTypeUsac : UInt8 := 0x03
def codecTypeLdac : UInt8 := 0xf0
def codecTypeLc3 : UInt8 := 0xf1
def codecTypeLhdc : UInt8 := 0xf2

def avdtpLc3CodecInfo : List UInt8 := [0x5d, 0x00, 0x00, 0x00, 0x08, 0x00]
def avdtpLdacCodecInfo : List UInt8 := [0x2d, 0x01, 0x00, 0x00, 0xaa, 0x00]
def avdtpLhdcV5CodecInfo : List UInt8 := [0x3a, 0x05, 0x00, 0x00, 0x35, 0x4c]

structure RemoteSep where
  sepId : UInt8
  cpbsMask : UInt8
  mediaType : UInt8
  mediaCodecType : UInt8
  mediaCodecSubtype : UInt8
  mediaCodecInfo : List UInt8
  cpbsOrder : List UInt8

/--
`sizeof(T_AVDTP_REMOTE_SEP)`: five octets, the twelve of `media_codec_info` and the eight of
`cpbs_order`.
-/
def remoteSepSize : Nat := 25

structure LocalSep where
  subCodecType : UInt8
  tsep : Role
  mediaCodecInfo : List UInt8

inductive SigState where
  | idle | cfg | opening | sigOpen | streaming | closing | aborting
  deriving DecidableEq

structure SepArray where
  size : Nat
  sep : Nat → RemoteSep

def SepArray.set (array : SepArray) (idx : Nat) (sep : RemoteSep) : SepArray :=
  { array with sep := fun k => if k = idx then sep else array.sep k }

inductive Request where
  | configure (idx : Nat)
  | reconfigure (idx : Nat)
  | disconnect

structure Link where
  avdtpVer : Nat
  connRole : Role
  connected : Bool
  timer : Bool
  avdtpSep : Option SepArray
  sigState : SigState
  intFlag : UInt8
  acpSeidIdx : Nat
  acpSeid : UInt8
  txTransLabel : UInt8
  acpSepNo : Nat
  cmdFlag : UInt8
  sent : List (List UInt8)
  requests : List Request

structure Env where
  heap : Option (Nat → RemoteSep)
  buf : Bool
  past : Nat → UInt8
  cfgSent : Bool

structure Rsp where
  trans : UInt8
  signal : UInt8
  payload : List UInt8
  length_lt : payload.length + 2 < 2 ^ 16
  ofWalk : signal &&& 0x3F = avdtpDiscover ∨ signal &&& 0x3F = avdtpGetCpbs ∨
    signal &&& 0x3F = avdtpGetAllCpbs

def Rsp.msgType (r : Rsp) : UInt8 := r.trans &&& 0x03
def Rsp.signalId (r : Rsp) : UInt8 := r.signal &&& 0x3F
def Rsp.pktLen (r : Rsp) : Nat := r.payload.length + 2

def Rsp.read (r : Rsp) (past : Nat → UInt8) (pos : Nat) : UInt8 :=
  (r.trans :: r.signal :: r.payload).getD pos (past pos)

def Link.sepAt (link : Link) (idx : Nat) : Option RemoteSep :=
  match link.avdtpSep with
  | none => none
  | some array => if remoteSepSize * (idx + 1) ≤ array.size then some (array.sep idx) else none

def Link.setSepAt (link : Link) (idx : Nat) (sep : RemoteSep) : Option Link :=
  match link.avdtpSep with
  | none => none
  | some array =>
    if remoteSepSize * (idx + 1) ≤ array.size then
      some { link with avdtpSep := some (array.set idx sep) }
    else
      none

section

variable (rd : Nat → UInt8)

def octets (pos n : Nat) : List UInt8 := (List.range n).map fun k => rd (pos + k)

def copyInfo (info : List UInt8) (pos n : Nat) : List UInt8 := octets rd pos n ++ info.drop n

def orderCategory (sep : RemoteSep) (i : Nat) (category mask : UInt8) : Option RemoteSep :=
  if i < 8 then
    some { sep with
      cpbsOrder := sep.cpbsOrder.set i category
      cpbsMask := sep.cpbsMask ||| mask }
  else
    none

def codecParse (pos : Nat) (sep : RemoteSep) : RemoteSep :=
  let sep := { sep with mediaType := (rd pos &&& 0xF0) >>> 4, mediaCodecType := rd (pos + 1) }
  if sep.mediaCodecType = sbcMediaCodecType then
    { sep with
      mediaCodecSubtype := codecTypeSbc
      mediaCodecInfo := copyInfo rd sep.mediaCodecInfo (pos + 2) 4 }
  else if sep.mediaCodecType = aacMediaCodecType then
    { sep with
      mediaCodecSubtype := codecTypeAac
      mediaCodecInfo := copyInfo rd sep.mediaCodecInfo (pos + 2) 6 }
  else if sep.mediaCodecType = usacMediaCodecType then
    { sep with
      mediaCodecSubtype := codecTypeUsac
      mediaCodecInfo := copyInfo rd sep.mediaCodecInfo (pos + 2) 7 }
  else if sep.mediaCodecType = vendorCodecType then
    if octets rd (pos + 2) 6 = avdtpLdacCodecInfo then
      { sep with
        mediaCodecSubtype := codecTypeLdac
        mediaCodecInfo := copyInfo rd sep.mediaCodecInfo (pos + 2) 8 }
    else if octets rd (pos + 2) 6 = avdtpLc3CodecInfo then
      { sep with
        mediaCodecSubtype := codecTypeLc3
        mediaCodecInfo := copyInfo rd sep.mediaCodecInfo (pos + 2) 9 }
    else if octets rd (pos + 2) 6 = avdtpLhdcV5CodecInfo then
      { sep with
        mediaCodecSubtype := codecTypeLhdc
        mediaCodecInfo := copyInfo rd sep.mediaCodecInfo (pos + 2) 11 }
    else
      sep
  else
    sep

def categoryParse (category : UInt8) (pos i : Nat) (sep : RemoteSep) : Option (Nat × RemoteSep) :=
  if category = srvCategMediaTrans then
    (orderCategory sep i category categMediaTransMask).map (i + 1, ·)
  else if category = srvCategCp then
    (orderCategory sep i category categCpMask).map (i + 1, ·)
  else if category = srvCategMediaCodec then
    (orderCategory sep i category categMediaCodecMask).map fun sep => (i + 1, codecParse rd pos sep)
  else if category = srvCategDelayReport then
    (orderCategory sep i category categDelayReportMask).map (i + 1, ·)
  else
    some (i, sep)

def capabilityLoop : Nat → Nat → Nat → Nat → RemoteSep → Option RemoteSep
  | 0, _, _, _, sep => some sep
  | fuel + 1, pos, capabilityLen, i, sep =>
    if capabilityLen = 0 then
      some sep
    else
      let serviceCategory := rd pos
      let serviceLen := (rd (pos + 1)).toNat
      match categoryParse rd serviceCategory (pos + 2) i sep with
      | none => none
      | some (i, sep) =>
        -- nothing checks that the service lies inside of what is left
        if serviceLen + 2 < capabilityLen then
          capabilityLoop fuel (pos + 2 + serviceLen) (capabilityLen - (serviceLen + 2)) i sep
        else
          some sep

def avdtpRemoteCapabilityParse (sep : RemoteSep) (pos capabilityLen : Nat) : Option RemoteSep :=
  capabilityLoop rd capabilityLen pos capabilityLen 0
    { sep with cpbsMask := 0, cpbsOrder := List.replicate 8 0xff }

end

section

variable (localSepList : List LocalSep) (role : Role)

def vendorHandlerCheck (codecType : UInt8) (remoteCodecInfo : List UInt8) : Bool :=
  localSepList.any fun sep =>
    sep.subCodecType == codecType &&
      (remoteCodecInfo.take 6 == sep.mediaCodecInfo.take 6 && sep.tsep != role)

def codecHandlerCheck (codecType : UInt8) : Bool :=
  localSepList.any fun sep => sep.subCodecType == codecType && sep.tsep != role

def avdtpVendorCodecLdacHandler (remoteCodecInfo : List UInt8) : Bool :=
  vendorHandlerCheck localSepList role codecTypeLdac remoteCodecInfo

def avdtpVendorCodecLc3Handler (remoteCodecInfo : List UInt8) : Bool :=
  vendorHandlerCheck localSepList role codecTypeLc3 remoteCodecInfo

def avdtpVendorCodecLhdcHandler (remoteCodecInfo : List UInt8) : Bool :=
  vendorHandlerCheck localSepList role codecTypeLhdc remoteCodecInfo

def avdtpCodecUsacHandler : Bool := codecHandlerCheck localSepList role codecTypeUsac
def avdtpCodecAacHandler : Bool := codecHandlerCheck localSepList role codecTypeAac
def avdtpCodecSbcHandler : Bool := codecHandlerCheck localSepList role codecTypeSbc

def vendorStops (sep : RemoteSep) : Bool :=
  sep.mediaCodecType == vendorCodecType &&
    if sep.mediaCodecSubtype = codecTypeLdac then
      avdtpVendorCodecLdacHandler localSepList role sep.mediaCodecInfo
    else if sep.mediaCodecSubtype = codecTypeLc3 then
      avdtpVendorCodecLc3Handler localSepList role sep.mediaCodecInfo
    else if sep.mediaCodecSubtype = codecTypeLhdc then
      avdtpVendorCodecLhdcHandler localSepList role sep.mediaCodecInfo
    else
      false

def usacStops (sep : RemoteSep) : Bool :=
  sep.mediaCodecType == usacMediaCodecType && avdtpCodecUsacHandler localSepList role

def aacStops (sep : RemoteSep) : Bool :=
  sep.mediaCodecType == aacMediaCodecType && avdtpCodecAacHandler localSepList role

def sbcStops (sep : RemoteSep) : Bool :=
  sep.mediaCodecType == sbcMediaCodecType && avdtpCodecSbcHandler localSepList role

end

def Link.search (link : Link) (stops : RemoteSep → Bool) : Nat → Nat → Option Nat
  | 0, i => some i
  | n + 1, i =>
    match link.sepAt i with
    | none => none
    | some sep => if stops sep then some i else link.search stops n (i + 1)

def Link.searchNext (link : Link) (stops : RemoteSep → Bool) (i : Nat) : Option Nat :=
  if i = link.acpSepNo then link.search stops link.acpSepNo 0 else some i

def Link.select (link : Link) (localSepList : List LocalSep) : Option Nat :=
  (((link.search (vendorStops localSepList link.connRole) link.acpSepNo 0).bind
    (link.searchNext (usacStops localSepList link.connRole))).bind
    (link.searchNext (aacStops localSepList link.connRole))).bind
    (link.searchNext (sbcStops localSepList link.connRole))

def avdtpSignalDisconnectReq (link : Link) : Link :=
  { link with requests := link.requests ++ [.disconnect] }

def cfgReq (env : Env) (request : Request) (signalId : UInt8) (link : Link) : Link :=
  let link := { link with requests := link.requests ++ [request] }
  if env.cfgSent then { link with cmdFlag := signalId, timer := true } else link

def avdtpSignalCfgReq (env : Env) (link : Link) : Link :=
  cfgReq env (.configure link.acpSeidIdx) avdtpSetCfg link

def avdtpSignalRecfgReq (env : Env) (link : Link) : Link :=
  cfgReq env (.reconfigure link.acpSeidIdx) avdtpRecfg link

def avdtpSignalGetCapabilityReq (env : Env) (link : Link) : Option Link :=
  if env.buf then
    let cmdFlag := if avdtpVersionV13 ≤ link.avdtpVer then avdtpGetAllCpbs else avdtpGetCpbs
    match link.sepAt link.acpSeidIdx with
    | none => none
    | some sep =>
      some { link with
        cmdFlag
        sent := link.sent ++ [[link.txTransLabel ||| avdtpMsgTypeCmd, cmdFlag, sep.sepId]]
        txTransLabel := link.txTransLabel + 0x10
        timer := true }
  else
    some link

section

variable (rd : Nat → UInt8)

def wantedSep (role : Role) (seid type : UInt8) : Bool :=
  seid &&& 0x02 == seidNotInUse &&
    (if role = avdtpTsepSrc then type &&& 0xF8 == audioSrc
    else if role = avdtpTsepSnk then type &&& 0xF8 == audioSnk
    else false)

def wanted (role : Role) (i : Nat) : Bool := wantedSep role (rd (2 + 2 * i)) (rd (3 + 2 * i))

def fillSeps (link : Link) : List Nat → Nat → Option Link
  | [], _ => some link
  | i :: is, j =>
    if wanted rd link.connRole i then
      match link.sepAt j with
      | none => none
      | some sep =>
        match link.setSepAt j { sep with sepId := rd (2 + 2 * i) &&& 0xFC } with
        | none => none
        | some link => if link.acpSepNo ≤ j + 1 then some link else fillSeps link is (j + 1)
    else
      fillSeps link is j

def discoverAccept (env : Env) (pktLen : Nat) (link : Link) : Option Link :=
  -- `temp` is a `uint8_t`, for the number of pairs as for the size of the array
  let temp := (pktLen - 2) / 2 % 2 ^ 8
  let acpSepNo := if 4 ≤ pktLen then (List.range temp).countP (wanted rd link.connRole) else 0
  let link := { link with acpSepNo }
  if acpSepNo ≠ 0 then
    match env.heap with
    | none => some { link with avdtpSep := none }
    | some heap =>
      let array := { size := acpSepNo * remoteSepSize % 2 ^ 8, sep := heap }
      match fillSeps rd { link with avdtpSep := some array } (List.range temp) 0 with
      | none => none
      | some link => avdtpSignalGetCapabilityReq env { link with acpSeidIdx := 0 }
  else
    some (avdtpSignalDisconnectReq link)

end

def configureSelected (localSepList : List LocalSep) (env : Env) (link : Link) : Option Link :=
  match link.select localSepList with
  | none => none
  | some i =>
    if i < link.acpSepNo then
      match link.sepAt i with
      | none => none
      | some sep =>
        let link := { link with acpSeidIdx := i, acpSeid := sep.sepId }
        -- in a state that is neither of the two nothing is requested
        if link.sigState = .idle then
          some (avdtpSignalCfgReq env link)
        else if link.sigState = .sigOpen then
          some (avdtpSignalRecfgReq env link)
        else
          some link
    else
      some (avdtpSignalDisconnectReq { link with sigState := .idle, intFlag := 0 })

def getCpbsAccept (localSepList : List LocalSep) (env : Env) (rd : Nat → UInt8) (pktLen : Nat)
    (link : Link) : Option Link :=
  match link.sepAt link.acpSeidIdx with
  | none => none
  | some sep =>
    match avdtpRemoteCapabilityParse rd sep 2 (pktLen - 2) with
    | none => none
    | some sep =>
      match link.setSepAt link.acpSeidIdx sep with
      | none => none
      | some link =>
        let link := { link with acpSeidIdx := (link.acpSeidIdx + 1) % 2 ^ 8 }
        if link.acpSeidIdx = link.acpSepNo then
          configureSelected localSepList env link
        else
          avdtpSignalGetCapabilityReq env link

def getCpbsReject (env : Env) (link : Link) : Option Link :=
  let link := { link with acpSeidIdx := (link.acpSeidIdx + 1) % 2 ^ 8 }
  -- unlike for an accepted answer, nothing follows the last endpoint
  if link.acpSeidIdx < link.acpSepNo then
    avdtpSignalGetCapabilityReq env link
  else
    some link

def avdtpRxRspProc (localSepList : List LocalSep) (env : Env) (r : Rsp) (link : Link) :
    Option Link :=
  if link.cmdFlag ≠ r.signalId then
    some link
  else
    let link := { link with cmdFlag := 0, timer := false }
    if r.msgType = avdtpMsgTypeRspAccept then
      if r.signalId = avdtpDiscover then
        discoverAccept (r.read env.past) env r.pktLen link
      else
        getCpbsAccept localSepList env (r.read env.past) r.pktLen link
    else if r.msgType = avdtpMsgTypeRspReject then
      if r.signalId = avdtpDiscover then
        some link
      else
        getCpbsReject env link
    else
      some link

def Link.Waits (link : Link) : Prop :=
  (link.cmdFlag = avdtpDiscover ∨ link.cmdFlag = avdtpGetCpbs ∨ link.cmdFlag = avdtpGetAllCpbs) ∧
    link.timer = true

instance (link : Link) : Decidable link.Waits := inferInstanceAs (Decidable (_ ∧ _))

def avdtpToutCback (link : Link) : Link :=
  let link := { link with timer := false }
  if link.connected then avdtpSignalDisconnectReq link else link

end Avdtp
