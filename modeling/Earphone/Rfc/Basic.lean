import Mathlib.Algebra.GroupWithZero.Nat
import Earphone.Lib.Table

/-!
This module contains the data model of RFCOMM.
-/

namespace Rfc

inductive DlciState where
  | idle
  | connecting
  | connected
  | disconnecting
  | disconnectPending
  | opened
  | configOutgoing
  | configIncoming
  | configAccepted
  deriving DecidableEq

inductive LinkState where
  | idle
  | connecting
  | connected
  | disconnectReq
  | disconnecting
  deriving DecidableEq

structure ServiceItem where
  id : Nat
  localServerChann : Nat
  serviceId : Nat

structure Chann where
  id : Nat
  ctrlChann : Option Nat := none
  service : Option Nat := none
  dlci : Nat := 0
  state : DlciState := .idle
  initiator : Bool := false
  linkState : LinkState := .idle
  l2cCid : Nat := 0
  mtuSize : Nat := 0
  bdAddr : Nat := 0
  linkInitiator : Bool := false
  mscHandshake : Nat := 0
  convergenceLayer : Nat := 0
  initCredits : Nat := 0
  frameSize : Nat := 0
  remoteRemainCredits : Nat := 0
  givenCredits : Nat := 0
  usFlowCtrl : Nat := 0
  usFlowBreak : Nat := 0
  usFlowActive : Nat := 0
  dsFlowCtrl : Nat := 0
  rls : Nat := 0
  waitRspTimer : Bool := false
  waitMscTimer : Bool := false
  deriving DecidableEq

inductive Octet where
  | known (n : Nat)
  | uninit
  deriving DecidableEq

structure Frame where
  cid : Nat
  addr : Nat
  ctl : Nat
  credits : Option Nat
  info : List Octet
  deriving DecidableEq

inductive Msg where
  | connInd (bdAddr dlci frameSize : Nat)
  | connCmpl (bdAddr dlci serviceId frameSize remainCredits : Nat)
  | disconnCmpl (bdAddr dlci cause : Nat)
  | dataInd (bdAddr dlci remainCredits : Nat) (buf : List Nat)
  | creditInfo (bdAddr dlci remainCredits : Nat)
  | dlciChange (bdAddr prevDlci currDlci : Nat)

inductive MpaReq where
  | l2cConnReq (bdAddr : Nat) (ertm : Bool)
  | l2cConnCfm (accept : Bool) (cid : Nat) (ertm : Bool)
  | l2cDisconnReq (cid : Nat)
  | l2cDisconnCfm (cid : Nat)
  | rfcAuthenReq (bdAddr cid dlci serviceId : Nat) (outgoing : Bool)

structure Log where
  reads : List Nat := []
  sent : List Frame := []
  posted : List (Nat × Msg) := []
  reqs : List MpaReq := []
  serviceReads : List (Option Nat) := []

structure Db where
  serviceList : List ServiceItem
  channList : List Chann := []
  dsOffset : Nat := 24
  enableErtm : Bool := false
  nextId : Nat := 0
  allocs : List Bool := []
  bufs : List Bool := []
  log : Log := {}

def rfcN1 : Nat := 127

def rfcSabm : Nat := 0x2F

def rfcUa : Nat := 0x63

def rfcDm : Nat := 0x0F

def rfcDisc : Nat := 0x43

def rfcUih : Nat := 0xEF

def rfcTypePn : Nat := 0x20

def rfcTypeTest : Nat := 0x08

def rfcTypeFcon : Nat := 0x28

def rfcTypeFcoff : Nat := 0x18

def rfcTypeMsc : Nat := 0x38

def rfcTypeNsc : Nat := 0x04

def rfcTypeRpn : Nat := 0x24

def rfcTypeRls : Nat := 0x14

def rfcSizePn : Nat := 8

def rfcRsvdSize : Nat := 6

def rfcConvergence0 : Nat := 0

def rfcConvergenceCreditReq : Nat := 15

def rfcConvergenceCreditCfm : Nat := 14

def rfcPollBit : Nat := 0x10

def rfcEaBit : Nat := 0x01

def rfcFlowBit : Nat := 0x02

def rfcMscCmdRcv : Nat := 0x01

def rfcMscRspRcv : Nat := 0x02

def rfcMscCmdOutgoing : Nat := 0x01

def rfcMscCmdPending : Nat := 0x02

def rfcErr : Nat := 0x0B00

def rfcSuccess : Nat := 0x00

def rfcErrTimeout : Nat := 0x01

def rfcErrNsc : Nat := 0x02

def rfcErrInvalidState : Nat := 0x03

def rfcErrRejectSecurity : Nat := 0x04

def rfcDefaultMtu : Nat := 330

def crc8EtsTable : List Nat :=
  [
    0x00, 0x91, 0xE3, 0x72, 0x07, 0x96, 0xE4, 0x75, 0x0E, 0x9F, 0xED, 0x7C, 0x09, 0x98, 0xEA, 0x7B,
    0x1C, 0x8D, 0xFF, 0x6E, 0x1B, 0x8A, 0xF8, 0x69, 0x12, 0x83, 0xF1, 0x60, 0x15, 0x84, 0xF6, 0x67,
    0x38, 0xA9, 0xDB, 0x4A, 0x3F, 0xAE, 0xDC, 0x4D, 0x36, 0xA7, 0xD5, 0x44, 0x31, 0xA0, 0xD2, 0x43,
    0x24, 0xB5, 0xC7, 0x56, 0x23, 0xB2, 0xC0, 0x51, 0x2A, 0xBB, 0xC9, 0x58, 0x2D, 0xBC, 0xCE, 0x5F,
    0x70, 0xE1, 0x93, 0x02, 0x77, 0xE6, 0x94, 0x05, 0x7E, 0xEF, 0x9D, 0x0C, 0x79, 0xE8, 0x9A, 0x0B,
    0x6C, 0xFD, 0x8F, 0x1E, 0x6B, 0xFA, 0x88, 0x19, 0x62, 0xF3, 0x81, 0x10, 0x65, 0xF4, 0x86, 0x17,
    0x48, 0xD9, 0xAB, 0x3A, 0x4F, 0xDE, 0xAC, 0x3D, 0x46, 0xD7, 0xA5, 0x34, 0x41, 0xD0, 0xA2, 0x33,
    0x54, 0xC5, 0xB7, 0x26, 0x53, 0xC2, 0xB0, 0x21, 0x5A, 0xCB, 0xB9, 0x28, 0x5D, 0xCC, 0xBE, 0x2F,
    0xE0, 0x71, 0x03, 0x92, 0xE7, 0x76, 0x04, 0x95, 0xEE, 0x7F, 0x0D, 0x9C, 0xE9, 0x78, 0x0A, 0x9B,
    0xFC, 0x6D, 0x1F, 0x8E, 0xFB, 0x6A, 0x18, 0x89, 0xF2, 0x63, 0x11, 0x80, 0xF5, 0x64, 0x16, 0x87,
    0xD8, 0x49, 0x3B, 0xAA, 0xDF, 0x4E, 0x3C, 0xAD, 0xD6, 0x47, 0x35, 0xA4, 0xD1, 0x40, 0x32, 0xA3,
    0xC4, 0x55, 0x27, 0xB6, 0xC3, 0x52, 0x20, 0xB1, 0xCA, 0x5B, 0x29, 0xB8, 0xCD, 0x5C, 0x2E, 0xBF,
    0x90, 0x01, 0x73, 0xE2, 0x97, 0x06, 0x74, 0xE5, 0x9E, 0x0F, 0x7D, 0xEC, 0x99, 0x08, 0x7A, 0xEB,
    0x8C, 0x1D, 0x6F, 0xFE, 0x8B, 0x1A, 0x68, 0xF9, 0x82, 0x13, 0x61, 0xF0, 0x85, 0x14, 0x66, 0xF7,
    0xA8, 0x39, 0x4B, 0xDA, 0xAF, 0x3E, 0x4C, 0xDD, 0xA6, 0x37, 0x45, 0xD4, 0xA1, 0x30, 0x42, 0xD3,
    0xB4, 0x25, 0x57, 0xC6, 0xB3, 0x22, 0x50, 0xC1, 0xBA, 0x2B, 0x59, 0xC8, 0xBD, 0x2C, 0x5E, 0xCF
  ]

def crc8EtsStep (fcs octet : Nat) : Nat := crc8EtsTable.getD (fcs ^^^ octet) 0

def crc8EtsGen (octets : List Nat) : Nat := 0xff - octets.foldl crc8EtsStep 0xff

def crc8EtsCheck (octets : List Nat) (rfcs : Nat) : Bool :=
  crc8EtsStep (octets.foldl crc8EtsStep 0xff) rfcs = 0xcf

def lengthField (len : Nat) : List Nat :=
  if len > 127 then
    [(len <<< 1) % 2 ^ 8, (len >>> 7) % 2 ^ 8]
  else
    [(len <<< 1) ||| rfcEaBit]

def Frame.bytes (f : Frame) : List Octet :=
  let header := f.addr :: f.ctl :: lengthField f.info.length
  let fcs := crc8EtsGen (header.take (if f.ctl &&& 0xEF = rfcUih then 2 else 3))
  (header ++ f.credits.toList).map .known ++ f.info ++ [.known fcs]

def Db.chann (db : Db) (id : Nat) :
    Chann := (Table.find? Chann.id db.channList id).getD { id := id }

def Db.ctrl (db : Db) (chann : Chann) : Chann :=
  match chann.ctrlChann with
  | none => { id := 0 }
  | some id => db.chann id

def Db.modify (db : Db) (id : Nat) (f : Chann → Chann) : Db :=
  { db with channList := Table.modify Chann.id db.channList id f }

def Db.req (db : Db) (r : MpaReq) : Db :=
  { db with log := { db.log with reqs := db.log.reqs ++ [r] } }

def rfcMsgPost (service : Option Nat) (msg : Msg) (db : Db) : Db :=
  match service with
  | some id =>
    if db.serviceList.any (·.id = id) then
      { db with log := { db.log with posted := db.log.posted ++ [(id, msg)] } }
    else
      db
  | none => db

def rfcFindChannByDlci (dlci cid : Nat) (db : Db) : Option Chann :=
  db.channList.find? fun chann => chann.dlci = dlci && (db.ctrl chann).l2cCid = cid

def rfcFindChannByAddr (bdAddr dlci : Nat) (db : Db) : Option Chann :=
  db.channList.find? fun chann => chann.dlci = dlci && (db.ctrl chann).bdAddr = bdAddr

def rfcFreeChann (chann : Chann) (cause : Nat) (db : Db) : Db :=
  let bdAddr := (db.ctrl chann).bdAddr
  let db := { db with channList := Table.erase Chann.id db.channList chann.id }
  if chann.dlci ≠ 0 then
    rfcMsgPost chann.service (.disconnCmpl bdAddr chann.dlci cause) db
  else
    db

def readServiceId (chann : Chann) (db : Db) : Nat × Db :=
  let serviceId := match db.serviceList.find? (some ·.id = chann.service) with
    | some item => item.serviceId
    | none => 0
  (serviceId, { db with log := { db.log with serviceReads := db.log.serviceReads ++ [chann.service] } })

def rfcSendAuthenReq (chann : Chann) (outgoing : Bool) (db : Db) : Db :=
  let (serviceId, db) := readServiceId chann db
  let ctrl := db.ctrl chann
  db.req (.rfcAuthenReq ctrl.bdAddr ctrl.l2cCid chann.dlci serviceId outgoing)

def rfcAllocChann (dlci : Nat) (db : Db) : Option Chann × Db :=
  let db' := { db with allocs := db.allocs.tail }
  if db.allocs.headD true then
    let chann : Chann :=
      { id := db.nextId
        dlci := dlci
        convergenceLayer := rfcConvergenceCreditReq
        frameSize := rfcN1 }
    (some chann, { db' with channList := db.channList ++ [chann], nextId := db.nextId + 1 })
  else
    (none, db')

def rfcInitCredits (credits : Nat) (chann : Chann) : Chann :=
  if chann.convergenceLayer = rfcConvergenceCreditReq ||
      chann.convergenceLayer = rfcConvergenceCreditCfm then
    { chann with
      initCredits := credits % 2 ^ 8
      givenCredits := if credits > 7 then (credits - 7) % 2 ^ 8 else 0 }
  else
    chann

def mpaGetL2cBuf (db : Db) : Bool × Db := (db.bufs.headD true, { db with bufs := db.bufs.tail })

def mpaSendL2cDataReq (frame : Frame) (db : Db) : Db :=
  { db with log := { db.log with sent := db.log.sent ++ [frame] } }

def checkSendCredits (db : Db) (id : Nat) : Db :=
  let chann := db.chann id
  if chann.convergenceLayer = rfcConvergenceCreditCfm &&
      chann.givenCredits > chann.initCredits / 2 then
    let (ok, db) := mpaGetL2cBuf db
    if ok then
      let ctrl := db.ctrl chann
      let frame : Frame :=
        { cid := ctrl.l2cCid
          addr := (chann.dlci <<< 2 ||| (if ctrl.initiator then 2 else 0) ||| rfcEaBit) % 2 ^ 8
          ctl := rfcUih ||| rfcPollBit
          credits := some chann.givenCredits
          info := [] }
      mpaSendL2cDataReq frame (db.modify id fun chann => { chann with givenCredits := 0 })
    else
      db
  else
    db

def rfcCheckSendCredits (db : Db) : Db := (db.channList.map Chann.id).foldl checkSendCredits db

def rfcSendFrame (ctrl : Chann) (dlci ctl : Nat) (cr poll : Bool) (data : List Octet) (db : Db) :
    Db :=
  if ctrl.linkState ≠ .connected then
    db
  else
    let (ok, db) := mpaGetL2cBuf db
    if ok then
      mpaSendL2cDataReq
        { cid := ctrl.l2cCid
          addr := ((dlci <<< 2) % 2 ^ 8 ||| rfcEaBit) ||| (if cr = ctrl.initiator then 2 else 0)
          ctl := if poll then ctl ||| rfcPollBit else ctl
          credits := none
          info := data }
        db
    else
      db

def rfcSendSabm (chann : Chann) (cmd poll : Bool) (db : Db) : Db :=
  rfcSendFrame (db.ctrl chann) chann.dlci rfcSabm cmd poll [] db

def rfcSendUa (chann : Chann) (cmd poll : Bool) (db : Db) : Db :=
  rfcSendFrame (db.ctrl chann) chann.dlci rfcUa cmd poll [] db

def rfcSendDm (ctrl : Chann) (dlci : Nat) (cmd poll : Bool) (db : Db) : Db :=
  rfcSendFrame ctrl dlci rfcDm cmd poll [] db

def rfcSendDisc (chann : Chann) (cmd poll : Bool) (db : Db) : Db :=
  rfcSendFrame (db.ctrl chann) chann.dlci rfcDisc cmd poll [] db

def uihCopied (len : Nat) : Nat := min len 30

/--
The multiplexer command `rfc_send_uih` builds. The length octet is written before the length is
limited.
-/
def uihBuf (type : Nat) (cr : Bool) (data : List Octet) (len : Nat) : List Octet :=
  .known ((type <<< 2 ||| cr.toNat <<< 1 ||| rfcEaBit) % 2 ^ 8) ::
    .known (((len <<< 1) + rfcEaBit) % 2 ^ 8) :: data.take (uihCopied len)

def rfcSendUih (chann : Chann) (type : Nat) (cr : Bool) (data : List Octet) (len : Nat) (db : Db) :
    Db :=
  rfcSendFrame (db.ctrl chann) chann.dlci rfcUih true false (uihBuf type cr data len) db

def rfcSendMsc (chann : Chann) (cr : Bool) (dlci status sbreak : Nat) (db : Db) : Db :=
  let addr := (dlci <<< 2 ||| 2 ||| rfcEaBit) % 2 ^ 8
  if sbreak &&& 1 ≠ 0 then
    rfcSendUih chann rfcTypeMsc cr [.known addr, .known status, .known sbreak] 3 db
  else
    rfcSendUih chann rfcTypeMsc cr
      [.known addr, .known (status ||| 0x80 ||| 0x08 ||| 0x04 ||| rfcEaBit)] 2 db

def rfcSendRls (chann : Chann) (cr : Bool) (dlci status : Nat) (db : Db) : Db :=
  rfcSendUih chann rfcTypeRls cr
    [.known ((dlci <<< 2 ||| 2 ||| rfcEaBit) % 2 ^ 8), .known (status ||| rfcEaBit)] 2 db

def isDataOf (ctrl : Nat) (chann : Chann) : Bool := chann.ctrlChann = some ctrl && chann.dlci ≠ 0

def closeDataChann (ctrl cause : Nat) (db : Db) (id : Nat) : Db :=
  let chann := db.chann id
  if isDataOf ctrl chann then rfcFreeChann chann cause db else db

def rfcCloseDataChann (ctrl cause : Nat) (db : Db) : Db :=
  rfcCheckSendCredits <| (db.channList.map Chann.id).foldl (closeDataChann ctrl cause) db

def rfcCheckDisconnCtrlChann (ctrl : Chann) (db : Db) : Db :=
  if db.channList.any fun chann =>
      chann.ctrlChann = some ctrl.id && chann.id ≠ ctrl.id && chann.state ≠ .idle then
    db
  else
    match ctrl.state with
    | .idle =>
      if ctrl.linkState = .connecting && ctrl.l2cCid = 0 then
        db.modify ctrl.id fun chann => { chann with linkState := .disconnectReq }
      else
        (db.req (.l2cDisconnReq ctrl.l2cCid)).modify ctrl.id
          fun chann => { chann with linkState := .disconnecting }
    | .connecting => db.modify ctrl.id fun chann => { chann with state := .disconnectPending }
    | .connected =>
      rfcSendDisc ctrl true true <| db.modify ctrl.id
        fun chann => { chann with state := .disconnecting, waitRspTimer := true }
    | _ => db

def disconnLink (chann : Chann) (cause : Nat) (db : Db) : Db :=
  ((rfcCloseDataChann chann.id cause db).req (.l2cDisconnReq chann.l2cCid)).modify chann.id
    fun chann => { chann with linkState := .disconnecting }

section

variable {db db' : Db} {dlci : Nat}

theorem alloc_some {chann : Chann} (h : rfcAllocChann dlci db = (some chann, db')) :
    db.allocs.headD true = true ∧
      chann = {
        id := db.nextId
        dlci
        convergenceLayer := rfcConvergenceCreditReq
        frameSize := rfcN1 } ∧
      db' = { db with
        allocs := db.allocs.tail
        channList := db.channList ++ [chann]
        nextId := db.nextId + 1 } := by
  unfold rfcAllocChann at h
  dsimp only at h
  split at h
  . next halloc =>
    cases h
    exact ⟨halloc, rfl, rfl⟩
  . cases h

theorem alloc_none (h : rfcAllocChann dlci db = (none, db')) :
    db.allocs.headD true = false ∧ db' = { db with allocs := db.allocs.tail } := by
  unfold rfcAllocChann at h
  dsimp only at h
  split at h
  . cases h
  . next halloc =>
    cases h
    exact ⟨Bool.eq_false_iff.mpr halloc, rfl⟩

end

theorem chann_modify (db : Db) (id i : Nat) {f : Chann → Chann} (hf : ∀ c, (f c).id = c.id)
    {α : Type}
    (g : Chann → α) (hg : ∀ c, g (f c) = g c) : g ((db.modify id f).chann i) = g (db.chann i) := by
  unfold Db.chann Db.modify
  rw [Table.find?_modify _ _ _ hf]
  cases Table.find? Chann.id db.channList i with
  | none => rfl
  | some c =>
    simp only [Option.map_some, Option.getD_some]
    split
    . exact hg c
    . rfl

theorem find_modify (db : Db) (dlci cid id : Nat)
    (hf : ∀ c, (f c).id = c.id ∧ (f c).ctrlChann = c.ctrlChann ∧ (f c).dlci = c.dlci ∧
      (f c).l2cCid = c.l2cCid) :
    rfcFindChannByDlci dlci cid (db.modify id f) =
      (rfcFindChannByDlci dlci cid db).map fun c => if c.id = id then f c else c := by
  have hl2c : ∀ c c' : Chann, c'.ctrlChann = c.ctrlChann →
      ((db.modify id f).ctrl c').l2cCid = (db.ctrl c).l2cCid := by
    intro c c' h
    unfold Db.ctrl
    rw [h]
    split
    . rfl
    . exact chann_modify db id _ (fun c => (hf c).1) Chann.l2cCid (fun c => (hf c).2.2.2)
  have hlist : (db.modify id f).channList =
    db.channList.map fun c => if c.id = id then f c else c := rfl
  unfold rfcFindChannByDlci
  rw [hlist, List.find?_map]
  congr 2
  funext c
  simp only [Function.comp]
  split
  . rw [(hf c).2.2.1, hl2c c (f c) (hf c).2.1]
  . rw [hl2c c c rfl]

theorem rfcSendFrame_channList (ctrl : Chann) (dlci ctl : Nat) (cr poll : Bool) (data : List Octet)
    (db : Db) : (rfcSendFrame ctrl dlci ctl cr poll data db).channList = db.channList := by
  unfold rfcSendFrame
  dsimp only
  split
  . rfl
  . split <;> rfl

theorem rfcSendMsc_channList (chann : Chann) (cr : Bool) (dlci status sbreak : Nat) (db : Db) :
    (rfcSendMsc chann cr dlci status sbreak db).channList = db.channList := by
  unfold rfcSendMsc
  dsimp only
  split <;> exact rfcSendFrame_channList ..

theorem chann_congr {db db' : Db} (h : db'.channList = db.channList) (id : Nat) :
    db'.chann id = db.chann id := by
  unfold Db.chann
  rw [h]

end Rfc
