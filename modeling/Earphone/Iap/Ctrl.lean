import Earphone.Iap.Packets
import Earphone.Lib.Visit

/-!
This module contains the control session messages of iAP2.
-/

namespace IapCtrl

open Scan Visit Iap List

def iap2MsgHdrSize : Nat := 6

def iap2ParamHdrSize : Nat := 4

def iap2MsgStart : Nat := 0x4040

def msgDevHidReport : Nat := 0x6801
def msgStartIdent : Nat := 0x1D00
def msgIdentAccepted : Nat := 0x1D02
def msgIdentRejected : Nat := 0x1D03
def msgReqAuthenCert : Nat := 0xAA00
def msgReqAuthenChallengeRsp : Nat := 0xAA02
def msgAuthenFailed : Nat := 0xAA04
def msgAuthenSucceeded : Nat := 0xAA05
def msgStartEaProtoSession : Nat := 0xEA00
def msgStopEaProtoSession : Nat := 0xEA01

def paramIdEapId : Nat := 0x0000
def paramIdEapSessionId : Nat := 0x0001

def eapSessionStatusParamIdSessionId : Nat := 0x0000
def eapSessionStatusParamIdSessionStatus : Nat := 0x0001

def cpRegChaLen : UInt8 := 0x20
def cpRegChaData : UInt8 := 0x21
def cpRegCs : UInt8 := 0x10

def cpCmdStartSigGen : UInt8 := 0x01

inductive State where
  | disconnected
  | connecting
  | connected
  | detect
  | iap2Sync
  | iap2SyncCmpl
  | iap2Authen
  | iap2Challenge
  | iap2Ident
  | iap2Idented
  | disconnecting
  deriving DecidableEq

abbrev CpWrite := Option (UInt8 → List UInt8 → Bool)

def cpWriteChaLen (cpWrite : CpWrite) (len : Nat) : Bool :=
  match cpWrite with
  | none => false
  | some write => write cpRegChaLen [hi len, lo len]

def cpWriteChaData (cpWrite : CpWrite) (payload : List UInt8) (chaBuf bufLen : Nat) :
    Except Stuck Bool :=
  match cpWrite with
  | none => return false
  | some write => do
    let bytes ← bytesAt payload chaBuf bufLen
    return write cpRegChaData bytes

def cpCtrl (cpWrite : CpWrite) (cmd : UInt8) : Bool :=
  match cpWrite with
  | none => false
  | some write => write cpRegCs [cmd]

def handleReqAuthenChallengeRsp1 (cpWrite : CpWrite) (state : State) (payload : List UInt8)
    (param paramLen : Nat) : Except Stuck Bool := do
  let data := param + iap2ParamHdrSize
  let len := sub16 paramLen iap2ParamHdrSize
  if state ≠ .iap2Authen then return false
  else if cpWriteChaLen cpWrite len = false then return false
  else
    let written ← cpWriteChaData cpWrite payload data len
    if written = false then return false
    else return cpCtrl cpWrite cpCmdStartSigGen

structure Seen where
  id : Nat
  len : Nat

inductive Order where
  | lenId
  | idLen

def Order.lenAt : Order → Nat
  | lenId => 0
  | idLen => 2

def Order.idAt : Order → Nat
  | lenId => 2
  | idLen => 0

section

variable {μ : Type}

def paramVisit (order : Order) (field : Nat → Nat → μ → Except Stuck μ) (payload : List UInt8)
    (param : Nat) (s : μ × List Seen) : Except Stuck (Except Empty (Nat × μ × List Seen)) := do
  let len ← be16At payload (param + order.lenAt)
  let id ← be16At payload (param + order.idAt)
  let msg ← field id (param + iap2ParamHdrSize) s.1
  return .ok (param + len, msg, s.2 ++ [⟨id, len⟩])

def paramWalk (order : Order) (field : Nat → Nat → μ → Except Stuck μ) (payload : List UInt8)
    (data len : Nat) (msg : μ) (fuel : Nat) : Except Stuck (μ × List Seen) := do
  match ← loop (paramVisit order field payload) (data + len) fuel data (msg, []) with
  | .ok (_, s) => return s

end

structure StartEapSession where
  eapSessionId : Option Nat
  eapId : Option Nat

def startEapField (payload : List UInt8) (id p : Nat) (msg : StartEapSession) :
    Except Stuck StartEapSession :=
  if id = paramIdEapId then do
    let eapId ← byteAt payload p
    return { msg with eapId := some eapId }
  else if id = paramIdEapSessionId then do
    let eapSessionId ← be16At payload p
    return { msg with eapSessionId := some eapSessionId }
  else return msg

def handleStartEapSession (payload : List UInt8) (data len : Nat) (fuel : Nat) :
    Except Stuck (StartEapSession × List Seen) :=
  paramWalk .lenId (startEapField payload) payload data len ⟨none, none⟩ fuel

def handleStopEapSession (payload : List UInt8) (data : Nat) : Except Stuck Nat :=
  be16At payload (data + iap2ParamHdrSize)

structure EapSessionStatusInfo where
  eapSessionId : Option Nat
  eapSessionStatus : Option Nat

def eapSessionStatusField (payload : List UInt8) (id p : Nat) (msg : EapSessionStatusInfo) :
    Except Stuck EapSessionStatusInfo :=
  if id = eapSessionStatusParamIdSessionId then do
    let eapSessionId ← be16At payload p
    return { msg with eapSessionId := some eapSessionId }
  else if id = eapSessionStatusParamIdSessionStatus then do
    let eapSessionStatus ← byteAt payload p
    return { msg with eapSessionStatus := some eapSessionStatus }
  else return msg

def handleEapSessionStatus (payload : List UInt8) (data len : Nat) (fuel : Nat) :
    Except Stuck (EapSessionStatusInfo × List Seen) :=
  paramWalk .lenId (eapSessionStatusField payload) payload data len ⟨none, none⟩ fuel

/--
This walk takes the id from where `bt_iap2_prep_param` puts the length and the length from where it
puts the id.
-/
def handleDevHidReport (payload : List UInt8) (data len : Nat) (fuel : Nat) :
    Except Stuck (Unit × List Seen) :=
  paramWalk .idLen (fun _ _ msg => .ok msg) payload data len () fuel

inductive Handled where
  | reqAuthenCert
  | reqAuthenChallengeRsp (signing : Bool)
  | authenFailed
  | authenSucceeded
  | startIdent
  | identAccepted
  | identRejected
  | startEapSession (msg : StartEapSession)
  | stopEapSession (eapSessionId : Nat)
  | devHidReport
  | ctrlMsg (msgId : Nat) (params : Slice)

def handleMsg (cpWrite : CpWrite) (state : State) (payload : List UInt8)
    (msgId param paramLen : Nat) (fuel : Nat) : Except Stuck Handled :=
  if msgId = msgReqAuthenCert then return .reqAuthenCert
  else if msgId = msgReqAuthenChallengeRsp then
    .reqAuthenChallengeRsp <$>
      handleReqAuthenChallengeRsp1 cpWrite state payload param paramLen
  else if msgId = msgAuthenFailed then return .authenFailed
  else if msgId = msgAuthenSucceeded then return .authenSucceeded
  else if msgId = msgStartIdent then return .startIdent
  else if msgId = msgIdentAccepted then return .identAccepted
  else if msgId = msgIdentRejected then return .identRejected
  else if msgId = msgStartEaProtoSession then
    (fun r => .startEapSession r.1) <$> handleStartEapSession payload param paramLen fuel
  else if msgId = msgStopEaProtoSession then
    .stopEapSession <$> handleStopEapSession payload param
  else if msgId = msgDevHidReport then
    (fun _ => .devHidReport) <$> handleDevHidReport payload param paramLen fuel
  else return .ctrlMsg msgId ⟨param, paramLen⟩

def handleCtrlSession (cpWrite : CpWrite) (state : State) (payload : List UInt8) (fuel : Nat) :
    Except Stuck Handled := do
  let msgLen ← be16At payload 2
  let msgId ← be16At payload 4
  handleMsg cpWrite state payload msgId iap2MsgHdrSize (sub16 msgLen iap2MsgHdrSize) fuel

theorem be16At_le (h : i + 2 ≤ payload.length) : be16At payload i = .ok (be16 payload i) := by
  unfold be16At
  have h0 : i < payload.length := by omega
  have h1 : i + 1 < payload.length := by omega
  rw [byteAt_lt h0, byteAt_lt h1]
  simp [bind, Except.bind, be16, pure, Except.pure, h0, h1]

theorem be16At_ok (h : be16At payload i = .ok n) : i + 2 ≤ payload.length ∧ n = be16 payload i := by
  have hle : i + 2 ≤ payload.length := by
    obtain ⟨b, -, hb⟩ := bind_ok.mp h
    obtain ⟨c, hc, -⟩ := bind_ok.mp hb
    have hi := byteAt_ok hc
    omega
  rw [be16At_le hle] at h
  cases h
  exact ⟨hle, rfl⟩

section

variable {μ : Type}

def Takes (field : Nat → Nat → μ → Except Stuck μ) (payload : List UInt8) (need : Nat → Nat) :
    Prop :=
  ∀ id i msg, i ≤ payload.length →
    ((∃ msg', field id i msg = .ok msg') ↔ i + need id ≤ payload.length)

def paramLenAt (order : Order) (payload : List UInt8) (param : Nat) : Nat :=
  be16 payload (param + order.lenAt)

def paramIdAt (order : Order) (payload : List UInt8) (param : Nat) : Nat :=
  be16 payload (param + order.idAt)

def paramNext (order : Order) (payload : List UInt8) (param : Nat) : Nat :=
  param + paramLenAt order payload param

def ParamWhole (order : Order) (need : Nat → Nat) (payload : List UInt8) (param : Nat) : Prop :=
  param + iap2ParamHdrSize + need (paramIdAt order payload param) ≤ payload.length

def ParamsWhole (order : Order) (need : Nat → Nat) (payload : List UInt8) (data len : Nat) : Prop :=
  ∀ k, (paramNext order payload)^[k] data < data + len →
    ParamWhole order need payload ((paramNext order payload)^[k] data) ∧
      paramLenAt order payload ((paramNext order payload)^[k] data) ≠ 0

variable {order : Order} {field : Nat → Nat → μ → Except Stuck μ} {payload : List UInt8}
  {need : Nat → Nat} {param : Nat} {s : μ × List Seen}

theorem paramVisit_whole (htakes : Takes field payload need)
    (h : ParamWhole order need payload param) :
    ∃ msg, paramVisit order field payload param s = .ok (.ok (paramNext order payload param, msg,
      s.2 ++ [⟨paramIdAt order payload param, paramLenAt order payload param⟩])) := by
  unfold ParamWhole iap2ParamHdrSize at h
  have hlenAt : order.lenAt ≤ 2 := by cases order <;> decide
  have hidAt : order.idAt ≤ 2 := by cases order <;> decide
  obtain ⟨msg, hmsg⟩ := (htakes (paramIdAt order payload param) (param + 4) s.1 (by omega)).mpr h
  refine ⟨msg, bind_ok.mpr ⟨_, be16At_le (by omega), bind_ok.mpr ⟨_, be16At_le (by omega), ?_⟩⟩⟩
  exact bind_ok.mpr ⟨msg, hmsg, rfl⟩

theorem paramVisit_not_whole (htakes : Takes field payload need)
    (h : ¬ParamWhole order need payload param) :
    ∃ e, paramVisit order field payload param s = .error e := by
  cases hvisit : paramVisit order field payload param s with
  | error e => exact ⟨e, rfl⟩
  | ok r =>
    obtain ⟨len, hlen, hrest⟩ := bind_ok.mp hvisit
    obtain ⟨id, hid, hrest⟩ := bind_ok.mp hrest
    obtain ⟨msg, hmsg, -⟩ := bind_ok.mp hrest
    have hlenle := (be16At_ok hlen).1
    obtain ⟨hidle, rfl⟩ := be16At_ok hid
    have hheader : param + iap2ParamHdrSize ≤ payload.length := by
      cases order with
      | lenId => exact hidle
      | idLen => exact hlenle
    exact absurd ((htakes _ _ s.1 hheader).mp ⟨msg, hmsg⟩) h

theorem runs_paramWalk :
    Runs (paramWalk order field payload data len msg) r ↔
      ∃ idx, Runs (fun fuel =>
        loop (paramVisit order field payload) (data + len) fuel data (msg, [])) (.ok (idx, r)) := by
  constructor
  . rintro ⟨fuel, h⟩
    obtain ⟨out, hout, hr⟩ := bind_ok.mp h
    obtain ⟨⟨⟩⟩ | ⟨idx, s'⟩ := out
    cases hr
    exact ⟨idx, fuel, hout⟩
  . rintro ⟨idx, fuel, h⟩
    exact ⟨fuel, bind_ok.mpr ⟨_, h, rfl⟩⟩

theorem halts_paramWalk (htakes : Takes field payload need) :
    Halts (paramWalk order field payload data len msg) ↔
      ParamsWhole order need payload data len := by
  have hgood : ∀ idx s, ParamWhole order need payload idx →
      ∃ s', paramVisit order field payload idx s = .ok (.ok (paramNext order payload idx, s')) :=
    fun _ _ h => (paramVisit_whole htakes h).imp' _ fun _ hmsg => hmsg
  have hwhole := (halts_iff hgood (fun _ _ => paramVisit_not_whole htakes)
    (fun _ => Nat.le_add_right _ _) : Halts (fun fuel =>
      loop (paramVisit order field payload) (data + len) fuel data (msg, [])) ↔ _)
  have hlt : ∀ idx, idx < paramNext order payload idx ↔ paramLenAt order payload idx ≠ 0 := by
    intro idx
    unfold paramNext
    omega
  simp only [hlt] at hwhole
  refine Iff.trans ?_ hwhole
  constructor
  . rintro ⟨r, h⟩
    obtain ⟨idx, hidx⟩ := runs_paramWalk.mp h
    exact ⟨_, hidx⟩
  . rintro ⟨⟨⟨⟩⟩ | ⟨idx, r⟩, h⟩
    exact ⟨r, runs_paramWalk.mpr ⟨idx, h⟩⟩

def eapNeed (id : Nat) : Nat :=
  if id = paramIdEapId then 1 else if id = paramIdEapSessionId then 2 else 0

def eapSessionStatusNeed (id : Nat) : Nat :=
  if id = eapSessionStatusParamIdSessionId then 2
  else if id = eapSessionStatusParamIdSessionStatus then 1
  else 0

def noNeed (_ : Nat) : Nat := 0

end

theorem exists_byteAt_bind {μ : Type} {f : Nat → μ} {i : Nat} :
    (∃ msg, (byteAt payload i >>= fun b => pure (f b)) = .ok msg) ↔ i + 1 ≤ payload.length := by
  constructor
  . rintro ⟨msg, h⟩
    obtain ⟨b, hb, -⟩ := bind_ok.mp h
    exact byteAt_ok hb
  . intro h
    exact ⟨_, bind_ok.mpr ⟨_, byteAt_lt h, rfl⟩⟩

theorem exists_be16At_bind {μ : Type} {f : Nat → μ} {i : Nat} :
    (∃ msg, (be16At payload i >>= fun n => pure (f n)) = .ok msg) ↔ i + 2 ≤ payload.length := by
  constructor
  . rintro ⟨msg, h⟩
    obtain ⟨n, hn, -⟩ := bind_ok.mp h
    exact (be16At_ok hn).1
  . intro h
    exact ⟨_, bind_ok.mpr ⟨_, be16At_le h, rfl⟩⟩

theorem startEapField_takes : Takes (startEapField payload) payload eapNeed := by
  intro id i msg hi
  unfold startEapField eapNeed
  split
  . exact exists_byteAt_bind
  . split
    . exact exists_be16At_bind
    . exact iff_of_true ⟨msg, rfl⟩ hi

theorem eapSessionStatusField_takes :
    Takes (eapSessionStatusField payload) payload eapSessionStatusNeed := by
  intro id i msg hi
  unfold eapSessionStatusField eapSessionStatusNeed
  split
  . exact exists_be16At_bind
  . split
    . exact exists_byteAt_bind
    . exact iff_of_true ⟨msg, rfl⟩ hi

theorem noField_takes : Takes (fun _ _ (msg : μ) => .ok msg) payload noNeed := by
  intro id i msg hi
  exact iff_of_true ⟨msg, rfl⟩ hi

section

variable {cpWrite : CpWrite} {state : State} {payload : List UInt8}

def msgId (payload : List UInt8) : Nat := be16 payload 4

def paramLen (payload : List UInt8) : Nat := sub16 (be16 payload 2) iap2MsgHdrSize

def challengeLen (payload : List UInt8) : Nat := sub16 (paramLen payload) iap2ParamHdrSize

structure Whole (cpWrite : CpWrite) (state : State) (payload : List UInt8) : Prop where
  header : iap2MsgHdrSize ≤ payload.length
  challenge : msgId payload = msgReqAuthenChallengeRsp → state = .iap2Authen →
    cpWriteChaLen cpWrite (challengeLen payload) = true →
      iap2MsgHdrSize + iap2ParamHdrSize + challengeLen payload ≤ payload.length
  startEapSession : msgId payload = msgStartEaProtoSession →
    ParamsWhole .lenId eapNeed payload iap2MsgHdrSize (paramLen payload)
  stopEapSession : msgId payload = msgStopEaProtoSession →
    iap2MsgHdrSize + iap2ParamHdrSize + 2 ≤ payload.length
  devHidReport : msgId payload = msgDevHidReport →
    ParamsWhole .idLen noNeed payload iap2MsgHdrSize (paramLen payload)

theorem exists_challenge :
    (∃ signing, handleReqAuthenChallengeRsp1 cpWrite state payload param len = .ok signing) ↔
      (state = .iap2Authen → cpWriteChaLen cpWrite (sub16 len iap2ParamHdrSize) = true →
        param + iap2ParamHdrSize + sub16 len iap2ParamHdrSize ≤ payload.length) := by
  unfold handleReqAuthenChallengeRsp1
  dsimp only
  generalize sub16 len iap2ParamHdrSize = chaLen
  split
  . next hstate => exact iff_of_true ⟨_, rfl⟩ fun h => absurd h hstate
  . next hstate =>
    split
    . next hlen => exact iff_of_true ⟨_, rfl⟩ fun _ h => by rw [hlen] at h; cases h
    . next hlen =>
      rw [ne_eq, Decidable.not_not] at hstate
      rw [Bool.not_eq_false] at hlen
      cases cpWrite with
      | none => cases hlen
      | some write =>
        constructor
        . rintro ⟨signing, h⟩ - -
          obtain ⟨written, hwritten, -⟩ := bind_ok.mp h
          obtain ⟨bytes, hbytes, -⟩ := bind_ok.mp hwritten
          unfold bytesAt at hbytes
          split at hbytes
          . next hle => exact hle
          . cases hbytes
        . intro h
          have hbytes := bytesAt_le (h hstate hlen)
          by_cases hwritten : write cpRegChaData
              ((payload.drop (param + iap2ParamHdrSize)).take chaLen) = false
          . refine ⟨false, bind_ok.mpr ⟨false, bind_ok.mpr ⟨_, hbytes, ?_⟩, rfl⟩⟩
            rw [hwritten]
            rfl
          . refine ⟨cpCtrl (some write) cpCmdStartSigGen,
              bind_ok.mpr ⟨true, bind_ok.mpr ⟨_, hbytes, ?_⟩, rfl⟩⟩
            rw [Bool.not_eq_false] at hwritten
            rw [hwritten]
            rfl

theorem halts_handleMsg (hheader : iap2MsgHdrSize ≤ payload.length) :
    Halts (handleMsg cpWrite state payload (msgId payload) iap2MsgHdrSize (paramLen payload)) ↔
      Whole cpWrite state payload := by
  have hother (h1 : msgId payload ≠ msgReqAuthenChallengeRsp)
      (h2 : msgId payload ≠ msgStartEaProtoSession) (h3 : msgId payload ≠ msgStopEaProtoSession)
      (h4 : msgId payload ≠ msgDevHidReport) : Whole cpWrite state payload :=
    ⟨hheader, fun h => absurd h h1, fun h => absurd h h2, fun h => absurd h h3,
      fun h => absurd h h4⟩
  have hpure (r : Handled) (h1 : msgId payload ≠ msgReqAuthenChallengeRsp)
      (h2 : msgId payload ≠ msgStartEaProtoSession) (h3 : msgId payload ≠ msgStopEaProtoSession)
      (h4 : msgId payload ≠ msgDevHidReport) :
      Halts (fun _ => (.ok r : Except Stuck Handled)) ↔ Whole cpWrite state payload :=
    iff_of_true halts_ok (hother h1 h2 h3 h4)
  show Halts (fun fuel => handleMsg cpWrite state payload (msgId payload) iap2MsgHdrSize
    (paramLen payload) fuel) ↔ _
  unfold handleMsg
  split
  . next h =>
    rw [h] at hpure
    exact hpure _ (by decide) (by decide) (by decide) (by decide)
  split
  . next h =>
    rw [halts_map]
    constructor
    . rintro ⟨r, fuel, hr⟩
      refine ⟨hheader, fun _ => exists_challenge.mp ⟨r, hr⟩, ?_, ?_, ?_⟩
      all_goals
        rw [h]
        intro h'
        exact absurd h' (by decide)
    . intro hwhole
      obtain ⟨r, hr⟩ := exists_challenge.mpr (hwhole.challenge h)
      exact ⟨r, 0, hr⟩
  split
  . next h =>
    rw [h] at hpure
    exact hpure _ (by decide) (by decide) (by decide) (by decide)
  split
  . next h =>
    rw [h] at hpure
    exact hpure _ (by decide) (by decide) (by decide) (by decide)
  split
  . next h =>
    rw [h] at hpure
    exact hpure _ (by decide) (by decide) (by decide) (by decide)
  split
  . next h =>
    rw [h] at hpure
    exact hpure _ (by decide) (by decide) (by decide) (by decide)
  split
  . next h =>
    rw [h] at hpure
    exact hpure _ (by decide) (by decide) (by decide) (by decide)
  split
  . next h =>
    rw [halts_map]
    refine (halts_paramWalk startEapField_takes).trans ⟨fun hparams => ?_, fun hwhole => ?_⟩
    . refine ⟨hheader, ?_, fun _ => hparams, ?_, ?_⟩
      all_goals
        rw [h]
        intro h'
        exact absurd h' (by decide)
    . exact hwhole.startEapSession h
  split
  . next h =>
    rw [halts_map]
    constructor
    . rintro ⟨r, fuel, hr⟩
      refine ⟨hheader, ?_, ?_, fun _ => (be16At_ok hr).1, ?_⟩
      all_goals
        rw [h]
        intro h'
        exact absurd h' (by decide)
    . intro hwhole
      exact ⟨_, 0, be16At_le (hwhole.stopEapSession h)⟩
  split
  . next h =>
    rw [halts_map]
    refine (halts_paramWalk noField_takes).trans ⟨fun hparams => ?_, fun hwhole => ?_⟩
    . refine ⟨hheader, ?_, ?_, ?_, fun _ => hparams⟩
      all_goals
        rw [h]
        intro h'
        exact absurd h' (by decide)
    . exact hwhole.devHidReport h
  . next h1 _ _ _ _ _ h2 h3 h4 => exact hpure _ h1 h2 h3 h4

theorem halts_handleCtrlSession :
    Halts (handleCtrlSession cpWrite state payload) ↔ Whole cpWrite state payload := by
  show Halts (fun fuel => be16At payload 2 >>= fun msgLen => be16At payload 4 >>= fun id =>
    handleMsg cpWrite state payload id iap2MsgHdrSize (sub16 msgLen iap2MsgHdrSize) fuel) ↔ _
  rw [halts_const_bind]
  constructor
  . rintro ⟨msgLen, hmsgLen, h⟩
    obtain ⟨id, hid, h⟩ := halts_const_bind.mp h
    obtain ⟨-, rfl⟩ := be16At_ok hmsgLen
    obtain ⟨hheader, rfl⟩ := be16At_ok hid
    exact (halts_handleMsg hheader).mp h
  . intro hwhole
    have hheader : 6 ≤ payload.length := hwhole.header
    refine ⟨_, be16At_le (by omega), halts_const_bind.mpr ⟨_, be16At_le (by omega), ?_⟩⟩
    exact (halts_handleMsg hheader).mpr hwhole

end

section

def prepParam (paramId : UInt16) (data : List UInt8) : List UInt8 :=
  [hi (data.length + iap2ParamHdrSize), lo (data.length + iap2ParamHdrSize), hi paramId.toNat,
    lo paramId.toNat] ++ data

structure Param where
  id : UInt16
  data : List UInt8

def Param.bytes (p : Param) : List UInt8 := prepParam p.id p.data

def Param.len (p : Param) : Nat := p.data.length + iap2ParamHdrSize

def Param.seen (p : Param) : Seen := ⟨p.id.toNat, p.len⟩

def paramBytes (params : List Param) : List UInt8 := (params.map Param.bytes).flatten

def msgHeader (msgType : UInt16) (msgLen : Nat) : List UInt8 :=
  [hi iap2MsgStart, lo iap2MsgStart, hi (msgLen + iap2MsgHdrSize), lo (msgLen + iap2MsgHdrSize),
    hi msgType.toNat, lo msgType.toNat]

structure Msg where
  msgType : UInt16
  params : List Param
  rest : List UInt8
  fits : (paramBytes params).length + iap2MsgHdrSize < 65536

def Msg.payload (m : Msg) : List UInt8 :=
  msgHeader m.msgType (paramBytes m.params).length ++ paramBytes m.params ++ m.rest

def Msg.seen (m : Msg) : List Seen := m.params.map Param.seen

def Held (need : Nat → Nat) (rest : List UInt8) : List Param → Prop
  | [] => True
  | p :: params =>
    need p.id.toNat ≤ p.data.length + (paramBytes params).length + rest.length ∧
      Held need rest params

@[simp]
theorem paramBytes_nil : paramBytes [] = [] := rfl

@[simp]
theorem paramBytes_cons (p : Param) (params : List Param) :
    paramBytes (p :: params) = p.bytes ++ paramBytes params := rfl

@[simp]
theorem length_bytes (p : Param) : p.bytes.length = p.len := by
  simp [Param.bytes, prepParam, Param.len, iap2ParamHdrSize]

theorem be16_append (hn : n < 65536) : be16 (pre ++ hi n :: lo n :: post) pre.length = n := by
  simpa [be16, List.getD] using toNat_hi_lo hn

variable {pre post payload : List UInt8} {p : Param}

theorem be16_len (hpayload : payload = pre ++ p.bytes ++ post) (hlen : p.len < 65536) :
    be16 payload pre.length = p.len := by
  rw [hpayload, append_assoc]
  exact be16_append hlen

theorem be16_id (hpayload : payload = pre ++ p.bytes ++ post) :
    be16 payload (pre.length + 2) = p.id.toNat := by
  have hassoc : payload = (pre ++ [hi p.len, lo p.len]) ++ hi p.id.toNat :: lo p.id.toNat ::
      (p.data ++ post) := by
    rw [hpayload]
    simp [Param.bytes, prepParam, Param.len]
  have hlength : pre.length + 2 = (pre ++ [hi p.len, lo p.len]).length := by simp
  rw [hassoc, hlength]
  exact be16_append p.id.toNat_lt

section

variable {μ : Type} {field : Nat → Nat → μ → Except Stuck μ} {need : Nat → Nat}
  {params : List Param} {rest : List UInt8} {msg : μ} {seen : List Seen}

theorem runs_lenId (htakes : Takes field payload need) (pre : List UInt8) (msg : μ)
    (seen : List Seen) (hpayload : payload = pre ++ paramBytes params ++ rest)
    (hfits : (paramBytes params).length < 65536) :
    (∃ idx msg', Runs (fun fuel => loop (paramVisit .lenId field payload)
        (pre.length + (paramBytes params).length) fuel pre.length (msg, seen))
        (.ok (idx, msg', seen ++ params.map Param.seen))) ↔ Held need rest params := by
  induction params generalizing pre msg seen with
  | nil =>
    refine iff_of_true ⟨pre.length, msg, ?_⟩ trivial
    rw [runs_at_end (by simp)]
    simp
  | cons p params ih =>
    have hbytes : (paramBytes (p :: params)).length = p.len + (paramBytes params).length := by simp
    have hp : payload = pre ++ p.bytes ++ (paramBytes params ++ rest) := by
      rw [hpayload, paramBytes_cons]
      simp only [append_assoc]
    have hlenpos : p.len = p.data.length + 4 := rfl
    have hlen : paramLenAt .lenId payload pre.length = p.len := be16_len hp (by omega)
    have hid : paramIdAt .lenId payload pre.length = p.id.toNat := be16_id hp
    have hlt : pre.length < pre.length + (paramBytes (p :: params)).length := by omega
    have hwhole : ParamWhole .lenId need payload pre.length ↔
        need p.id.toNat ≤ p.data.length + (paramBytes params).length + rest.length := by
      unfold ParamWhole iap2ParamHdrSize
      rw [hid, hp]
      simp only [length_append, length_bytes]
      omega
    by_cases hheld : ParamWhole .lenId need payload pre.length
    . obtain ⟨msg1, hvisit⟩ := paramVisit_whole htakes hheld (s := (msg, seen))
      have hrest := ih (pre ++ p.bytes) msg1 (seen ++ [p.seen])
        (by rw [hp, append_assoc (pre ++ p.bytes)]) (by omega)
      have hnext : paramNext .lenId payload pre.length = (pre ++ p.bytes).length := by
        rw [paramNext, hlen]
        simp
      have hstop : pre.length + (paramBytes (p :: params)).length =
          (pre ++ p.bytes).length + (paramBytes params).length := by
        rw [length_append, length_bytes]
        omega
      rw [hnext, hid, hlen] at hvisit
      simp only [runs_next hlt hvisit]
      rw [hstop]
      have hseen : seen ++ (p :: params).map Param.seen =
          seen ++ [p.seen] ++ params.map Param.seen := by simp
      rw [hseen]
      exact hrest.trans (and_iff_right (hwhole.mp hheld)).symm
    . obtain ⟨e, hvisit⟩ := paramVisit_not_whole htakes hheld (s := (msg, seen))
      refine iff_of_false ?_ fun h => hheld (hwhole.mpr h.1)
      rintro ⟨idx, msg', h⟩
      exact not_runs hlt hvisit h

theorem seen_of_runs
    (h : Runs (fun fuel => loop (paramVisit order field payload) stop fuel idx s) (.ok r)) :
    ∃ seen', r.2.2 = s.2 ++ seen' := by
  obtain ⟨fuel, hr⟩ := h
  obtain ⟨hreached, -⟩ := reached_of_ok hr
  obtain ⟨idx', s'⟩ := r
  simp only at hreached
  clear hr
  induction hreached with
  | here => exact ⟨[], (append_nil _).symm⟩
  | next hlt hvisit hrest ih =>
    obtain ⟨len, -, hbind⟩ := bind_ok.mp hvisit
    obtain ⟨id, -, hbind⟩ := bind_ok.mp hbind
    obtain ⟨msg, -, hnext⟩ := bind_ok.mp hbind
    cases hnext
    obtain ⟨seen', hseen'⟩ := ih
    exact ⟨⟨id, len⟩ :: seen', by rw [hseen', append_assoc]; rfl⟩

theorem runs_idLen (pre : List UInt8) (seen : List Seen)
    (hpayload : payload = pre ++ paramBytes params ++ rest)
    (hfits : (paramBytes params).length < 65536) :
    (∃ idx, Runs (fun fuel => loop (paramVisit .idLen (fun _ _ (msg : Unit) => .ok msg) payload)
        (pre.length + (paramBytes params).length) fuel pre.length ((), seen))
        (.ok (idx, (), seen ++ params.map Param.seen))) ↔
      ∀ p ∈ params, p.id.toNat = p.len := by
  induction params generalizing pre seen with
  | nil =>
    refine iff_of_true ⟨pre.length, ?_⟩ (by simp)
    rw [runs_at_end (by simp)]
    simp
  | cons p params ih =>
    have hbytes : (paramBytes (p :: params)).length = p.len + (paramBytes params).length := by simp
    have hp : payload = pre ++ p.bytes ++ (paramBytes params ++ rest) := by
      rw [hpayload, paramBytes_cons]
      simp only [append_assoc]
    have hlenpos : p.len = p.data.length + 4 := rfl
    have hid : paramIdAt .idLen payload pre.length = p.len := be16_len hp (by omega)
    have hlen : paramLenAt .idLen payload pre.length = p.id.toNat := be16_id hp
    have hlt : pre.length < pre.length + (paramBytes (p :: params)).length := by omega
    have hwhole : ParamWhole .idLen noNeed payload pre.length := by
      unfold ParamWhole iap2ParamHdrSize noNeed
      rw [hp]
      simp only [length_append, length_bytes]
      omega
    obtain ⟨⟨⟩, hvisit⟩ := paramVisit_whole noField_takes hwhole (s := ((), seen))
    rw [hid, hlen] at hvisit
    simp only [runs_next hlt hvisit]
    have hseen : seen ++ (p :: params).map Param.seen =
        seen ++ [p.seen] ++ params.map Param.seen := by simp
    have hnext (hsame : p.id.toNat = p.len) :
        paramNext .idLen payload pre.length = (pre ++ p.bytes).length := by
      rw [paramNext, hlen, hsame]
      simp
    have hstop : pre.length + (paramBytes (p :: params)).length =
        (pre ++ p.bytes).length + (paramBytes params).length := by
      rw [length_append, length_bytes]
      omega
    have hrest := ih (pre ++ p.bytes) (seen ++ [p.seen])
      (by rw [hp, append_assoc (pre ++ p.bytes)]) (by omega)
    constructor
    . rintro ⟨idx, h⟩
      -- the first parameter it has come to is the first of the message
      obtain ⟨seen', hseen'⟩ := seen_of_runs h
      have hfirst : p.seen = ⟨p.len, p.id.toNat⟩ := by
        simp only [hseen, append_assoc, append_cancel_left_eq] at hseen'
        exact (List.cons.inj hseen').1
      have hsame : p.id.toNat = p.len := congrArg Seen.id hfirst
      rw [hseen, hnext hsame, hstop, ← hfirst] at h
      exact forall_mem_cons.mpr ⟨hsame, hrest.mp ⟨idx, h⟩⟩
    . intro hall
      obtain ⟨hsame, hparams⟩ := forall_mem_cons.mp hall
      obtain ⟨idx, h⟩ := hrest.mpr hparams
      have hfirst : p.seen = ⟨p.len, p.id.toNat⟩ := by
        rw [Param.seen, hsame]
      rw [hseen, hnext hsame, hstop, ← hfirst]
      exact ⟨idx, h⟩

end

section

variable {μ : Type} {field : Nat → Nat → μ → Except Stuck μ} {need : Nat → Nat} (m : Msg)

@[simp]
theorem length_msgHeader (msgType : UInt16) (msgLen : Nat) :
    (msgHeader msgType msgLen).length = 6 := rfl

theorem paramLen_payload : paramLen m.payload = (paramBytes m.params).length := by
  have hfits := m.fits
  have hassoc : m.payload = [hi iap2MsgStart, lo iap2MsgStart] ++
      hi ((paramBytes m.params).length + iap2MsgHdrSize) ::
        lo ((paramBytes m.params).length + iap2MsgHdrSize) ::
          ([hi m.msgType.toNat, lo m.msgType.toNat] ++ (paramBytes m.params ++ m.rest)) := by
    simp [Msg.payload, msgHeader]
  have hlen : be16 m.payload 2 = (paramBytes m.params).length + iap2MsgHdrSize := by
    rw [hassoc]
    exact be16_append hfits
  rw [paramLen, hlen, sub16_le (Nat.le_add_left _ _) hfits, Nat.add_sub_cancel]

theorem runs_walk_lenId (htakes : Takes field m.payload need) (msg : μ) :
    (∃ msg', Runs (paramWalk .lenId field m.payload iap2MsgHdrSize (paramLen m.payload) msg)
        (msg', m.seen)) ↔ Held need m.rest m.params := by
  have hfits := m.fits
  have hruns := runs_lenId htakes (msgHeader m.msgType (paramBytes m.params).length) msg [] rfl
    (by omega)
  rw [paramLen_payload]
  simp only [runs_paramWalk]
  rw [exists_comm]
  exact hruns

theorem runs_startEapSession :
    (∃ msg, Runs (handleStartEapSession m.payload iap2MsgHdrSize (paramLen m.payload))
        (msg, m.seen)) ↔ Held eapNeed m.rest m.params :=
  runs_walk_lenId m startEapField_takes ⟨none, none⟩

theorem runs_eapSessionStatus :
    (∃ msg, Runs (handleEapSessionStatus m.payload iap2MsgHdrSize (paramLen m.payload))
        (msg, m.seen)) ↔ Held eapSessionStatusNeed m.rest m.params :=
  runs_walk_lenId m eapSessionStatusField_takes ⟨none, none⟩

theorem runs_devHidReport :
    Runs (handleDevHidReport m.payload iap2MsgHdrSize (paramLen m.payload)) ((), m.seen) ↔
      ∀ p ∈ m.params, p.id.toNat = p.len := by
  have hfits := m.fits
  have hpayload : m.payload = msgHeader m.msgType (paramBytes m.params).length ++
      paramBytes m.params ++ m.rest := rfl
  have hruns := runs_idLen (msgHeader m.msgType (paramBytes m.params).length) [] hpayload
    (by omega)
  rw [paramLen_payload]
  exact runs_paramWalk.trans hruns

end

end

theorem ctrl_session_iff (cpWrite : CpWrite) (state : State) (payload : List UInt8) (m : Msg) :
    (Halts (handleCtrlSession cpWrite state payload) ↔ Whole cpWrite state payload) ∧
    ((∃ msg, Runs (handleStartEapSession m.payload iap2MsgHdrSize (paramLen m.payload))
        (msg, m.seen)) ↔ Held eapNeed m.rest m.params) ∧
    ((∃ msg, Runs (handleEapSessionStatus m.payload iap2MsgHdrSize (paramLen m.payload))
        (msg, m.seen)) ↔ Held eapSessionStatusNeed m.rest m.params) ∧
    (Runs (handleDevHidReport m.payload iap2MsgHdrSize (paramLen m.payload)) ((), m.seen) ↔
      ∀ p ∈ m.params, p.id.toNat = p.len) :=
  ⟨halts_handleCtrlSession, runs_startEapSession m, runs_eapSessionStatus m, runs_devHidReport m⟩

def endlessPayload : List UInt8 :=
  [0x40, 0x40, 0x00, 0x0a, 0xea, 0x00, 0x00, 0x00, 0x00, 0x05, 0x00]

theorem not_ctrl_session :
    ¬∀ (cpWrite : CpWrite) (state : State) (payload : List UInt8),
      Halts (handleCtrlSession cpWrite state payload) := by
  intro h
  have hwhole := halts_handleCtrlSession.mp (h none .iap2Idented endlessPayload)
  exact (hwhole.startEapSession (by decide) 0 (by decide)).2 (by decide)

end IapCtrl
