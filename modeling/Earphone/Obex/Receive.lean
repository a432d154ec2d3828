import Earphone.Obex.Safe

namespace Obex

open Scan

def SearchOk (pkt : List UInt8) (pktLen hdrsAt hdr : Nat) : Prop :=
  HdrsOk pkt hdr anyValue hdrsAt (sub16 pktLen hdrsAt)

def HandedOn (pkt : List UInt8) (pktLen hdrsAt : Nat) : Prop :=
  hdrsAt + sub16 pktLen hdrsAt ≤ pkt.length

def opcode (pkt : List UInt8) : Nat := (pkt.getD 0 0).toNat

structure ReqOk (link : Link) (pkt : List UInt8) (pktLen : Nat) : Prop where
  notEmpty : 0 < pkt.length
  connect : opcode pkt = obexOpcodeConnect → link.cback →
    SearchOk pkt pktLen obexHdrConnectLen obexHiSrm ∧ 6 < pkt.length
  srm : opcode pkt = obexOpcodePut → link.psm ≠ 0 → link.srmStatus = .disable →
    SearchOk pkt pktLen obexHdrPutLen obexHiSrm
  put : opcode pkt = obexOpcodePut ∨ opcode pkt = obexOpcodeFput → link.cback →
    HandedOn pkt pktLen obexHdrPutLen

structure RspOk (link : Link) (pkt : List UInt8) (pktLen : Nat) (alloc : Bool) : Prop where
  notEmpty : 0 < pkt.length
  connected : link.state = .obexConnecting → opcode pkt = obexRspSuccess →
    6 < pkt.length ∧ SearchOk pkt pktLen obexConnectLen obexHiConnectionId
  unauthorized : link.state = .obexConnecting → opcode pkt = obexRspUnauthorized →
    HdrsOk pkt obexHiAuthenChallenge (fun p len => alloc → ChallengeOk pkt p len) obexConnectLen
      (sub16 pktLen obexConnectLen)
  srm : link.state = .put ∨ link.state = .get → opcode pkt = obexRspContinue →
    SearchOk pkt pktLen obexBaseLen obexHiSrm ∧ SearchOk pkt pktLen obexBaseLen obexHiSrmp
  put : link.state = .put → opcode pkt = obexRspSuccess ∨ opcode pkt = obexRspContinue →
    HdrsOk pkt obexHiName anyValue 0 pktLen
  get : link.state = .get → opcode pkt = obexRspSuccess ∨ opcode pkt = obexRspContinue →
    link.cback → HandedOn pkt pktLen obexBaseLen

def PktOk (link : Link) (pkt : List UInt8) (pktLen : Nat) (allocs : Allocs) : Prop :=
  match link.role with
  | .server => ReqOk link pkt pktLen
  | .client => RspOk link pkt pktLen allocs.md5

def totalLen (pkt : List UInt8) : Nat := (pkt.getD 1 0).toNat * 256 + (pkt.getD 2 0).toNat

def DataIndOk (link : Link) (pkt : List UInt8) (allocs : Allocs) : Prop :=
  match link.rxData with
  | some rx =>
    (rx.data ++ pkt).length = rx.totalLen → PktOk link (rx.data ++ pkt) rx.totalLen allocs
  | none =>
    2 < pkt.length ∧ (totalLen pkt ≤ pkt.length → PktOk link pkt (totalLen pkt) allocs)

theorem mono_hdrIsOne : Mono (hdrIsOne pkt pktLen hdrsAt hdr) := by
  apply mono_find.bind
  intro found
  cases found with
  | none => apply mono_const
  | some s => apply mono_const

theorem halts_hdrIsOne (hkind : hdr / 64 = 2) :
    Halts (hdrIsOne pkt pktLen hdrsAt hdr) ↔ SearchOk pkt pktLen hdrsAt hdr := by
  have h : Halts (hdrIsOne pkt pktLen hdrsAt hdr) ↔
      Halts (fun n => obexFindHdrInPkt pkt hdr n hdrsAt (sub16 pktLen hdrsAt)) ∧ True := by
    apply halts_bind_const mono_find
    . intro found
      cases found with
      | none => apply mono_const
      | some s => apply mono_const
    . rintro (_ | s) ⟨fuel, hrun⟩
      . simp
      . obtain ⟨hin, hone, _⟩ := find_value hrun
        have hlt : s.start < pkt.length := by
          simp only [Slice.Within, hone hkind] at hin
          omega
        simp [halts_byteAt, hlt]
  rw [h, and_true, halts_find]
  rfl

theorem halts_be16At_bind {α : Type} {i : Nat} {g : Nat → Nat → Except Stuck α} {Q : Prop}
    (h : ∀ v, Halts (fun n => g n v) ↔ Q) :
    Halts (fun n => be16At pkt i >>= g n) ↔ i + 1 < pkt.length ∧ Q := by
  rw [halts_const_bind]
  constructor
  . rintro ⟨v, hv, hq⟩
    exact ⟨(be16At_ok.mp hv).1, (h v).mp hq⟩
  . rintro ⟨hlt, hq⟩
    exact ⟨_, be16At_ok.mpr ⟨hlt, rfl⟩, (h _).mpr hq⟩

theorem halts_hdrIsOne_bind {α : Type} {g : Nat → Bool → Except Stuck α} {Q : Prop}
    (hkind : hdr / 64 = 2) (hg : ∀ b, Mono (fun n => g n b))
    (h : ∀ b, Halts (fun n => g n b) ↔ Q) :
    Halts (fun n => hdrIsOne pkt pktLen hdrsAt hdr n >>= g n) ↔
      SearchOk pkt pktLen hdrsAt hdr ∧ Q := by
  rw [halts_bind_const mono_hdrIsOne hg (fun b _ => h b), halts_hdrIsOne hkind]

theorem halts_handOn_bind {α : Type} {g : Slice → Except Stuck α} (h : ∀ s, ∃ r, g s = .ok r) :
    Halts (fun _ => sliceAt pkt ⟨hdrsAt, sub16 pktLen hdrsAt⟩ >>= g) ↔
      HandedOn pkt pktLen hdrsAt := by
  rw [halts_const_bind]
  constructor
  . rintro ⟨s, hs, _⟩
    exact halts_sliceAt.mp ⟨s, 0, hs⟩
  . intro hin
    obtain ⟨s, _, hs⟩ := (halts_sliceAt (s := ⟨hdrsAt, sub16 pktLen hdrsAt⟩)).mpr hin
    obtain ⟨r, hr⟩ := h s
    exact ⟨s, hs, r, 0, hr⟩

theorem halts_reqConnect :
    Halts (reqConnect link pkt pktLen) ↔
      SearchOk pkt pktLen obexHdrConnectLen obexHiSrm ∧ 6 < pkt.length := by
  apply halts_hdrIsOne_bind (by decide)
  . intro _
    apply mono_const
  . intro srm
    rw [halts_be16At_bind (Q := True)]
    . simp
    . simp

theorem halts_remotePut {before : List Effect} :
    Halts (fun _ => remotePut link pkt pktLen before) ↔
      (link.cback → HandedOn pkt pktLen obexHdrPutLen) := by
  unfold remotePut
  by_cases hc : link.cback
  . simp only [hc, if_true, forall_const]
    apply halts_handOn_bind
    intro s
    exact ⟨_, rfl⟩
  . simp [hc]

theorem halts_reqPut :
    Halts (reqPut link pkt pktLen) ↔
      (link.psm ≠ 0 → link.srmStatus = .disable → SearchOk pkt pktLen obexHdrPutLen obexHiSrm) ∧
      (link.cback → HandedOn pkt pktLen obexHdrPutLen) := by
  unfold reqPut
  by_cases h : link.psm ≠ 0 ∧ link.srmStatus = .disable
  . simp only [if_pos h]
    refine (halts_hdrIsOne_bind (Q := link.cback → HandedOn pkt pktLen obexHdrPutLen) (by decide)
      ?_ ?_).trans ?_
    . intro srm
      cases srm <;> apply mono_const
    . intro srm
      cases srm with
      | true => apply halts_remotePut
      | false => apply halts_remotePut
    . simp [h]
  . simp only [h, if_false, halts_remotePut]
    constructor
    . intro hput
      exact ⟨fun h1 h2 => absurd ⟨h1, h2⟩ h, hput⟩
    . intro hput
      exact hput.2

theorem halts_reqOpcode :
    Halts (reqOpcode link pkt pktLen op) ↔
      (op = obexOpcodeConnect → link.cback →
        SearchOk pkt pktLen obexHdrConnectLen obexHiSrm ∧ 6 < pkt.length) ∧
      (op = obexOpcodePut → link.psm ≠ 0 → link.srmStatus = .disable →
        SearchOk pkt pktLen obexHdrPutLen obexHiSrm) ∧
      (op = obexOpcodePut ∨ op = obexOpcodeFput → link.cback →
        HandedOn pkt pktLen obexHdrPutLen) := by
  unfold reqOpcode
  by_cases hconn : op = obexOpcodeConnect
  . subst hconn
    by_cases hcback : link.cback
    . simp [hcback, halts_reqConnect, obexOpcodeConnect, obexOpcodePut, obexOpcodeFput]
    . simp [hcback, obexOpcodeConnect, obexOpcodePut, obexOpcodeFput]
  by_cases hdis : op = obexOpcodeDisconnect
  . simp [hdis, obexOpcodeConnect, obexOpcodeDisconnect, obexOpcodePut, obexOpcodeFput]
  by_cases hput : op = obexOpcodePut
  . simp [hput, halts_reqPut, obexOpcodeConnect, obexOpcodeDisconnect, obexOpcodePut]
  by_cases hfput : op = obexOpcodeFput
  . simp [hfput, halts_remotePut, obexOpcodeConnect, obexOpcodeDisconnect, obexOpcodePut,
      obexOpcodeFput]
  . simp only [hconn, hdis, hput, hfput, if_false]
    split_ifs <;> simp

theorem halts_handleReqPkt : Halts (obexHandleReqPkt link pkt pktLen) ↔ ReqOk link pkt pktLen := by
  refine halts_byteAt_bind.trans ((and_congr_right fun _ => halts_reqOpcode).trans ?_)
  constructor
  . rintro ⟨hne, hconn, hsrm, hput⟩
    exact ⟨hne, hconn, hsrm, hput⟩
  . rintro ⟨hne, hconn, hsrm, hput⟩
    exact ⟨hne, hconn, hsrm, hput⟩

section

variable {link : Link} {pkt : List UInt8} {pktLen rspCode : Nat} {alloc : Bool}

theorem readConnId_ok {found : Option Slice} {fuel p len : Nat}
    (h : obexFindHdrInPkt pkt obexHiConnectionId fuel p len = .ok found) :
    ∃ v, readConnId link pkt found = .ok v := by
  cases found with
  | none => exact ⟨_, rfl⟩
  | some s =>
    obtain ⟨hin, _, hquad⟩ := find_value h
    have hlen := hquad (by decide)
    simp only [Slice.Within, hlen] at hin
    have hhi := be16At_ok.mpr ⟨(by omega : s.start + 1 < pkt.length), rfl⟩
    have hlo := be16At_ok.mpr ⟨(by omega : s.start + 2 + 1 < pkt.length), rfl⟩
    exact ⟨_, bind_ok.mpr ⟨_, hhi, bind_ok.mpr ⟨_, hlo, rfl⟩⟩⟩

theorem halts_rspConnected :
    Halts (rspConnected link pkt pktLen) ↔
      6 < pkt.length ∧ SearchOk pkt pktLen obexConnectLen obexHiConnectionId := by
  apply halts_be16At_bind
  intro maxPktLen
  refine (halts_bind_const (Q := True) mono_find ?_ ?_).trans ?_
  . intro found
    apply mono_const
  . rintro found ⟨fuel, hrun⟩
    obtain ⟨v, hv⟩ := @readConnId_ok link _ _ _ _ _ hrun
    simp only [iff_true]
    exact ⟨_, 0, bind_ok.mpr ⟨v, hv, rfl⟩⟩
  . rw [and_true, halts_find]
    rfl

theorem mono_answerChallenge : Mono (fun n => answerChallenge link pkt alloc n found) := by
  cases found with
  | none => apply mono_const
  | some s =>
    apply Mono.ite
    . apply mono_challenge.bind
      intro _
      apply mono_const
    . apply mono_const

theorem halts_answerChallenge :
    Halts (fun n => answerChallenge link pkt alloc n found) ↔
      Found (fun p len => alloc → ChallengeOk pkt p len) found := by
  cases found with
  | none => simp [answerChallenge, Found]
  | some s =>
    cases alloc with
    | false => simp [answerChallenge, Found]
    | true => simp [answerChallenge, Found, halts_challenge]

theorem halts_rspUnauthorized :
    Halts (rspUnauthorized link pkt pktLen alloc) ↔
      HdrsOk pkt obexHiAuthenChallenge (fun p len => alloc → ChallengeOk pkt p len)
        obexConnectLen (sub16 pktLen obexConnectLen) := by
  refine (halts_bind mono_find fun _ => mono_answerChallenge).trans ?_
  simp only [halts_answerChallenge]
  exact find_iff

theorem mono_rspSrm : Mono (rspSrm link pkt pktLen rspCode) := by
  apply Mono.ite
  . apply mono_const
  . apply mono_hdrIsOne.bind
    intro srm
    apply mono_hdrIsOne.bind
    intro srmp
    apply mono_const

theorem halts_rspSrm :
    Halts (rspSrm link pkt pktLen rspCode) ↔
      (rspCode ≠ obexRspSuccess → SearchOk pkt pktLen obexBaseLen obexHiSrm ∧
        SearchOk pkt pktLen obexBaseLen obexHiSrmp) := by
  unfold rspSrm
  by_cases h : rspCode = obexRspSuccess
  . simp [h]
  . simp only [h, if_false, ne_eq, not_false_eq_true, forall_const]
    refine halts_hdrIsOne_bind (by decide) ?_ ?_
    . intro srm
      apply mono_hdrIsOne.bind
      intro srmp
      apply mono_const
    . intro srm
      refine (halts_hdrIsOne_bind (Q := True) (by decide) ?_ ?_).trans (Iff.of_eq (and_true _))
      . intro srmp
        apply mono_const
      . simp

theorem rspSrm_cback
    (h : rspSrm link pkt pktLen rspCode fuel = .ok link') : link'.cback = link.cback := by
  unfold rspSrm at h
  split at h
  . cases h
    rfl
  . obtain ⟨srm, _, h⟩ := bind_ok.mp h
    obtain ⟨srmp, _, h⟩ := bind_ok.mp h
    cases h
    rfl

theorem halts_rspPut :
    Halts (rspPut link pkt pktLen rspCode) ↔
      (rspCode = obexRspContinue → SearchOk pkt pktLen obexBaseLen obexHiSrm ∧
        SearchOk pkt pktLen obexBaseLen obexHiSrmp) ∧
      (rspCode = obexRspSuccess ∨ rspCode = obexRspContinue →
        HdrsOk pkt obexHiName anyValue 0 pktLen) := by
  unfold rspPut
  by_cases h : rspCode = obexRspSuccess ∨ rspCode = obexRspContinue
  . simp only [if_pos h]
    refine (halts_bind_const (Q := HdrsOk pkt obexHiName anyValue 0 pktLen) mono_rspSrm
      ?_ ?_).trans ?_
    . intro link'
      apply mono_find.bind
      intro _
      apply mono_const
    . intro link' _
      refine (halts_bind_const (Q := True) mono_find ?_ ?_).trans ?_
      . intro _
        apply mono_const
      . simp
      . simp [halts_find]
    . rw [halts_rspSrm]
      rcases h with rfl | rfl
      . simp [obexRspSuccess, obexRspContinue]
      . simp [obexRspSuccess, obexRspContinue]
  . have hne := not_or.mp h
    simp [hne]

theorem halts_rspGet :
    Halts (rspGet link pkt pktLen rspCode) ↔
      (rspCode = obexRspContinue → SearchOk pkt pktLen obexBaseLen obexHiSrm ∧
        SearchOk pkt pktLen obexBaseLen obexHiSrmp) ∧
      (rspCode = obexRspSuccess ∨ rspCode = obexRspContinue → link.cback →
        HandedOn pkt pktLen obexBaseLen) := by
  unfold rspGet
  by_cases h : rspCode = obexRspSuccess ∨ rspCode = obexRspContinue
  . simp only [if_pos h]
    refine (halts_bind_const (Q := link.cback → HandedOn pkt pktLen obexBaseLen) mono_rspSrm
      ?_ ?_).trans ?_
    . intro link'
      apply Mono.ite
      . apply mono_const
      . apply mono_const
    . rintro link' ⟨fuel, hrun⟩
      rw [← rspSrm_cback hrun]
      by_cases hc : link'.cback
      . simp only [hc, if_true, forall_const]
        apply halts_handOn_bind
        intro s
        exact ⟨_, rfl⟩
      . simp [hc]
    . rw [halts_rspSrm]
      rcases h with rfl | rfl
      . simp [obexRspSuccess, obexRspContinue]
      . simp [obexRspSuccess, obexRspContinue]
  . have hne := not_or.mp h
    simp [hne]

theorem halts_handleRspPkt :
    Halts (obexHandleRspPkt link pkt pktLen alloc) ↔ RspOk link pkt pktLen alloc := by
  have hstate : Halts (rspState link pkt pktLen alloc (opcode pkt)) ↔
      (link.state = .obexConnecting → opcode pkt = obexRspSuccess →
        6 < pkt.length ∧ SearchOk pkt pktLen obexConnectLen obexHiConnectionId) ∧
      (link.state = .obexConnecting → opcode pkt = obexRspUnauthorized →
        HdrsOk pkt obexHiAuthenChallenge (fun p len => alloc → ChallengeOk pkt p len)
          obexConnectLen (sub16 pktLen obexConnectLen)) ∧
      (link.state = .put ∨ link.state = .get → opcode pkt = obexRspContinue →
        SearchOk pkt pktLen obexBaseLen obexHiSrm ∧ SearchOk pkt pktLen obexBaseLen obexHiSrmp) ∧
      (link.state = .put → opcode pkt = obexRspSuccess ∨ opcode pkt = obexRspContinue →
        HdrsOk pkt obexHiName anyValue 0 pktLen) ∧
      (link.state = .get → opcode pkt = obexRspSuccess ∨ opcode pkt = obexRspContinue →
        link.cback → HandedOn pkt pktLen obexBaseLen) := by
    unfold rspState
    cases hs : link.state with
    | obexConnecting =>
      by_cases hsucc : opcode pkt = obexRspSuccess
      . simp [hsucc, halts_rspConnected, obexRspSuccess, obexRspUnauthorized]
      by_cases hun : opcode pkt = obexRspUnauthorized
      . simp [hun, halts_rspUnauthorized, obexRspSuccess, obexRspUnauthorized]
      . simp [hsucc, hun]
    | put => simp [halts_rspPut]
    | get => simp [halts_rspGet]
    | _ => simp
  refine halts_byteAt_bind.trans ((and_congr_right fun _ => hstate).trans ?_)
  constructor
  . rintro ⟨hne, hconn, hun, hsrm, hput, hget⟩
    exact ⟨hne, hconn, hun, hsrm, hput, hget⟩
  . rintro ⟨hne, hconn, hun, hsrm, hput, hget⟩
    exact ⟨hne, hconn, hun, hsrm, hput, hget⟩

end

theorem halts_handlePkt :
    Halts (handlePkt link pkt pktLen allocs) ↔ PktOk link pkt pktLen allocs := by
  unfold handlePkt PktOk
  cases link.role with
  | server => exact halts_handleReqPkt
  | client => exact halts_handleRspPkt

theorem halts_dataIndRest :
    Halts (dataIndRest link rx pkt allocs) ↔
      ((rx.data ++ pkt).length = rx.totalLen → PktOk link (rx.data ++ pkt) rx.totalLen allocs) := by
  have hlt := rx.len_lt
  unfold dataIndRest
  by_cases hroom : pkt.length ≤ rx.totalLen - rx.data.length
  . simp only [hroom, dif_pos]
    by_cases hfull : (rx.data ++ pkt).length = rx.totalLen
    . simp only [hfull, dif_pos, halts_map, halts_handlePkt, forall_const]
    . simp only [hfull, dif_neg, not_false_eq_true, halts_pure, false_implies]
  . have hfull : (rx.data ++ pkt).length ≠ rx.totalLen := by
      simp only [List.length_append]
      omega
    simp only [hroom, hfull, dif_neg, not_false_eq_true, halts_pure, false_implies]

theorem halts_dataIndTotal :
    Halts (dataIndTotal link pkt n allocs) ↔ (n ≤ pkt.length → PktOk link pkt n allocs) := by
  unfold dataIndTotal
  by_cases h : pkt.length < n
  . have hle : ¬n ≤ pkt.length := by omega
    simp only [dif_pos h, hle, false_implies, iff_true]
    split_ifs <;> simp
  . have hle : n ≤ pkt.length := by omega
    simp only [dif_neg h, hle, true_implies]
    exact halts_handlePkt

theorem halts_dataIndFirst :
    Halts (dataIndFirst link pkt allocs) ↔
      2 < pkt.length ∧ (totalLen pkt ≤ pkt.length → PktOk link pkt (totalLen pkt) allocs) := by
  refine halts_const_bind.trans ?_
  simp only [halts_dataIndTotal]
  constructor
  . rintro ⟨n, hn, h⟩
    obtain ⟨hlt, rfl⟩ := be16At_ok.mp hn
    exact ⟨hlt, h⟩
  . rintro ⟨hlt, h⟩
    exact ⟨_, be16At_ok.mpr ⟨hlt, rfl⟩, h⟩

theorem halts_handleDataInd :
    Halts (obexHandleDataInd link pkt allocs) ↔ DataIndOk link pkt allocs := by
  unfold obexHandleDataInd DataIndOk
  cases link.rxData with
  | some rx => exact halts_dataIndRest
  | none => exact halts_dataIndFirst

def FindSafe (pkt : List UInt8) (tgt p len : Nat) : Prop :=
  ∃ fuel found, obexFindHdrInPkt pkt tgt fuel p len = .ok found ∧
    ∀ s, found = some s → HdrValue pkt tgt s

def ValueSafe (param : List UInt8) (tag p len : Nat) : Prop :=
  ∃ fuel found, obexFindValueInAppParam param tag fuel p len = .ok found ∧
    ∀ s, found = some s → TagValue param tag s

theorem findSafe_iff : FindSafe pkt tgt p len ↔ HdrsOk pkt tgt anyValue p len := by
  constructor
  . rintro ⟨fuel, found, h, _⟩
    exact hdrsOk_of_find (fun _ _ => trivial) h
  . intro h
    obtain ⟨fuel, found, hrun, _⟩ := find_of_hdrsOk h
    refine ⟨fuel, found, hrun, ?_⟩
    rintro s rfl
    exact find_hdrValue hrun

theorem valueSafe_iff : ValueSafe param tag p len ↔ TagsOk param tag p len := by
  constructor
  . rintro ⟨fuel, found, h, _⟩
    exact tagsOk_of_value h
  . intro h
    obtain ⟨fuel, found, hrun⟩ := value_of_tagsOk h
    refine ⟨fuel, found, hrun, ?_⟩
    rintro s rfl
    exact value_tagValue hrun

theorem parsing_safe_iff (pkt : List UInt8) :
    (∀ tgt p len, FindSafe pkt tgt p len ↔ HdrsOk pkt tgt anyValue p len) ∧
      (∀ tag p len, ValueSafe pkt tag p len ↔ TagsOk pkt tag p len) ∧
      (∀ link pktLen, Halts (obexHandleReqPkt link pkt pktLen) ↔ ReqOk link pkt pktLen) ∧
      (∀ link pktLen alloc,
        Halts (obexHandleRspPkt link pkt pktLen alloc) ↔ RspOk link pkt pktLen alloc) ∧
      ∀ link allocs, Halts (obexHandleDataInd link pkt allocs) ↔ DataIndOk link pkt allocs :=
  ⟨fun _ _ _ => findSafe_iff, fun _ _ _ => valueSafe_iff, fun _ _ => halts_handleReqPkt,
    fun _ _ _ => halts_handleRspPkt, fun _ _ => halts_handleDataInd⟩

def idleServer : Link :=
  { psm := 0x1001, cid := 0x40, dlci := 0, state := .idle, role := .server, srmStatus := .disable,
    connId := 0, remoteMaxPktLen := 255, rxData := none, cback := true }

theorem put_endless :
    ¬Halts (obexHandleDataInd idleServer [0x02, 0x00, 0x06, 0x01, 0x00, 0x00] ⟨true, true⟩) := by
  rw [halts_handleDataInd]
  rintro ⟨_, h⟩
  have hreq : ReqOk idleServer [0x02, 0x00, 0x06, 0x01, 0x00, 0x00] 6 := h (by decide)
  have hsearch : HdrsOk [0x02, 0x00, 0x06, 0x01, 0x00, 0x00] obexHiSrm anyValue 3 3 :=
    hreq.srm rfl (by decide) rfl
  have hhdr : byteAt [0x02, 0x00, 0x06, 0x01, 0x00, 0x00] 3 = .ok 1 := rfl
  have hlens : wireLens [0x02, 0x00, 0x06, 0x01, 0x00, 0x00] 3 1 = (0, 3) := by decide
  cases hsearch with
  | short _ h1 _ hshort =>
    cases hhdr.symm.trans h1
    rw [hlens] at hshort
    omega
  | found _ h1 => cases hhdr.symm.trans h1
  | skip _ h1 _ _ _ hpos =>
    cases hhdr.symm.trans h1
    rw [hlens] at hpos
    exact hpos rfl

end Obex
