import Earphone.Rfc.Receive

namespace Rfc

open List

def DataInd.testData (ind : DataInd) : Option (List Nat) :=
  let p := ind.start + ind.uihHeader ind.start
  if p + ind.uihLen ind.start ≤ ind.start + ind.len then
    some ((List.range (ind.uihLen ind.start)).map fun i => ind.octet (p + i))
  else
    none

def testRspType : Nat := 0x21

structure Frame.Safe (ind : DataInd) (f : Frame) : Prop where
  init : ∀ o ∈ f.bytes, o ≠ .uninit
  test : f.info.head? = some (.known testRspType) → ∃ data, ind.testData = some data ∧
    f.info = .known testRspType :: .known (2 * data.length + 1) :: data.map .known

structure FrameSafe (ind : DataInd) (log : Log) : Prop where
  reads : ∀ i ∈ log.reads, ind.gap ≤ i ∧ i < ind.gap + ind.length
  sent : ∀ f ∈ log.sent, f.Safe ind

def canReply (chann : Chann) (db : Db) : Prop :=
  (db.ctrl chann).linkState = .connected ∧ db.bufs.headD true = true

structure CommandOk (ctrl : Chann) (ind : DataInd) (db : Db) : Prop where
  header : ind.uihHeader ind.start ≤ ind.len + 1
  pn : ind.octet ind.start >>> 2 = rfcTypePn → ind.uihHeader ind.start ≤ ind.len
  msc : ind.octet ind.start >>> 2 = rfcTypeMsc → ind.uihHeader ind.start ≤ ind.len ∧
    ((rfcFindChannByDlci (ind.octet (ind.start + ind.uihHeader ind.start) >>> 2) ctrl.l2cCid
      db).isSome → ind.uihHeader ind.start + 1 ≤ ind.len)
  rls : ind.octet ind.start >>> 2 = rfcTypeRls → ind.uihHeader ind.start ≤ ind.len ∧
    ((rfcFindChannByDlci (ind.octet (ind.start + ind.uihHeader ind.start) >>> 2) ctrl.l2cCid
      db).isSome → ind.octet ind.start &&& 2 ≠ 0 → ind.uihHeader ind.start + 1 ≤ ind.len)
  rpn : ind.octet ind.start >>> 2 = rfcTypeRpn →
    ind.uihLen ind.start = 1 ∨ ind.uihLen ind.start = 8 → ind.uihHeader ind.start ≤ ind.len ∧
      ((rfcFindChannByDlci (ind.octet (ind.start + ind.uihHeader ind.start) >>> 2) ctrl.l2cCid
        db).isSome = false → db.allocs.headD true = true →
          ind.uihHeader ind.start + ind.uihLen ind.start ≤ ind.len + 1 ∧
            (ind.octet ind.start &&& 2 ≠ 0 → canReply ctrl db → ind.uihLen ind.start = 8))
  test : ind.octet ind.start >>> 2 = rfcTypeTest → ind.octet ind.start &&& 2 ≠ 0 →
    ind.uihHeader ind.start + uihCopied (ind.uihLen ind.start) ≤ ind.len + 1 ∧
      (canReply ctrl db → ind.uihLen ind.start ≤ 30 ∧
        ind.uihHeader ind.start + ind.uihLen ind.start ≤ ind.len)

def FrameOk (ind : DataInd) (db : Db) : Prop :=
  4 ≤ ind.length → ind.start ≤ ind.length ∧
    (ind.len + 1 = ind.rest → ind.checked = true → ind.dlci = 0 → ind.type = rfcUih →
      ∀ ctrl, rfcFindChannByDlci 0 ind.cid db = some ctrl → ctrl.state = .connected →
        CommandOk ctrl ind db)

def Frame.Plain (f : Frame) : Prop :=
  (∀ o ∈ f.info, o ≠ .uninit) ∧ f.info.head? ≠ some (.known testRspType)

structure Quiet (db db' : Db) : Prop where
  reads : db'.log.reads = db.log.reads
  sent : ∃ frames, db'.log.sent = db.log.sent ++ frames ∧ ∀ f ∈ frames, f.Plain

theorem Quiet.of_log (hreads : db'.log.reads = db.log.reads)
    (hsent : db'.log.sent = db.log.sent) : Quiet db db' :=
  ⟨hreads, [], by simp [hsent], by simp⟩

theorem Quiet.refl (db : Db) : Quiet db db := .of_log rfl rfl

theorem Quiet.trans (h : Quiet db₁ db2) (h' : Quiet db2 db3) : Quiet db₁ db3 := by
  obtain ⟨fs, hfs, hplain⟩ := h.sent
  obtain ⟨fs', hfs', hplain'⟩ := h'.sent
  refine ⟨h'.reads.trans h.reads, fs ++ fs', by rw [hfs', hfs, append_assoc], ?_⟩
  intro f hf
  rw [mem_append] at hf
  exact hf.elim (hplain f) (hplain' f)

theorem quiet_foldl {α : Type} {f : Db → α → Db} (h : ∀ db a, Quiet db (f db a)) (l : List α)
    (db : Db) : Quiet db (l.foldl f db) := by
  induction l generalizing db with
  | nil => exact Quiet.refl db
  | cons a l ih => exact (h db a).trans (ih (f db a))

theorem quiet_modify (db : Db) (id : Nat) (f : Chann → Chann) : Quiet db (db.modify id f) :=
  .of_log rfl rfl

theorem quiet_req (db : Db) (r : MpaReq) : Quiet db (db.req r) := .of_log rfl rfl

theorem quiet_rfcMsgPost (service : Option Nat) (msg : Msg) (db : Db) :
    Quiet db (rfcMsgPost service msg db) := by
  unfold rfcMsgPost
  split
  . split <;> exact .of_log rfl rfl
  . exact Quiet.refl db

theorem quiet_rfcFreeChann (chann : Chann) (cause : Nat) (db : Db) :
    Quiet db (rfcFreeChann chann cause db) := by
  unfold rfcFreeChann
  dsimp only
  have herase : Quiet db { db with channList := Table.erase Chann.id db.channList chann.id } :=
    .of_log rfl rfl
  split
  . exact herase.trans (quiet_rfcMsgPost _ _ _)
  . exact herase

theorem quiet_rfcSendAuthenReq (chann : Chann) (outgoing : Bool) (db : Db) :
    Quiet db (rfcSendAuthenReq chann outgoing db) := .of_log rfl rfl

theorem quiet_postConnCmpl (chann : Chann) (db : Db) : Quiet db (postConnCmpl chann db) := by
  have hread : Quiet db (readServiceId chann db).2 := .of_log rfl rfl
  exact hread.trans (quiet_rfcMsgPost _ _ _)

theorem quiet_mpaSendL2cDataReq (h : frame.Plain) (db : Db) :
    Quiet db (mpaSendL2cDataReq frame db) :=
  ⟨rfl, [frame], rfl, by simpa using h⟩

theorem quiet_mpaGetL2cBuf (db : Db) : Quiet db (mpaGetL2cBuf db).2 := .of_log rfl rfl

theorem plain_of_info_nil {f : Frame} (h : f.info = []) : f.Plain := by simp [Frame.Plain, h]

theorem quiet_checkSendCredits (db : Db) (id : Nat) : Quiet db (checkSendCredits db id) := by
  unfold checkSendCredits
  dsimp only
  split
  . split
    . refine Quiet.trans ?_ (quiet_mpaSendL2cDataReq (plain_of_info_nil rfl) _)
      exact (quiet_mpaGetL2cBuf db).trans (quiet_modify ..)
    . exact quiet_mpaGetL2cBuf db
  . exact Quiet.refl db

theorem quiet_rfcCheckSendCredits (db : Db) : Quiet db (rfcCheckSendCredits db) :=
  quiet_foldl quiet_checkSendCredits _ _

theorem quiet_rfcSendFrame (hinit : ∀ o ∈ data, o ≠ .uninit)
    (hhead : data.head? ≠ some (.known testRspType)) (ctrl : Chann) (dlci ctl : Nat) (cr poll : Bool)
    (db : Db) : Quiet db (rfcSendFrame ctrl dlci ctl cr poll data db) := by
  unfold rfcSendFrame
  dsimp only
  split
  . exact Quiet.refl db
  . split
    . refine (quiet_mpaGetL2cBuf db).trans ?_
      exact quiet_mpaSendL2cDataReq ⟨hinit, hhead⟩ _
    . exact quiet_mpaGetL2cBuf db

theorem quiet_rfcSendControl (ctrl : Chann) (dlci ctl : Nat) (cr poll : Bool) (db : Db) :
    Quiet db (rfcSendFrame ctrl dlci ctl cr poll [] db) :=
  quiet_rfcSendFrame (by simp) (by simp) ..

theorem quiet_rfcSendUih (hinit : ∀ o ∈ data, o ≠ .uninit) (chann : Chann)

    (htype : (type <<< 2 ||| cr.toNat <<< 1 ||| rfcEaBit) % 2 ^ 8 ≠ testRspType) (len : Nat)
    (db : Db) : Quiet db (rfcSendUih chann type cr data len db) := by
  unfold rfcSendUih uihBuf
  apply quiet_rfcSendFrame
  . intro o ho
    simp only [mem_cons] at ho
    obtain rfl | rfl | ho := ho
    . simp
    . simp
    . exact hinit o (mem_of_mem_take ho)
  . simpa using htype

theorem quiet_rfcSendMsc (chann : Chann) (cr : Bool) (dlci status sbreak : Nat) (db : Db) :
    Quiet db (rfcSendMsc chann cr dlci status sbreak db) := by
  unfold rfcSendMsc
  dsimp only
  split <;> cases cr <;> exact quiet_rfcSendUih (by simp) chann (by decide) _ db

theorem quiet_rfcCloseDataChann (ctrl cause : Nat) (db : Db) :
    Quiet db (rfcCloseDataChann ctrl cause db) := by
  unfold rfcCloseDataChann
  refine (quiet_foldl ?_ _ db).trans (quiet_rfcCheckSendCredits _)
  intro db id
  unfold closeDataChann
  dsimp only
  split
  . exact quiet_rfcFreeChann _ _ db
  . exact Quiet.refl db

theorem quiet_rfcCheckDisconnCtrlChann (ctrl : Chann) (db : Db) :
    Quiet db (rfcCheckDisconnCtrlChann ctrl db) := by
  unfold rfcCheckDisconnCtrlChann
  split
  . exact Quiet.refl db
  . split
    . split <;> exact .of_log rfl rfl
    . exact quiet_modify ..
    . exact (quiet_modify ..).trans (quiet_rfcSendControl ..)
    . exact Quiet.refl db

theorem quiet_disconnLink (chann : Chann) (cause : Nat) (db : Db) :
    Quiet db (disconnLink chann cause db) :=
  (quiet_rfcCloseDataChann ..).trans ((quiet_req ..).trans (quiet_modify ..))

theorem quiet_limitFrameSize (id : Nat) (db : Db) : Quiet db (limitFrameSize id db) := by
  unfold limitFrameSize
  dsimp only
  split
  . exact quiet_modify ..
  . exact Quiet.refl db

theorem quiet_connectOpened (ctrl : Nat) (db : Db) : Quiet db (connectOpened ctrl db) := by
  unfold connectOpened
  apply quiet_foldl
  intro db id
  unfold connectOpenedChann
  dsimp only
  split
  . exact (quiet_limitFrameSize id db).trans (quiet_rfcSendAuthenReq ..)
  . exact Quiet.refl db

section

variable (chann : Chann)

include chann

theorem quiet_startMsc (db : Db) : Quiet db (startMsc chann db) := by
  unfold startMsc startRspTimer
  exact ((quiet_modify ..).trans (quiet_modify ..)).trans (quiet_rfcSendMsc ..)

theorem quiet_rfcHandleSabm (poll : Bool) (db : Db) : Quiet db (rfcHandleSabm chann poll db) := by
  unfold rfcHandleSabm
  split
  . exact Quiet.refl db
  . split
    . dsimp only
      refine Quiet.trans ?_ (quiet_connectOpened ..)
      refine Quiet.trans ?_ (quiet_modify ..)
      refine Quiet.trans ?_ (quiet_rfcSendControl ..)
      split
      . exact quiet_modify ..
      . exact Quiet.refl db
    . split
      . exact (quiet_rfcSendControl ..).trans (quiet_startMsc ..)
      . exact quiet_rfcSendControl ..
      . exact (quiet_rfcSendControl ..).trans (quiet_rfcFreeChann ..)

theorem quiet_sendPendingDisc (db : Db) : Quiet db (sendPendingDisc chann db) :=
  (quiet_modify ..).trans (quiet_rfcSendControl ..)

theorem quiet_rfcHandleUa (poll : Bool) (db : Db) : Quiet db (rfcHandleUa chann poll db) := by
  unfold rfcHandleUa
  split
  . exact Quiet.refl db
  . dsimp only
    have hstop := quiet_modify db chann.id fun chann => { chann with waitRspTimer := false }
    split
    . split
      . exact (hstop.trans (quiet_modify ..)).trans (quiet_connectOpened ..)
      . exact hstop.trans (quiet_sendPendingDisc ..)
      . exact (hstop.trans (quiet_modify ..)).trans (quiet_disconnLink ..)
      . exact hstop
    . split
      . exact hstop.trans (quiet_startMsc ..)
      . exact hstop.trans (quiet_sendPendingDisc ..)
      . exact ((hstop.trans (quiet_modify ..)).trans (quiet_rfcCheckDisconnCtrlChann ..)).trans
          (quiet_rfcFreeChann ..)
      . exact hstop

theorem quiet_failChann (cause : Nat) (db : Db) : Quiet db (failChann chann cause db) := by
  unfold failChann
  dsimp only
  refine Quiet.trans ?_ (quiet_rfcFreeChann ..)
  split
  . exact (quiet_modify ..).trans (quiet_rfcCheckDisconnCtrlChann ..)
  . exact (quiet_modify ..).trans (quiet_disconnLink ..)

theorem quiet_rfcHandleDm (db : Db) : Quiet db (rfcHandleDm chann db) := by
  unfold rfcHandleDm
  split
  . exact (quiet_failChann ..).trans (quiet_rfcCheckSendCredits ..)
  . exact Quiet.refl db

theorem quiet_rfcHandleDisc (poll : Bool) (db : Db) : Quiet db (rfcHandleDisc chann poll db) := by
  unfold rfcHandleDisc
  split
  . exact Quiet.refl db
  . split
    . dsimp only
      have hidle : Quiet db (setIdle chann.id (rfcSendUa chann false true db)) :=
        (quiet_rfcSendControl ..).trans (quiet_modify ..)
      split
      . exact hidle.trans (quiet_disconnLink ..)
      . exact (hidle.trans (quiet_rfcCheckDisconnCtrlChann ..)).trans (quiet_rfcFreeChann ..)
    . dsimp only
      refine Quiet.trans ?_ (quiet_rfcCheckSendCredits ..)
      have hans : Quiet db (if chann.state = .connected then rfcSendUa chann false true db
          else rfcSendDm (db.ctrl chann) chann.dlci false true db) := by
        split <;> exact quiet_rfcSendControl ..
      split
      . exact (hans.trans (quiet_modify ..)).trans (quiet_rfcCloseDataChann ..)
      . exact (hans.trans (quiet_modify ..)).trans (quiet_rfcFreeChann ..)

theorem quiet_handleUserData (ind : DataInd) (db : Db) :
    Quiet db (handleUserData chann ind db) := by
  unfold handleUserData
  dsimp only
  split
  . split
    . exact ((quiet_modify ..).trans (quiet_rfcCheckSendCredits ..)).trans (quiet_rfcMsgPost ..)
    . exact quiet_rfcMsgPost ..
  . split
    . exact ((quiet_modify ..).trans (quiet_rfcCheckSendCredits ..)).trans (quiet_rfcMsgPost ..)
    . exact quiet_rfcMsgPost ..

end

theorem quiet_handleNoChann (ctrl : Chann) (ind : DataInd) (db : Db) :
    Quiet db (handleNoChann ctrl ind db) := by
  unfold handleNoChann
  split
  . exact quiet_rfcSendControl ..
  . split
    . exact quiet_rfcSendControl ..
    . exact Quiet.refl db

section

variable {ind : DataInd} {db db' : Db}

def InfoSafe (ind : DataInd) (info : List Octet) : Prop :=
  (∀ o ∈ info, o ≠ .uninit) ∧
    (info.head? = some (.known testRspType) → ∃ data, ind.testData = some data ∧
      info = .known testRspType :: .known (2 * data.length + 1) :: data.map .known)

theorem safe_iff (f : Frame) : f.Safe ind ↔ InfoSafe ind f.info := by
  constructor
  . intro h
    refine ⟨?_, h.test⟩
    intro o ho
    exact h.init o (by simp [Frame.bytes, ho])
  . intro h
    refine ⟨?_, h.2⟩
    intro o ho
    simp only [Frame.bytes, mem_append, mem_map, mem_singleton] at ho
    obtain ((⟨n, _, rfl⟩ | ho) | rfl) := ho
    . simp
    . exact h.1 o ho
    . simp

theorem Frame.Plain.safe {f : Frame} (h : f.Plain) : f.Safe ind :=
  (safe_iff f).mpr ⟨h.1, fun hhead => absurd hhead h.2⟩

theorem frameSafe_quiet (h : Quiet db db') : FrameSafe ind db'.log ↔ FrameSafe ind db.log := by
  obtain ⟨frames, hsent, hplain⟩ := h.sent
  constructor
  . intro hsafe
    refine ⟨by rw [← h.reads]; exact hsafe.reads, ?_⟩
    intro f hf
    exact hsafe.sent f (by rw [hsent]; exact mem_append_left _ hf)
  . intro hsafe
    refine ⟨by rw [h.reads]; exact hsafe.reads, ?_⟩
    intro f hf
    rw [hsent, mem_append] at hf
    exact hf.elim (hsafe.sent f) fun hf => (hplain f hf).safe

theorem frameSafe_read (offsets : List Nat) :
    FrameSafe ind (db.read ind offsets).log ↔
      FrameSafe ind db.log ∧ ∀ i ∈ offsets, i < ind.length := by
  constructor
  . intro h
    refine ⟨⟨?_, h.sent⟩, ?_⟩
    . intro i hi
      exact h.reads i (mem_append_left _ hi)
    . intro i hi
      have := h.reads (ind.gap + i) (mem_append_right _ (mem_map_of_mem hi))
      omega
  . intro ⟨h, hlt⟩
    refine ⟨?_, h.sent⟩
    intro i hi
    simp only [Db.read, mem_append, mem_map] at hi
    obtain hi | ⟨j, hj, rfl⟩ := hi
    . exact h.reads i hi
    . have := hlt j hj
      omega

theorem frameSafe_readRange (p n : Nat) :
    FrameSafe ind (db.read ind ((List.range n).map (p + ·))).log ↔
      FrameSafe ind db.log ∧ (n = 0 ∨ p + n ≤ ind.length) := by
  rw [frameSafe_read]
  refine and_congr_right fun _ => ?_
  simp only [mem_map, mem_range, forall_exists_index, and_imp,
    forall_apply_eq_imp_iff₂]
  constructor
  . intro h
    by_cases hzero : n = 0
    . exact .inl hzero
    . have := h (n - 1) (by omega)
      omega
  . intro h i hi
    omega

theorem frameSafe_rfcSendFrame (ctrl : Chann) (dlci ctl : Nat) (cr poll : Bool)
    (data : List Octet) :
    FrameSafe ind (rfcSendFrame ctrl dlci ctl cr poll data db).log ↔
      FrameSafe ind db.log ∧
        (ctrl.linkState = .connected ∧ db.bufs.headD true = true → InfoSafe ind data) := by
  unfold rfcSendFrame
  dsimp only
  split
  . next hlink => simp [hlink]
  . next hlink =>
    have hlink : ctrl.linkState = .connected := Decidable.not_not.mp hlink
    split
    . next hbuf =>
      have hbuf : db.bufs.headD true = true := hbuf
      simp only [hlink, hbuf, true_and, true_implies]
      constructor
      . intro h
        refine ⟨⟨h.reads, ?_⟩, ?_⟩
        . intro f hf
          exact h.sent f (mem_append_left _ hf)
        . exact (safe_iff _).mp (h.sent _ (mem_append_right _ (mem_singleton_self _)))
      . intro ⟨h, hinfo⟩
        refine ⟨h.reads, ?_⟩
        intro f hf
        simp only [mpaSendL2cDataReq, mpaGetL2cBuf, mem_append, mem_singleton] at hf
        obtain hf | rfl := hf
        . exact h.sent f hf
        . exact (safe_iff _).mpr hinfo
    . next hbuf =>
      have hbuf : ¬db.bufs.headD true = true := hbuf
      rw [frameSafe_quiet (quiet_mpaGetL2cBuf db)]
      exact ⟨fun h => ⟨h, fun hsent => absurd hsent.2 hbuf⟩, And.left⟩

theorem frameSafe_rfcSendUih (chann : Chann) (type : Nat) (cr : Bool) (data : List Octet)
    (len : Nat) :
    FrameSafe ind (rfcSendUih chann type cr data len db).log ↔
      FrameSafe ind db.log ∧ (canReply chann db → InfoSafe ind (uihBuf type cr data len)) :=
  frameSafe_rfcSendFrame _ _ _ _ _ _

theorem infoSafe_rpn (h : tlen = 1 ∨ tlen = 8) (p : Nat) :
    InfoSafe ind (uihBuf rfcTypeRpn false
      (ind.copy p tlen ++ List.replicate (8 - tlen) .uninit) 8) ↔ tlen = 8 := by
  obtain rfl | rfl := h
  . simp [InfoSafe, uihBuf, uihCopied, DataInd.copy, List.replicate]
  . simp only [InfoSafe, uihBuf, uihCopied, DataInd.copy, rfcTypeRpn, rfcEaBit, testRspType]
    simp only [List.range, List.range.loop]
    simp

theorem infoSafe_test :
    InfoSafe ind (uihBuf rfcTypeTest false
        (ind.copy (ind.start + ind.uihHeader ind.start) (uihCopied (ind.uihLen ind.start)))
        (ind.uihLen ind.start)) ↔
      ind.uihLen ind.start ≤ 30 ∧ ind.uihHeader ind.start + ind.uihLen ind.start ≤ ind.len := by
  generalize hn : ind.uihLen ind.start = n
  have htake : ∀ p, (ind.copy p (uihCopied n)).take (uihCopied n) = ind.copy p (uihCopied n) := by
    intro p
    rw [take_of_length_le]
    simp [DataInd.copy]
  have htype : (rfcTypeTest <<< 2 ||| false.toNat <<< 1 ||| rfcEaBit) % 2 ^ 8 = testRspType := rfl
  unfold InfoSafe uihBuf
  rw [htake, htype]
  constructor
  . intro ⟨_, htest⟩
    obtain ⟨data, hdata, hinfo⟩ := htest rfl
    unfold DataInd.testData at hdata
    rw [hn] at hdata
    dsimp only at hdata
    split at hdata
    . next hle =>
      have hlen := congrArg List.length hinfo
      rw [← Option.some.inj hdata] at hlen
      simp only [length_cons, length_map, DataInd.copy, length_range,
        uihCopied] at hlen
      omega
    . cases hdata
  . intro ⟨hle, hfit⟩
    have hcopied : uihCopied n = n := Nat.min_eq_left hle
    have hlen : ((n <<< 1) + rfcEaBit) % 2 ^ 8 = 2 * n + 1 := by
      rw [Nat.shiftLeft_eq]
      unfold rfcEaBit
      omega
    rw [hcopied, hlen]
    refine ⟨?_, ?_⟩
    . intro o ho
      simp only [DataInd.copy, mem_cons, mem_map] at ho
      obtain rfl | rfl | ⟨i, _, rfl⟩ := ho <;> simp
    . intro _
      refine ⟨(List.range n).map fun i => ind.octet (ind.start + ind.uihHeader ind.start + i), ?_, ?_⟩
      . unfold DataInd.testData
        rw [hn]
        exact if_pos (by omega)
      . simp [DataInd.copy]

end

theorem quiet_rfcAllocChann (dlci : Nat) (db : Db) : Quiet db (rfcAllocChann dlci db).2 := by
  unfold rfcAllocChann
  dsimp only
  split <;> exact .of_log rfl rfl

theorem encodePn_init (chann : Chann) : ∀ o ∈ rfcEncodePn chann, o ≠ .uninit := by
  simp [rfcEncodePn]

section

variable {ind : DataInd} (h : len = rfcSizePn → p + 7 < ind.length)

include h

theorem frameSafe_rfcDecodePn (id : Nat) :
    FrameSafe ind (rfcDecodePn id ind p len db).log ↔ FrameSafe ind db.log := by
  unfold rfcDecodePn
  split
  . next hlen =>
    have hlt := h hlen
    have hfirst : FrameSafe ind (db.read ind [p, p + 1, p + 4, p + 5]).log ↔
        FrameSafe ind db.log := by
      rw [frameSafe_read, and_iff_left]
      intro i hi
      simp only [mem_cons, not_mem_nil, or_false] at hi
      omega
    dsimp only
    split
    . rw [frameSafe_quiet (quiet_modify ..), frameSafe_read, frameSafe_quiet (quiet_modify ..),
        hfirst, and_iff_left]
      simpa using hlt
    . rw [frameSafe_quiet (quiet_modify ..), hfirst]
  . rfl

theorem frameSafe_handlePnCommand (ctrl chann : Chann) (oldDesc : Bool) :
    FrameSafe ind (handlePnCommand ctrl chann oldDesc ind p len db).log ↔ FrameSafe ind db.log := by
  unfold handlePnCommand
  split
  . dsimp only
    rw [frameSafe_quiet (quiet_rfcSendAuthenReq ..), frameSafe_quiet (quiet_modify ..),
      frameSafe_quiet (quiet_limitFrameSize ..), frameSafe_quiet (quiet_modify ..),
      frameSafe_rfcDecodePn h]
  . exact frameSafe_quiet (quiet_rfcSendUih (encodePn_init chann) ctrl (by decide) _ db)

theorem frameSafe_handlePnResponse (chann : Chann) :
    FrameSafe ind (handlePnResponse chann ind p len db).log ↔ FrameSafe ind db.log := by
  unfold handlePnResponse
  split
  . dsimp only
    unfold rfcSendSabm
    rw [frameSafe_quiet (quiet_rfcSendControl ..), frameSafe_quiet (quiet_modify ..),
      frameSafe_rfcDecodePn h]
  . rfl

theorem frameSafe_rfcHandlePn (ctrl : Chann) (tcr : Bool) :
    FrameSafe ind (rfcHandlePn ctrl tcr ind p len db).log ↔
      FrameSafe ind db.log ∧ p < ind.length := by
  have hread : FrameSafe ind (db.read ind [p]).log ↔ FrameSafe ind db.log ∧ p < ind.length := by
    simp [frameSafe_read]
  rw [← hread]
  unfold rfcHandlePn
  dsimp only
  split
  . exact frameSafe_handlePnCommand h ..
  . split
    . exact frameSafe_quiet (quiet_rfcSendControl ..)
    . next item _ =>
      have halloc := quiet_rfcAllocChann (ind.octet p) (db.read ind [p])
      split
      . next heq =>
        rw [heq] at halloc
        exact frameSafe_quiet (halloc.trans (quiet_rfcSendControl ..))
      . next heq =>
        rw [heq] at halloc
        rw [frameSafe_handlePnCommand h]
        exact frameSafe_quiet (halloc.trans (quiet_modify ..))
  . exact frameSafe_handlePnResponse h _
  . rfl

end

theorem quiet_handleMscResponse (chann : Chann) (db : Db) :
    Quiet db (handleMscResponse chann db) := by
  unfold handleMscResponse
  dsimp only
  split
  . exact ((quiet_modify ..).trans (quiet_modify ..)).trans (quiet_rfcSendMsc ..)
  . exact quiet_modify ..

theorem quiet_handleMscStatus (ctrl chann : Chann) (tcr : Bool) (dlci status : Nat) (db : Db) :
    Quiet db (handleMscStatus ctrl chann tcr dlci status db) := by
  unfold handleMscStatus
  split
  . exact (quiet_rfcSendMsc ..).trans (quiet_modify ..)
  . exact quiet_handleMscResponse ..

theorem frameSafe_rfcHandleMsc (ctrl : Chann) (tcr : Bool) (p : Nat) :
    FrameSafe ind (rfcHandleMsc ctrl tcr ind p db).log ↔
      FrameSafe ind db.log ∧ p < ind.length ∧
        ((rfcFindChannByDlci (ind.octet p >>> 2) ctrl.l2cCid db).isSome → p + 1 < ind.length) := by
  have hfind : rfcFindChannByDlci (ind.octet p >>> 2) ctrl.l2cCid (db.read ind [p]) =
    rfcFindChannByDlci (ind.octet p >>> 2) ctrl.l2cCid db := rfl
  unfold rfcHandleMsc
  dsimp only
  rw [hfind]
  split
  . next hnone => simp [frameSafe_read, hnone]
  . next chann hsome =>
    have hread : FrameSafe ind ((db.read ind [p]).read ind [p + 1]).log ↔
        FrameSafe ind db.log ∧ p < ind.length ∧
          ((rfcFindChannByDlci (ind.octet p >>> 2) ctrl.l2cCid db).isSome →
            p + 1 < ind.length) := by
      simp [frameSafe_read, hsome, and_assoc]
    rw [← hread]
    have hstatus := quiet_handleMscStatus ctrl chann tcr (ind.octet p >>> 2) (ind.octet (p + 1))
      ((db.read ind [p]).read ind [p + 1])
    split
    . exact frameSafe_quiet (((hstatus.trans (quiet_modify ..)).trans
        (quiet_postConnCmpl ..)).trans (quiet_rfcCheckSendCredits ..))
    . exact frameSafe_quiet hstatus

theorem frameSafe_rfcHandleRls (ctrl : Chann) (tcr : Bool) (p : Nat) :
    FrameSafe ind (rfcHandleRls ctrl tcr ind p db).log ↔
      FrameSafe ind db.log ∧ p < ind.length ∧
        ((rfcFindChannByDlci (ind.octet p >>> 2) ctrl.l2cCid db).isSome → tcr = true →
          p + 1 < ind.length) := by
  have hfind : rfcFindChannByDlci (ind.octet p >>> 2) ctrl.l2cCid (db.read ind [p]) =
    rfcFindChannByDlci (ind.octet p >>> 2) ctrl.l2cCid db := rfl
  unfold rfcHandleRls
  dsimp only
  rw [hfind]
  split
  . next hnone => simp [frameSafe_read, hnone]
  . next chann hsome =>
    split
    . next htcr =>
      rw [frameSafe_quiet (quiet_modify ..)]
      unfold rfcSendRls
      rw [frameSafe_quiet (quiet_rfcSendUih (by simp) ctrl (by decide) _ _)]
      simp [frameSafe_read, hsome, htcr, and_assoc]
    . next htcr => simp [frameSafe_read, hsome, htcr]

theorem canReply_modify (chann : Chann) (db : Db) (id : Nat)
    (hf : ∀ c, (f c).id = c.id) (hlink : ∀ c, (f c).linkState = c.linkState) :
    canReply chann (db.modify id f) ↔ canReply chann db := by
  have h : ((db.modify id f).ctrl chann).linkState = (db.ctrl chann).linkState := by
    unfold Db.ctrl
    split
    . rfl
    . exact chann_modify db id _ hf Chann.linkState hlink
  unfold canReply
  rw [h]
  rfl

theorem canReply_rfcAllocChann (chann : Chann) (dlci : Nat) (db : Db) :
    canReply chann (rfcAllocChann dlci db).2 ↔ canReply chann db := by
  unfold rfcAllocChann
  dsimp only
  split
  . have h : ∀ new : Chann, new.linkState = .idle → ∀ db' : Db,
        db'.channList = db.channList ++ [new] →
          (db'.ctrl chann).linkState = (db.ctrl chann).linkState := by
      intro new hidle db' hlist
      unfold Db.ctrl Db.chann Table.find?
      split
      . rfl
      . rw [hlist, find?_append]
        cases db.channList.find? _ with
        | some c => rfl
        | none =>
          rw [Option.none_or, find?_singleton]
          split
          . exact hidle
          . rfl
    unfold canReply
    rw [h _ rfl _ rfl]
  . rfl

theorem frameSafe_rfcHandleRpn (ctrl : Chann) (tcr : Bool) (p tlen : Nat) :
    FrameSafe ind (rfcHandleRpn ctrl tcr ind p tlen db).log ↔
      FrameSafe ind db.log ∧ (tlen = 1 ∨ tlen = 8 → p < ind.length ∧
        ((rfcFindChannByDlci (ind.octet p >>> 2) ctrl.l2cCid db).isSome = false →
          db.allocs.headD true = true →
            p + tlen ≤ ind.length ∧ (tcr = true → canReply ctrl db → tlen = 8))) := by
  have hfind : rfcFindChannByDlci (ind.octet p >>> 2) ctrl.l2cCid (db.read ind [p]) =
    rfcFindChannByDlci (ind.octet p >>> 2) ctrl.l2cCid db := rfl
  have hread : FrameSafe ind (db.read ind [p]).log ↔ FrameSafe ind db.log ∧ p < ind.length := by
    simp [frameSafe_read]
  unfold rfcHandleRpn
  dsimp only
  rw [hfind]
  split
  . next htlen =>
    have htlen : tlen = 1 ∨ tlen = 8 := by simpa using htlen
    simp only [htlen, true_implies]
    rw [← and_assoc, ← hread]
    split
    . next hnone =>
      simp only [hnone, Option.isSome_none, true_implies]
      have halloc := quiet_rfcAllocChann (ind.octet p >>> 2) (db.read ind [p])
      have hreply := canReply_rfcAllocChann ctrl (ind.octet p >>> 2) (db.read ind [p])
      split
      . next heq =>
        have hno : db.allocs.headD true = false := (alloc_none heq).1
        rw [heq] at halloc
        rw [frameSafe_quiet halloc, hno]
        simp
      . next new db' heq =>
        have hyes : db.allocs.headD true = true := (alloc_some heq).1
        rw [heq] at halloc hreply
        have hcopy : tlen = 0 ∨ p + tlen ≤ ind.length ↔ p + tlen ≤ ind.length :=
          or_iff_right (by omega)
        have hdb : FrameSafe ind ((db'.modify new.id fun chann =>
            { chann with ctrlChann := some ctrl.id }).read ind ((List.range tlen).map (p + ·))).log ↔
              FrameSafe ind (db.read ind [p]).log ∧ p + tlen ≤ ind.length := by
          rw [frameSafe_readRange, frameSafe_quiet (halloc.trans (quiet_modify ..)), hcopy]
        rw [hyes]
        split
        . next htcr =>
          have hlinks := canReply_modify ctrl db' new.id (f := fun chann =>
            { chann with ctrlChann := some ctrl.id }) (fun _ => rfl) (fun _ => rfl)
          rw [frameSafe_rfcSendUih, hdb, infoSafe_rpn htlen]
          have hcan : canReply ctrl ((db'.modify new.id fun chann =>
              { chann with ctrlChann := some ctrl.id }).read ind ((List.range tlen).map (p + ·))) ↔
              canReply ctrl db := hlinks.trans hreply
          rw [hcan, htcr]
          simp [and_assoc]
        . next htcr =>
          rw [hdb]
          simp [htcr]
    . next chann hsome =>
      simp only [hsome, Option.isSome_some, Bool.true_eq_false, false_implies, and_true]
      split
      . exact frameSafe_quiet (quiet_rfcSendUih (by simp) ctrl (by decide) _ _)
      . rfl
  . next htlen =>
    have htlen : ¬(tlen = 1 ∨ tlen = 8) := by simpa using htlen
    simp [htlen]

theorem commandOk_iff (ctrl : Chann) : CommandOk ctrl ind db ↔
    ind.uihHeader ind.start ≤ ind.len + 1 ∧
    (ind.octet ind.start >>> 2 = rfcTypePn → ind.uihHeader ind.start ≤ ind.len) ∧
    (ind.octet ind.start >>> 2 = rfcTypeMsc → ind.uihHeader ind.start ≤ ind.len ∧
      ((rfcFindChannByDlci (ind.octet (ind.start + ind.uihHeader ind.start) >>> 2) ctrl.l2cCid
        db).isSome → ind.uihHeader ind.start + 1 ≤ ind.len)) ∧
    (ind.octet ind.start >>> 2 = rfcTypeRls → ind.uihHeader ind.start ≤ ind.len ∧
      ((rfcFindChannByDlci (ind.octet (ind.start + ind.uihHeader ind.start) >>> 2) ctrl.l2cCid
        db).isSome → ind.octet ind.start &&& 2 ≠ 0 → ind.uihHeader ind.start + 1 ≤ ind.len)) ∧
    (ind.octet ind.start >>> 2 = rfcTypeRpn →
      ind.uihLen ind.start = 1 ∨ ind.uihLen ind.start = 8 → ind.uihHeader ind.start ≤ ind.len ∧
        ((rfcFindChannByDlci (ind.octet (ind.start + ind.uihHeader ind.start) >>> 2) ctrl.l2cCid
          db).isSome = false → db.allocs.headD true = true →
            ind.uihHeader ind.start + ind.uihLen ind.start ≤ ind.len + 1 ∧
              (ind.octet ind.start &&& 2 ≠ 0 → canReply ctrl db → ind.uihLen ind.start = 8))) ∧
    (ind.octet ind.start >>> 2 = rfcTypeTest → ind.octet ind.start &&& 2 ≠ 0 →
      ind.uihHeader ind.start + uihCopied (ind.uihLen ind.start) ≤ ind.len + 1 ∧
        (canReply ctrl db → ind.uihLen ind.start ≤ 30 ∧
          ind.uihHeader ind.start + ind.uihLen ind.start ≤ ind.len)) :=
  ⟨fun h => ⟨h.header, h.pn, h.msc, h.rls, h.rpn, h.test⟩,
    fun ⟨h1, h2, h3, h4, h5, h6⟩ => ⟨h1, h2, h3, h4, h5, h6⟩⟩

theorem frameSafe_rfcHandleUih (ctrl : Chann) (cr : Bool)
    (hfit : ind.start + ind.len + 1 = ind.length) :
    FrameSafe ind (rfcHandleUih ctrl ind ind.start ind.len cr db).log ↔
      FrameSafe ind db.log ∧ CommandOk ctrl ind db := by
  have hheader : 2 ≤ ind.uihHeader ind.start ∧ ind.uihHeader ind.start ≤ 3 := by
    unfold DataInd.uihHeader
    split <;> omega
  -- the header of the command is read first, whatever its type is
  generalize hdb1 : db.read ind ((List.range (ind.uihHeader ind.start)).map (ind.start + ·)) = db₁
  have hread : FrameSafe ind db₁.log ↔
      FrameSafe ind db.log ∧ ind.uihHeader ind.start ≤ ind.len + 1 := by
    rw [← hdb1, frameSafe_readRange]
    exact and_congr_right fun _ => by omega
  -- a response stops the timer, which changes nothing that the handlers read
  generalize hdb2 : (if (ind.octet ind.start &&& 2 ≠ 0 : Bool) then db₁ else
    db₁.modify ctrl.id fun chann => { chann with waitRspTimer := false }) = db2
  have hquiet : Quiet db₁ db2 := by
    rw [← hdb2]
    split
    . exact Quiet.refl db₁
    . exact quiet_modify ..
  have hfind : ∀ dlci, (rfcFindChannByDlci dlci ctrl.l2cCid db2).isSome =
      (rfcFindChannByDlci dlci ctrl.l2cCid db).isSome := by
    intro dlci
    rw [← hdb2, ← hdb1]
    split
    . rfl
    . apply Eq.trans
        (congrArg Option.isSome (find_modify _ _ _ _ (by exact fun _ => ⟨rfl, rfl, rfl, rfl⟩)))
      exact Option.isSome_map ..
  have hreply : canReply ctrl db2 ↔ canReply ctrl db := by
    rw [← hdb2, ← hdb1]
    split
    . rfl
    . exact canReply_modify ctrl _ _ (fun _ => rfl) (fun _ => rfl)
  have hallocs : db2.allocs = db.allocs := by
    rw [← hdb2, ← hdb1]
    split <;> rfl
  have hsafe : FrameSafe ind db2.log ↔
      FrameSafe ind db.log ∧ ind.uihHeader ind.start ≤ ind.len + 1 :=
    (frameSafe_quiet hquiet).trans hread
  have hlt : ∀ k, ind.start + ind.uihHeader ind.start + k < ind.length ↔
      ind.uihHeader ind.start + k ≤ ind.len := by omega
  have hlt0 : ind.start + ind.uihHeader ind.start < ind.length ↔
      ind.uihHeader ind.start ≤ ind.len := hlt 0
  have hle : ∀ k, ind.start + ind.uihHeader ind.start + k ≤ ind.length ↔
      ind.uihHeader ind.start + k ≤ ind.len + 1 := by omega
  unfold rfcHandleUih
  dsimp only
  rw [hdb1, hdb2, commandOk_iff, ← and_assoc, ← hsafe]
  generalize htype : ind.octet ind.start >>> 2 = type
  by_cases hpn : type = rfcTypePn
  . subst hpn
    rw [if_pos rfl, frameSafe_rfcHandlePn, hlt0]
    . simp [rfcTypePn, rfcTypeMsc, rfcTypeRls, rfcTypeRpn, rfcTypeTest]
    . have := ind.length_lt
      unfold rfcSizePn
      omega
  rw [if_neg hpn]
  by_cases hfcon : type = rfcTypeFcon
  . subst hfcon
    rw [if_pos rfl, and_iff_left
      (by simp [rfcTypeFcon, rfcTypePn, rfcTypeMsc, rfcTypeRls, rfcTypeRpn, rfcTypeTest])]
    split
    . exact frameSafe_quiet (((quiet_modify ..).trans
        (quiet_rfcSendUih (by simp) ctrl (by decide) _ _)).trans (quiet_rfcCheckSendCredits ..))
    . rfl
  rw [if_neg hfcon]
  by_cases hfcoff : type = rfcTypeFcoff
  . subst hfcoff
    rw [if_pos rfl, and_iff_left
      (by simp [rfcTypeFcoff, rfcTypePn, rfcTypeMsc, rfcTypeRls, rfcTypeRpn, rfcTypeTest])]
    split
    . exact frameSafe_quiet ((quiet_modify ..).trans
        (quiet_rfcSendUih (by simp) ctrl (by decide) _ _))
    . rfl
  rw [if_neg hfcoff]
  by_cases hmsc : type = rfcTypeMsc
  . subst hmsc
    rw [if_pos rfl, frameSafe_rfcHandleMsc, hlt0, hlt, hfind]
    simp [rfcTypePn, rfcTypeMsc, rfcTypeRls, rfcTypeRpn, rfcTypeTest]
  rw [if_neg hmsc]
  by_cases hrls : type = rfcTypeRls
  . subst hrls
    rw [if_pos rfl, frameSafe_rfcHandleRls, hlt0, hlt, hfind]
    simp [rfcTypePn, rfcTypeMsc, rfcTypeRls, rfcTypeRpn, rfcTypeTest]
  rw [if_neg hrls]
  by_cases hrpn : type = rfcTypeRpn
  . subst hrpn
    rw [if_pos rfl, frameSafe_rfcHandleRpn, hlt0, hle, hfind, hallocs, hreply]
    simp [rfcTypePn, rfcTypeMsc, rfcTypeRls, rfcTypeRpn, rfcTypeTest]
  rw [if_neg hrpn]
  by_cases htest : type = rfcTypeTest
  . subst htest
    rw [if_pos rfl]
    split
    . next hcr =>
      rw [frameSafe_rfcSendUih, infoSafe_test]
      -- the number of bytes in the echo comes from the length field of the command
      generalize uihCopied (ind.uihLen ind.start) = copied
      have hcopy : FrameSafe ind db2.log ∧
          (copied = 0 ∨ ind.start + ind.uihHeader ind.start + copied ≤ ind.length) ↔
            FrameSafe ind db2.log ∧ ind.uihHeader ind.start + copied ≤ ind.len + 1 := by
        apply and_congr_right
        intro hdb2
        have := (hsafe.mp hdb2).2
        omega
      rw [frameSafe_readRange, hcopy]
      have hcan : canReply ctrl (db2.read ind ((List.range copied).map
          (ind.start + ind.uihHeader ind.start + ·))) ↔ canReply ctrl db := hreply
      rw [hcan]
      simp only [decide_eq_true_eq] at hcr
      simp [rfcTypePn, rfcTypeMsc, rfcTypeRls, rfcTypeRpn, rfcTypeTest, hcr, and_assoc]
    . next hcr =>
      simp only [decide_eq_true_eq] at hcr
      simp [rfcTypePn, rfcTypeMsc, rfcTypeRls, rfcTypeRpn, rfcTypeTest, hcr]
  rw [if_neg htest, and_iff_left (by simp [hpn, hmsc, hrls, hrpn, htest])]
  split
  . exact frameSafe_quiet (quiet_disconnLink ..)
  . split
    . rw [frameSafe_quiet (quiet_rfcSendUih (by simp [DataInd.copy]) ctrl (by decide) _ _),
        frameSafe_read, and_iff_left]
      intro i hi
      simp only [mem_singleton] at hi
      omega
    . rfl

theorem octet_lt (ind : DataInd) (i : Nat) : ind.octet i < 2 ^ 8 := UInt8.toNat_lt _

theorem len_lt (ind : DataInd) : ind.len < 2 ^ 15 := by
  have h2 := octet_lt ind 2
  have h3 := octet_lt ind 3
  have hlow : ind.octet 2 >>> 1 < 2 ^ 15 := by
    rw [Nat.shiftRight_eq_div_pow]
    omega
  have hhigh : ind.octet 3 <<< 7 < 2 ^ 15 := by
    rw [Nat.shiftLeft_eq]
    omega
  unfold DataInd.len
  split
  . exact Nat.or_lt_two_pow hlow hhigh
  . exact hlow

theorem start_bounds (ind : DataInd) : 3 ≤ ind.start ∧ ind.start ≤ 5 := by
  unfold DataInd.start
  cases ind.credited <;> (split <;> simp)

theorem frameSafe_handleFrame (chann : Chann)
    (hfit : ind.start + ind.len + 1 = ind.length) :
    FrameSafe ind (handleFrame chann ind db).log ↔ FrameSafe ind db.log ∧
      (ind.dlci = 0 → ind.type = rfcUih → chann.state = .connected → CommandOk chann ind db) := by
  have hother : ind.type ≠ rfcUih → ∀ db', Quiet db db' → (FrameSafe ind db'.log ↔
      FrameSafe ind db.log ∧
        (ind.dlci = 0 → ind.type = rfcUih → chann.state = .connected → CommandOk chann ind db)) := by
    intro hne db' hquiet
    rw [frameSafe_quiet hquiet, and_iff_left]
    intro _ huih
    exact absurd huih hne
  unfold handleFrame
  split
  . next h => exact hother (by rw [h]; decide) _ (quiet_rfcHandleSabm ..)
  split
  . next h => exact hother (by rw [h]; decide) _ (quiet_rfcHandleUa ..)
  split
  . next h => exact hother (by rw [h]; decide) _ (quiet_rfcHandleDm ..)
  split
  . next h => exact hother (by rw [h]; decide) _ (quiet_rfcHandleDisc ..)
  split
  . next huih =>
    split
    . next hstate =>
      unfold rfcSendDm
      rw [frameSafe_quiet (quiet_rfcSendControl ..)]
      simp [hstate]
    . next hstate =>
      have hstate : chann.state = .connected := Decidable.not_not.mp hstate
      split
      . next hdlci =>
        rw [frameSafe_rfcHandleUih _ _ hfit]
        simp [huih, hstate, hdlci]
      . next hdlci =>
        rw [frameSafe_quiet (quiet_handleUserData ..)]
        simp [hdlci]
  . next hne => exact hother hne _ (Quiet.refl db)

theorem frameSafe_rfcHandleL2cDataInd (hempty : FrameSafe ind db.log) :
    FrameSafe ind (rfcHandleL2cDataInd ind db).log ↔ FrameOk ind db := by
  have hstart := start_bounds ind
  have hlen := len_lt ind
  have hhead : FrameSafe ind (db.read ind (List.range ind.start)).log ↔ ind.start ≤ ind.length := by
    rw [frameSafe_read, and_iff_right hempty]
    simp only [mem_range]
    constructor
    . intro h
      have := h (ind.start - 1) (by omega)
      omega
    . intro h i hi
      omega
  unfold rfcHandleL2cDataInd FrameOk
  split
  . next hshort =>
    simp [hempty, Nat.not_le.mpr hshort]
  . next hshort =>
    have hlength := ind.length_lt
    rw [imp_iff_right (by omega)]
    simp only []
    split
    . next hrest => simp [hhead, hrest]
    . next hrest =>
      have hrest : ind.len + 1 = ind.rest := Decidable.not_not.mp hrest
      have hle : ind.start ≤ ind.length := by
        unfold DataInd.rest at hrest
        omega
      have hfit : ind.start + ind.len + 1 = ind.length := by
        unfold DataInd.rest at hrest
        omega
      have hcheck : FrameSafe ind ((db.read ind (List.range ind.start)).read ind
          (List.range ind.covered ++ [ind.start + ind.len])).log := by
        rw [frameSafe_read, hhead]
        refine ⟨hle, ?_⟩
        intro i hi
        simp only [mem_append, mem_range, mem_singleton, DataInd.covered] at hi
        have : i < 3 ∨ i = ind.start + ind.len := by
          refine hi.imp_left ?_
          split <;> omega
        omega
      have hfind :
    ∀ dlci, rfcFindChannByDlci dlci ind.cid ((db.read ind (List.range ind.start)).read
          ind (List.range ind.covered ++ [ind.start + ind.len])) =
            rfcFindChannByDlci dlci ind.cid db := fun _ => rfl
      split
      . next hbad =>
        have hbad : ind.checked = false := by simpa using hbad
        simp [hcheck, hle, hbad]
      . next hgood =>
        have hgood : ind.checked = true := by simpa using hgood
        simp only [hle, hrest, hgood, true_and, true_implies, hfind]
        split
        . next chann hsome =>
          rw [frameSafe_handleFrame chann hfit, and_iff_right hcheck]
          constructor
          . intro h hdlci huih ctrl hctrl hstate
            rw [hdlci, hctrl] at hsome
            cases hsome
            have := h hdlci huih hstate
            exact ⟨this.header, this.pn, this.msc, this.rls, this.rpn, this.test⟩
          . intro h hdlci huih hstate
            have := h hdlci huih chann (by rw [← hsome, hdlci]) hstate
            exact ⟨this.header, this.pn, this.msc, this.rls, this.rpn, this.test⟩
        . next hnone =>
          have hvacuous : ind.dlci = 0 → ind.type = rfcUih → ∀ ctrl,
              rfcFindChannByDlci 0 ind.cid db = some ctrl → ctrl.state = .connected →
                CommandOk ctrl ind db := by
            intro hdlci _ ctrl hctrl
            rw [hdlci, hctrl] at hnone
            cases hnone
          rw [iff_true_right hvacuous]
          split
          . split
            . exact (frameSafe_quiet (quiet_handleNoChann ..)).mpr hcheck
            . exact hcheck
          . exact hcheck

theorem frameSafe_iff (ind : DataInd) (db : Db) :
    let db := { db with log := {} }
    FrameSafe ind (rfcHandleL2cDataInd ind db).log ↔ FrameOk ind db :=
  frameSafe_rfcHandleL2cDataInd ⟨by simp, by simp⟩

theorem not_frameSafe_test :
    ¬∀ (ind : DataInd) (db : Db), FrameSafe ind (rfcHandleL2cDataInd ind { db with log := {} }).log := by
  intro h
  have := (h
    { cid := 64
      length := 8
      gap := 0
      data := fun i => [0x03, 0xEF, 0x09, 0x23, 0x79, 0x41, 0x42, 0x70].getD i 0
      length_lt := by decide }
    { serviceList := []
      channList := [{ id := 0, ctrlChann := some 0, l2cCid := 64, state := .connected }] }).reads 8
    (by decide)
  exact absurd this.2 (by decide)

end Rfc
