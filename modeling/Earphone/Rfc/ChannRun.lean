import Earphone.Rfc.ChannTable

namespace Rfc

def DecodeOk (cid dlci len : Nat) (db : Db) : Prop :=
  len = rfcSizePn → dlci &&& 0x3f ≠ dlci → rfcFindChannByDlci (dlci &&& 0x3f) cid db = none
  deriving Decidable

def PnOk (ctrl : Chann) (tcr : Bool) (dlci len : Nat) (db : Db) : Prop :=
  match rfcFindChannByDlci dlci ctrl.l2cCid db, tcr with
  | some chann, true => chann.state ≠ .configAccepted →
    chann.service ≠ none ∧ DecodeOk ctrl.l2cCid dlci len db
  | none, true => (db.serviceList.find? (·.localServerChann = (dlci >>> 1 &&& 0x1F))).isSome →
    db.allocs.headD true = true → DecodeOk ctrl.l2cCid dlci len db
  | some chann, false => chann.state ≠ .connected → DecodeOk ctrl.l2cCid dlci len db
  | none, false => True

instance (ctrl : Chann) (tcr : Bool) (dlci len : Nat) (db : Db) :
    Decidable (PnOk ctrl tcr dlci len db) := by
  unfold PnOk
  split <;> infer_instance

def MscOk (ctrl : Chann) (tcr : Bool) (dlci : Nat) (db : Db) : Prop :=
  ∀ chann ∈ rfcFindChannByDlci dlci ctrl.l2cCid db,
    chann.mscHandshake ≠ chann.mscHandshake ||| (if tcr then rfcMscCmdRcv else rfcMscRspRcv) →
      chann.mscHandshake ||| (if tcr then rfcMscCmdRcv else rfcMscRspRcv) =
        (rfcMscCmdRcv ||| rfcMscRspRcv) → chann.service ≠ none
  deriving Decidable

def CommandTableOk (ctrl : Chann) (ind : DataInd) (db : Db) : Prop :=
  let p := ind.start + ind.uihHeader ind.start
  let uihCr : Bool := ind.octet ind.start &&& 2 ≠ 0
  (ind.octet ind.start >>> 2 = rfcTypePn → PnOk ctrl uihCr (ind.octet p)
    ((ind.len + 2 ^ 16 - ind.uihHeader ind.start) % 2 ^ 16) db) ∧
  (ind.octet ind.start >>> 2 = rfcTypeMsc → MscOk ctrl uihCr (ind.octet p >>> 2) db)
  deriving Decidable

def FrameTableOk (ind : DataInd) (db : Db) : Prop :=
  4 ≤ ind.length → ind.len + 1 = ind.rest → ind.checked = true → ind.dlci = 0 →
    ∀ ctrl ∈ rfcFindChannByDlci 0 ind.cid db,
      (ind.type = rfcSabm → ind.poll = true → OpenedOk ctrl.id db) ∧
      (ind.type = rfcUa → ind.poll = true → ctrl.state = .connecting → OpenedOk ctrl.id db) ∧
      (ind.type = rfcUih → ctrl.state = .connected → CommandTableOk ctrl ind db)
  deriving Decidable

def MoveOk (ctrl newCtrl : Chann) (db : Db) : Prop :=
  ∀ c ∈ db.channList, c.ctrlChann = some ctrl.id → c.dlci ≠ 0 →
    (∀ c' ∈ db.channList, c'.ctrlChann = some newCtrl.id → c'.dlci ≠ movedDlci ctrl newCtrl c.dlci) ∧
      (c.state = .opened → newCtrl.state = .connected → c.service ≠ none)
  deriving Decidable

def AloneOk (chann : Chann) (db : Db) : Prop :=
  chann.dlci = 0 → ∀ c ∈ db.channList, c.ctrlChann = some chann.id → c.dlci = 0
  deriving Decidable

def CidFree (id : Nat) (cid : Nat) (db : Db) : Prop :=
  ∀ k ∈ db.channList, k.dlci = 0 → k.l2cCid = cid → k.id = id
  deriving Decidable

def ConnReqOk (bdAddr serverChann serviceId : Nat) (db : Db) : Prop :=
  match rfcFindChannByAddr bdAddr 0 db with
  | none => db.allocs.headD true = true → db.allocs.tail.headD true = true →
    (serverChann <<< 1) % 2 ^ 8 ≠ 0 → CidFree db.nextId 0 db
  | some ctrl => ctrl.linkState = .connected → ctrl.state = .connected →
    rfcFindChannByAddr bdAddr (connReqDlci ctrl serverChann) db = none →
      db.allocs.headD true = true → (db.serviceList.find? (·.serviceId = serviceId)).isSome

instance (bdAddr serverChann serviceId : Nat) (db : Db) :
    Decidable (ConnReqOk bdAddr serverChann serviceId db) := by
  unfold ConnReqOk
  split <;> infer_instance

def Event.Ok (db : Db) : Event → Prop
  | .l2cConnInd _ cid => db.allocs.headD true = true → CidFree db.nextId cid db
  | .l2cConnRsp bdAddr cid cause => cause = 0 → ∀ ctrl ∈ rfcFindChannByAddr bdAddr 0 db,
    CidFree ctrl.id cid db
  | .l2cConnCmpl cid _ _ _ => ∀ ctrl ∈ rfcFindChannByDlci 0 cid db,
    ∀ newCtrl ∈ rfcCheckL2cCollision ctrl db, MoveOk ctrl newCtrl db
  | .l2cDataInd ind => FrameTableOk ind db
  | .authenRsp dlci cid cause _ => cause ≠ 0 → ∀ chann ∈ rfcFindChannByDlci dlci cid db,
    AloneOk chann db
  | .waitMscTimeout id => ∀ chann ∈ db.channList, chann.id = id → chann.waitMscTimer = true →
    chann.service ≠ none
  | .connReq bdAddr serverChann serviceId _ _ => ConnReqOk bdAddr serverChann serviceId db
  | .connCfm bdAddr dlci status _ _ => status ≠ 0 → ∀ chann ∈ rfcFindChannByAddr bdAddr dlci db,
    AloneOk chann db
  | _ => True

instance (db : Db) (e : Event) : Decidable (e.Ok db) := by
  cases e <;> (unfold Event.Ok; infer_instance)

section

variable {db db' : Db} {ind : DataInd}

theorem ctrlChann_eq (hs : Inv db) (hctrl : ctrl ∈ db.channList)
    (h : c.ctrlChann = some ctrl.id) : db.ctrl c = ctrl := by
  unfold Db.ctrl
  rw [h]
  exact chann_of_mem hs hctrl

theorem free_of_find_none (hs : Inv db) (hctrl : ctrl ∈ db.channList)
    (hzero : ctrl.dlci = 0) (h : rfcFindChannByDlci dlci ctrl.l2cCid db = none) :
    dlci ≠ 0 ∧ ∀ c ∈ db.channList, c.ctrlChann = some ctrl.id → c.dlci ≠ dlci := by
  have hfree : ∀ c ∈ db.channList, c.ctrlChann = some ctrl.id → c.dlci ≠ dlci := by
    intro c hc heq
    exact ne_of_findByDlci h hc (by rw [ctrlChann_eq hs hctrl heq])
  refine ⟨?_, hfree⟩
  intro hdlci
  have := hfree ctrl hctrl (hs.self ctrl hctrl hzero)
  omega

theorem inv_allocData (hs : Inv db) (hk : k ∈ db.channList) (hzero : k.dlci = 0)
    (hne : dlci ≠ 0)
    (hfree : ∀ c ∈ db.channList, c.ctrlChann = some k.id → c.dlci ≠ dlci)
    (heq : rfcAllocChann dlci db = (some chann, db'))
    (hid : (f chann).id = chann.id) (hctrl : (f chann).ctrlChann = some k.id)
    (hdlci : (f chann).dlci = chann.dlci)
    (hservice : ∀ s, (f chann).service = some s → ∃ item ∈ db.serviceList, item.id = s) :
    Inv (db'.modify chann.id f) ∧ f chann ∈ (db'.modify chann.id f).channList := by
  obtain ⟨hnew, hdlci', _, _, _, hservices, hnext, hlog, _, hlist⟩ := alloc_modify hs.fresh heq
  have hreads : (db'.modify chann.id f).log.serviceReads = db.log.serviceReads := by
    rw [← hlog]
    rfl
  constructor
  . refine inv_append hs hservices hnext hreads (hlist f) (hid.trans hnew) ?_ ?_ hservice
    . intro h
      rw [hdlci, hdlci'] at h
      exact absurd h hne
    . intro _
      refine ⟨⟨k, hk, hctrl, hzero⟩, ?_⟩
      intro c hc hcctrl
      rw [hdlci, hdlci']
      exact hfree c hc (hcctrl.trans hctrl)
  . rw [hlist f]
    simp

def DecodeFree (ctrl dlci len : Nat) (db : Db) : Prop :=
  len = rfcSizePn → dlci &&& 0x3f ≠ dlci → dlci &&& 0x3f ≠ 0 ∧
    ∀ c ∈ db.channList, c.ctrlChann = some ctrl → c.dlci ≠ dlci &&& 0x3f

section

variable (hs : Inv db)

include hs

theorem decodeFree_of_ok (hctrl : ctrl ∈ db.channList)
    (hzero : ctrl.dlci = 0) (h : DecodeOk ctrl.l2cCid dlci len db) :
    DecodeFree ctrl.id dlci len db :=
  fun hlen hmask => free_of_find_none hs hctrl hzero (h hlen hmask)

theorem inv_rfcDecodePn (hc : chann ∈ db.channList)
    (hk : ctrl ∈ db.channList) (hzero : ctrl.dlci = 0) (hctrl : chann.ctrlChann = some ctrl.id)
    (hp : chann.dlci = ind.octet p)
    (hok : DecodeFree ctrl.id (ind.octet p) len db) :
    Inv (rfcDecodePn chann.id ind p len db) ∧
      ∃ c ∈ (rfcDecodePn chann.id ind p len db).channList, c.id = chann.id ∧
        c.service = chann.service := by
  unfold rfcDecodePn
  split
  . next hlen =>
    dsimp only
    generalize hdb1 : db.read ind [p, p + 1, p + 4, p + 5] = db₁
    have hread : Same db db₁ := hdb1 ▸ same_read ..
    have hlist : db₁.channList = db.channList := by
      rw [← hdb1]
      rfl
    have hs1 := inv_same hs hread
    have hc1 : chann ∈ db₁.channList := by rw [hlist]; exact hc
    generalize hdb2 : db₁.modify chann.id (fun chann =>
      { chann with
        dlci := ind.octet p &&& 0x3f
        convergenceLayer := ind.octet (p + 1) >>> 4 &&& 0x0f
        frameSize := ind.octet (p + 4) + ind.octet (p + 5) <<< 8 }) = db2
    have hs2 : Inv db2 := by
      rw [← hdb2]
      by_cases hsame : ind.octet p &&& 0x3f = ind.octet p
      . refine inv_same hs1 (same_modify_mem _ _ ?_)
        intro c hcmem hid
        have : c.dlci = ind.octet p := by
          rw [Table.eq_of_key_eq hs1.nodup hcmem hc1 hid, hp]
        exact ⟨rfl, rfl, rfl, by rw [this]; exact hsame, rfl, fun h => h⟩
      . obtain ⟨hdlci, hfree⟩ := hok hlen hsame
        have hne : chann.dlci ≠ 0 := by
          rw [hp]
          intro h
          rw [h] at hsame
          exact hsame rfl
        refine inv_modify_data hs1 hc1 (k := ctrl) (by rw [hlist]; exact hk) hzero hne rfl rfl hctrl
          hdlci ?_
        intro c' hc' _ hctrl'
        exact hfree c' (by rw [← hlist]; exact hc') hctrl'
    have hmem2 : ∃ c ∈ db2.channList, c.id = chann.id ∧ c.service = chann.service := by
      rw [← hdb2]
      exact ⟨_, Table.mem_modify.mpr ⟨chann, hc1, if_pos rfl⟩, rfl, rfl⟩
    split
    . have hsame : Same db2 ((db2.read ind [p + 7]).modify chann.id fun chann =>
          { chann with remoteRemainCredits := ind.octet (p + 7) &&& 0x07 }) :=
        (same_read ..).trans (same_modify _ _ fun _ => by simp [keeps_iff])
      obtain ⟨c, hcmem, hid, hservice⟩ := hmem2
      obtain ⟨c', hc', hkeep⟩ := hsame.forth c hcmem
      exact ⟨inv_same hs2 hsame, c', hc', by rw [hkeep.id, hid], by rw [hkeep.service, hservice]⟩
    . exact ⟨hs2, hmem2⟩
  . exact ⟨hs, chann, hc, rfl, rfl⟩

theorem inv_handlePnCommand (ctrl : Chann)
    (hc : chann ∈ db.channList) (hk : k ∈ db.channList) (hzero : k.dlci = 0)
    (hctrl : chann.ctrlChann = some k.id) (hp : chann.dlci = ind.octet p)
    (oldDesc : Bool) (hok : chann.state ≠ .configAccepted →
      chann.service ≠ none ∧ DecodeFree k.id (ind.octet p) len db) :
    Inv (handlePnCommand ctrl chann oldDesc ind p len db) := by
  unfold handlePnCommand
  split
  . next h =>
    simp only [Bool.and_eq_true, decide_eq_true_eq] at h
    obtain ⟨hservice, hdecode⟩ := hok h.2
    obtain ⟨hs1, c, hcmem, hid, hservice1⟩ := inv_rfcDecodePn hs hc hk hzero hctrl hp hdecode
    dsimp only
    generalize rfcDecodePn chann.id ind p len db = db₁ at *
    have hlayer : Same db₁ (db₁.modify chann.id fun chann =>
        if chann.convergenceLayer = rfcConvergenceCreditReq then
          { chann with convergenceLayer := rfcConvergenceCreditCfm }
        else
          chann) := by
      apply same_modify
      intro c
      split
      . exact ⟨rfl, rfl, rfl, rfl, rfl, fun h => h⟩
      . exact Keeps.refl c
    have hsame := (hlayer.trans (same_limitFrameSize chann.id _)).trans
      (same_modify _ chann.id (f := fun chann => { chann with state := .configIncoming })
        fun _ => by simp [keeps_iff])
    obtain ⟨hmem, hkeep⟩ := chann_of_same hs1 hsame hcmem
    rw [hid] at hmem hkeep
    refine inv_rfcSendAuthenReq (inv_same hs1 hsame) hmem ?_ false
    rw [hkeep.service, hservice1]
    exact hservice
  . exact inv_same hs (same_rfcSendUih ..)

theorem inv_handlePnResponse (hc : chann ∈ db.channList)
    (hk : k ∈ db.channList) (hzero : k.dlci = 0) (hctrl : chann.ctrlChann = some k.id)
    (hp : chann.dlci = ind.octet p)
    (hok : chann.state ≠ .connected → DecodeFree k.id (ind.octet p) len db) :
    Inv (handlePnResponse chann ind p len db) := by
  unfold handlePnResponse
  split
  . next h =>
    obtain ⟨hs1, _⟩ := inv_rfcDecodePn hs hc hk hzero hctrl hp (hok h)
    exact inv_same hs1 ((same_modify _ _ fun _ => by simp [keeps_iff]).trans (same_rfcSendFrame ..))
  . exact hs

theorem inv_rfcHandlePn (hk : k ∈ db.channList)
    (hkeep : Keeps ctrl k) (hzero : ctrl.dlci = 0)
    (hok : PnOk ctrl tcr (ind.octet p) len db) : Inv (rfcHandlePn ctrl tcr ind p len db) := by
  have hkzero : k.dlci = 0 := by rw [hkeep.dlci, hzero]
  have hread := same_read db ind [p]
  have hs1 := inv_same hs hread
  have hk1 : k ∈ (db.read ind [p]).channList := hk
  have hok1 : PnOk ctrl tcr (ind.octet p) len (db.read ind [p]) := hok
  unfold rfcHandlePn
  dsimp only
  generalize db.read ind [p] = db₁ at *
  unfold PnOk at hok1
  rw [← hkeep.l2cCid] at hok1 ⊢
  -- no two control channels have one CID, so what is found belongs to this one
  have hown : ∀ chann, rfcFindChannByDlci (ind.octet p) k.l2cCid db₁ = some chann →
      chann ∈ db₁.channList ∧ chann.dlci = ind.octet p ∧ chann.ctrlChann = some k.id := by
    intro chann hfind
    obtain ⟨hmem, hdlci, hcid⟩ := mem_of_findByDlci hfind
    obtain ⟨hkmem, hctrl, hzero'⟩ := ctrl_of_mem hs1 hmem
    rw [hs1.cids _ hkmem k hk1 hzero' hkzero hcid] at hctrl
    exact ⟨hmem, hdlci, hctrl⟩
  split
  . next chann hfind =>
    rw [hfind] at hok1
    obtain ⟨hmem, hdlci, hctrl⟩ := hown chann hfind
    exact inv_handlePnCommand hs1 ctrl hmem hk1 hkzero hctrl hdlci true fun hstate =>
      (hok1 hstate).imp_right (decodeFree_of_ok hs1 hk1 hkzero)
  . next hfind =>
    rw [hfind] at hok1
    split
    . exact inv_same hs1 (same_rfcSendFrame ..)
    . next item hitem =>
      split
      . next heq => exact inv_same hs1 ((same_alloc_none heq).trans (same_rfcSendFrame ..))
      . next chann db2 heq =>
        -- the DLCI of the new channel is free on this link
        obtain ⟨hne, hfree⟩ := free_of_find_none hs1 hk1 hkzero hfind
        have halloc : db₁.allocs.headD true = true := (alloc_some heq).1
        obtain ⟨hnew, hdlci, _⟩ := alloc_modify hs1.fresh heq
        have hctrl : some ctrl.id = some k.id := by rw [hkeep.id]
        obtain ⟨hs2, hmem⟩ := inv_allocData hs1 hk1 hkzero hne hfree heq
          (f := fun chann => { chann with ctrlChann := some ctrl.id, service := some item.id })
          rfl hctrl rfl (by
            intro s hsome
            cases hsome
            exact ⟨item, List.mem_of_find?_eq_some hitem, rfl⟩)
        have hlist := (alloc_modify hs1.fresh heq).2.2.2.2.2.2.2.2.2
          (fun chann => { chann with ctrlChann := some ctrl.id, service := some item.id })
        have hk2 : k ∈ (db2.modify chann.id fun chann =>
            { chann with ctrlChann := some ctrl.id, service := some item.id }).channList := by
          rw [hlist]
          exact List.mem_append_left _ hk1
        have hchann := chann_of_mem hs2 hmem
        dsimp only at hchann
        rw [hchann]
        refine inv_handlePnCommand hs2 ctrl hmem hk2 hkzero hctrl hdlci false ?_
        intro _
        refine ⟨by simp, ?_⟩
        intro hlen hmask
        obtain ⟨hdne, hdfree⟩ := decodeFree_of_ok hs1 hk1 hkzero
          (hok1 (by rw [hitem]; rfl) halloc) hlen hmask
        refine ⟨hdne, ?_⟩
        intro c hc hcctrl
        rw [hlist, List.mem_append, List.mem_singleton] at hc
        obtain hc | rfl := hc
        . exact hdfree c hc hcctrl
        -- the new channel itself has the DLCI of the PN
        . have hold : chann.dlci = ind.octet p := hdlci
          dsimp only
          omega
  . next chann hfind =>
    rw [hfind] at hok1
    obtain ⟨hmem, hdlci, hctrl⟩ := hown chann hfind
    exact inv_handlePnResponse hs1 hmem hk1 hkzero hctrl hdlci fun hstate =>
      decodeFree_of_ok hs1 hk1 hkzero (hok1 hstate)
  . exact hs1

theorem handleMscStatus_eq (hc : chann ∈ db.channList) (ctrl : Chann)
    (tcr : Bool) (dlci status : Nat) :
    Same db (handleMscStatus ctrl chann tcr dlci status db) ∧
      ((handleMscStatus ctrl chann tcr dlci status db).chann chann.id).mscHandshake =
        chann.mscHandshake ||| (if tcr then rfcMscCmdRcv else rfcMscRspRcv) := by
  have hself : ∀ {db₁ : Db}, db₁.channList = db.channList → ∀ f : Chann → Chann,
      (∀ c, (f c).id = c.id) → (db₁.modify chann.id f).chann chann.id = f chann := by
    intro db₁ hlist f hf
    unfold Db.modify Db.chann
    dsimp only
    rw [Table.find?_modify _ _ _ hf, hlist, Table.find?_of_mem hs.nodup hc]
    simp
  unfold handleMscStatus
  split
  . next htcr =>
    constructor
    . exact (same_rfcSendMsc ..).trans (same_modify _ _ fun _ => by simp [keeps_iff])
    . exact congrArg Chann.mscHandshake (hself (rfcSendMsc_channList ..) _ (by exact fun _ => rfl))
  . next htcr =>
    unfold handleMscResponse
    split
    . dsimp only
      constructor
      . refine Same.trans ?_ (same_rfcSendMsc ..)
        exact (same_modify _ _ fun _ => by simp [keeps_iff]).trans
          (same_modify _ _ fun _ => by simp [keeps_iff])
      . rw [chann_congr (rfcSendMsc_channList ..)]
        apply Eq.trans (chann_modify _ _ _ (by exact fun _ => rfl) Chann.mscHandshake
          (by exact fun _ => rfl))
        exact congrArg Chann.mscHandshake (hself rfl _ (by exact fun _ => rfl))
    . constructor
      . exact same_modify _ _ fun _ => by simp [keeps_iff]
      . exact congrArg Chann.mscHandshake (hself rfl _ (by exact fun _ => rfl))

theorem inv_rfcHandleMsc (ctrl : Chann)
    (hok : MscOk ctrl tcr (ind.octet p >>> 2) db) : Inv (rfcHandleMsc ctrl tcr ind p db) := by
  have hs1 := inv_same hs (same_read db ind [p])
  have hok1 : MscOk ctrl tcr (ind.octet p >>> 2) (db.read ind [p]) := hok
  unfold rfcHandleMsc
  dsimp only
  generalize db.read ind [p] = db₁ at *
  split
  . exact hs1
  . next chann hfind =>
    have hmem := (mem_of_findByDlci hfind).1
    have hservice := hok1 chann hfind
    have hs2 := inv_same hs1 (same_read db₁ ind [p + 1])
    have hmem2 : chann ∈ (db₁.read ind [p + 1]).channList := hmem
    generalize db₁.read ind [p + 1] = db2 at *
    obtain ⟨hsame, hshake⟩ := handleMscStatus_eq hs2 hmem2 ctrl tcr (ind.octet p >>> 2)
      (ind.octet (p + 1))
    have hs3 := inv_same hs2 hsame
    obtain ⟨hmem3, hkeep⟩ := chann_of_same hs2 hsame hmem2
    generalize handleMscStatus ctrl chann tcr (ind.octet p >>> 2) (ind.octet (p + 1)) db2 = db3 at *
    split
    . next hdone =>
      simp only [Bool.and_eq_true, decide_eq_true_eq] at hdone
      rw [hshake] at hdone
      have hchann : (db3.chann chann.id).service ≠ none := by
        rw [hkeep.service]
        exact hservice hdone.1 hdone.2
      have hstop :
    Same db3 (db3.modify chann.id fun chann => { chann with waitMscTimer := false }) :=
        same_modify _ _ fun _ => by simp [keeps_iff]
      have hregistered := registered hs3 hmem3 hchann
      exact inv_same (inv_postConnCmpl (inv_same hs3 hstop) hregistered)
        (same_rfcCheckSendCredits _)
    . exact hs3

end

theorem same_rfcHandleRls (ctrl : Chann) (tcr : Bool) (ind : DataInd) (p : Nat) (db : Db) :
    Same db (rfcHandleRls ctrl tcr ind p db) := by
  unfold rfcHandleRls
  dsimp only
  have hread := same_read db ind [p]
  split
  . exact hread
  . split
    . exact ((hread.trans (same_read ..)).trans (same_rfcSendUih ..)).trans
        (same_modify _ _ fun _ => by simp [keeps_iff])
    . exact hread

theorem inv_rfcHandleRpn (hs : Inv db) (hk : k ∈ db.channList)
    (hkeep : Keeps ctrl k) (hzero : ctrl.dlci = 0) (tcr : Bool) (p tlen : Nat) :
    Inv (rfcHandleRpn ctrl tcr ind p tlen db) := by
  have hkzero : k.dlci = 0 := by rw [hkeep.dlci, hzero]
  have hs1 := inv_same hs (same_read db ind [p])
  have hk1 : k ∈ (db.read ind [p]).channList := hk
  unfold rfcHandleRpn
  dsimp only
  generalize db.read ind [p] = db₁ at *
  split
  . split
    . next hfind =>
      rw [← hkeep.l2cCid] at hfind
      split
      . next heq => exact inv_same hs1 (same_alloc_none heq)
      . next chann db2 heq =>
        obtain ⟨hne, hfree⟩ := free_of_find_none hs1 hk1 hkzero hfind
        have hctrl : some ctrl.id = some k.id := by rw [hkeep.id]
        have hnone := (alloc_modify hs1.fresh heq).2.2.2.1
        obtain ⟨hs2, _⟩ := inv_allocData hs1 hk1 hkzero hne hfree heq
          (f := fun chann => { chann with ctrlChann := some ctrl.id }) rfl hctrl rfl (by
            intro s hsome
            rw [hnone] at hsome
            cases hsome)
        have hs3 := inv_same hs2 (same_read _ ind ((List.range tlen).map (p + ·)))
        split
        . exact inv_same hs3 (same_rfcSendUih ..)
        . exact hs3
    . split
      . exact inv_same hs1 (same_rfcSendUih ..)
      . exact hs1
  . exact hs

theorem commandOk_stopTimer (ctrl : Chann) (tcr : Bool) (dlci len id : Nat) (db : Db) :
    (PnOk ctrl tcr dlci len db → PnOk ctrl tcr dlci len
      (db.modify id fun chann => { chann with waitRspTimer := false })) ∧
    (MscOk ctrl tcr dlci db → MscOk ctrl tcr dlci
      (db.modify id fun chann => { chann with waitRspTimer := false })) := by
  obtain ⟨g, hfind, hg⟩ : ∃ g : Chann → Chann,
      (∀ dlci cid, rfcFindChannByDlci dlci cid
        (db.modify id fun chann => { chann with waitRspTimer := false }) =
          (rfcFindChannByDlci dlci cid db).map g) ∧
      ∀ c, (g c).state = c.state ∧ (g c).service = c.service ∧
        (g c).mscHandshake = c.mscHandshake := by
    refine ⟨_, fun dlci cid => find_modify db dlci cid id fun _ => ⟨rfl, rfl, rfl, rfl⟩, ?_⟩
    intro c
    split <;> exact ⟨rfl, rfl, rfl⟩
  have hdecode : DecodeOk ctrl.l2cCid dlci len db → DecodeOk ctrl.l2cCid dlci len
      (db.modify id fun chann => { chann with waitRspTimer := false }) := by
    intro h hlen hmask
    rw [hfind, h hlen hmask]
    rfl
  constructor
  . intro h
    unfold PnOk at h ⊢
    rw [hfind]
    cases hc : rfcFindChannByDlci dlci ctrl.l2cCid db with
    | none =>
      rw [hc] at h
      cases tcr with
      | false => trivial
      | true => exact fun hitem halloc => hdecode (h hitem halloc)
    | some c =>
      rw [hc] at h
      rw [Option.map_some]
      cases tcr with
      | false => exact fun hstate => hdecode (h (by rw [← (hg c).1]; exact hstate))
      | true =>
        intro hstate
        rw [(hg c).1] at hstate
        rw [(hg c).2.1]
        exact (h hstate).imp_right hdecode
  . intro h chann hchann
    rw [hfind, Option.mem_def, Option.map_eq_some_iff] at hchann
    obtain ⟨c, hc, rfl⟩ := hchann
    rw [(hg c).2.1, (hg c).2.2]
    exact h c hc

theorem inv_rfcHandleUih (hs : Inv db) (hmem : ctrl ∈ db.channList)
    (hzero : ctrl.dlci = 0) (cr : Bool) (hok : CommandTableOk ctrl ind db) :
    Inv (rfcHandleUih ctrl ind ind.start ind.len cr db) := by
  unfold CommandTableOk at hok
  obtain ⟨hpn, hmsc⟩ := hok
  unfold rfcHandleUih
  dsimp only
  generalize (decide (ind.octet ind.start &&& 2 ≠ 0) : Bool) = uihCr at *
  generalize hdb1 : db.read ind ((List.range (ind.uihHeader ind.start)).map (ind.start + ·)) = db₁
  have hread : Same db db₁ := hdb1 ▸ same_read ..
  have hpn1 : ind.octet ind.start >>> 2 = rfcTypePn → PnOk ctrl uihCr
      (ind.octet (ind.start + ind.uihHeader ind.start))
      ((ind.len + 2 ^ 16 - ind.uihHeader ind.start) % 2 ^ 16) db₁ := by
    rw [← hdb1]
    exact hpn
  have hmsc1 : ind.octet ind.start >>> 2 = rfcTypeMsc → MscOk ctrl uihCr
      (ind.octet (ind.start + ind.uihHeader ind.start) >>> 2) db₁ := by
    rw [← hdb1]
    exact hmsc
  generalize hdb2 : (if uihCr = true then db₁ else
    db₁.modify ctrl.id fun chann => { chann with waitRspTimer := false }) = db2
  have hsame : Same db db2 := by
    rw [← hdb2]
    split
    . exact hread
    . exact hread.trans (same_modify _ _ fun _ => by simp [keeps_iff])
  have hs2 := inv_same hs hsame
  obtain ⟨k, hk, hkeep⟩ := hsame.forth ctrl hmem
  split
  . next htype =>
    refine inv_rfcHandlePn hs2 hk hkeep hzero ?_
    rw [← hdb2]
    split
    . exact hpn1 htype
    . exact (commandOk_stopTimer ctrl _ _ _ ctrl.id db₁).1 (hpn1 htype)
  split
  . split
    . exact inv_same hs2
        (((same_modify _ _ fun _ => by simp [keeps_iff]).trans (same_rfcSendUih ..)).trans
        (same_rfcCheckSendCredits _))
    . exact hs2
  split
  . split
    . exact inv_same hs2 ((same_modify _ _ fun _ => by simp [keeps_iff]).trans (same_rfcSendUih ..))
    . exact hs2
  split
  . next htype =>
    refine inv_rfcHandleMsc hs2 ctrl ?_
    rw [← hdb2]
    split
    . exact hmsc1 htype
    . exact (commandOk_stopTimer ctrl _ _ 0 ctrl.id db₁).2 (hmsc1 htype)
  split
  . exact inv_same hs2 (same_rfcHandleRls ..)
  split
  . exact inv_rfcHandleRpn hs2 hk hkeep hzero _ _ _
  split
  . split
    . exact inv_same hs2 ((same_read ..).trans (same_rfcSendUih ..))
    . exact hs2
  split
  . exact (inv_disconnLink hs2 _ _).1
  . split
    . exact inv_same hs2 ((same_read ..).trans (same_rfcSendUih ..))
    . exact hs2

end

section

variable (hs : Inv db) (hmem : chann ∈ db.channList)

include hs hmem

theorem inv_rfcHandleSabm (hok : chann.dlci = 0 → poll = true → OpenedOk chann.id db) :
    Inv (rfcHandleSabm chann poll db) := by
  unfold rfcHandleSabm
  split
  . exact hs
  . next hpoll =>
    split
    . next hzero =>
      dsimp only
      generalize hdb1 : (if chann.state = .connecting then
        db.modify chann.id fun chann => { chann with initiator := false, waitRspTimer := false }
          else db) = db₁
      have hsame1 : Same db db₁ := by
        rw [← hdb1]
        split
        . exact same_modify _ _ fun _ => by simp [keeps_iff]
        . exact Same.refl db
      have hua : Same db₁ (rfcSendUa (db₁.chann chann.id) false true db₁) := same_rfcSendFrame ..
      have hconn : Same (rfcSendUa (db₁.chann chann.id) false true db₁)
          ((rfcSendUa (db₁.chann chann.id) false true db₁).modify chann.id
            fun chann => { chann with state := .connected }) :=
          same_modify _ _ fun _ => by simp [keeps_iff]
      have hsame := (hsame1.trans hua).trans hconn
      exact inv_connectOpened (inv_same hs hsame)
        (openedOk_same (hok hzero (by simpa using hpoll)) hsame)
    . next hdata =>
      split
      . exact inv_same hs ((same_rfcSendFrame ..).trans (same_startMsc ..))
      . exact inv_same hs (same_rfcSendFrame ..)
      . exact inv_freeData hs (same_rfcSendFrame ..) hmem hdata _

theorem inv_rfcHandleUa
    (hok : chann.dlci = 0 → poll = true → chann.state = .connecting → OpenedOk chann.id db) :
    Inv (rfcHandleUa chann poll db) := by
  unfold rfcHandleUa
  split
  . exact hs
  . next hpoll =>
    dsimp only
    have hstop : Same db (db.modify chann.id fun chann => { chann with waitRspTimer := false }) :=
      same_modify _ _ fun _ => by simp [keeps_iff]
    generalize (db.modify chann.id fun chann => { chann with waitRspTimer := false }) = db₁ at *
    have hs1 := inv_same hs hstop
    split
    . next hzero =>
      split
      . next hstate =>
        have hconn :
    Same db₁ (db₁.modify chann.id fun chann => { chann with state := .connected }) :=
          same_modify _ _ fun _ => by simp [keeps_iff]
        exact inv_connectOpened (inv_same hs1 hconn)
          (openedOk_same (hok hzero (by simpa using hpoll) hstate) (hstop.trans hconn))
      . exact inv_same hs1 (same_sendPendingDisc ..)
      . exact (inv_disconnLink (inv_same hs1 (same_setIdle ..)) chann _).1
      . exact hs1
    . next hdata =>
      split
      . exact inv_same hs1 (same_startMsc ..)
      . exact inv_same hs1 (same_sendPendingDisc ..)
      . exact inv_freeData hs ((hstop.trans (same_setIdle ..)).trans
          (same_rfcCheckDisconnCtrlChann ..)) hmem hdata _
      . exact hs1

theorem inv_rfcHandleDm : Inv (rfcHandleDm chann db) := by
  unfold rfcHandleDm
  split
  . exact inv_same (inv_failChann hs hmem _) (same_rfcCheckSendCredits _)
  . exact hs

theorem inv_rfcHandleDisc (poll : Bool) : Inv (rfcHandleDisc chann poll db) := by
  unfold rfcHandleDisc
  split
  . exact hs
  . split
    . dsimp only
      have hidle : Same db (setIdle chann.id (rfcSendUa chann false true db)) :=
        (same_rfcSendFrame ..).trans (same_setIdle ..)
      split
      . exact (inv_disconnLink (inv_same hs hidle) chann _).1
      . next hdata =>
        exact inv_freeData hs (hidle.trans (same_rfcCheckDisconnCtrlChann ..)) hmem hdata _
    . dsimp only
      generalize hdb1 : (if chann.state = .connected then rfcSendUa chann false true db
        else rfcSendDm (db.ctrl chann) chann.dlci false true db) = db₁
      have hsame1 : Same db db₁ := by
        rw [← hdb1]
        split <;> exact same_rfcSendFrame ..
      have hidle : Same db (db₁.modify chann.id fun chann => { chann with state := .idle }) :=
        hsame1.trans (same_modify _ _ fun _ => by simp [keeps_iff])
      refine inv_same ?_ (same_rfcCheckSendCredits _)
      split
      . exact (inv_rfcCloseDataChann (inv_same hs hidle) chann.id _).1
      . next hdata => exact inv_freeData hs hidle hmem hdata _

end

theorem inv_rfcHandleL2cDataInd (hs : Inv db) (hok : FrameTableOk ind db) :
    Inv (rfcHandleL2cDataInd ind db) := by
  unfold rfcHandleL2cDataInd
  split
  . exact hs
  . next hlong =>
    dsimp only
    have hread := same_read db ind (List.range ind.start)
    split
    . exact inv_same hs hread
    . next hlen =>
      have hsame := hread.trans (same_read _ ind (List.range ind.covered ++ [ind.start + ind.len]))
      have hs1 := inv_same hs hsame
      split
      . exact hs1
      . next hcheck =>
        have hok := hok (by omega) (Decidable.not_not.mp hlen) (by simpa using hcheck)
        have hok1 : ind.dlci = 0 → ∀ ctrl, rfcFindChannByDlci 0 ind.cid ((db.read ind
            (List.range ind.start)).read ind (List.range ind.covered ++ [ind.start + ind.len])) =
              some ctrl → _ := hok
        have hopened : ∀ id, OpenedOk id db → OpenedOk id ((db.read ind
            (List.range ind.start)).read ind (List.range ind.covered ++ [ind.start + ind.len])) :=
          fun id h => openedOk_same h hsame
        have hcommand : ∀ ctrl, CommandTableOk ctrl ind db → CommandTableOk ctrl ind ((db.read ind
            (List.range ind.start)).read ind (List.range ind.covered ++ [ind.start + ind.len])) :=
          fun ctrl h => h
        generalize (db.read ind (List.range ind.start)).read ind
          (List.range ind.covered ++ [ind.start + ind.len]) = db₁ at *
        split
        . next chann hfind =>
          obtain ⟨hmem, hdlci, _⟩ := mem_of_findByDlci hfind
          have hctrl : chann.dlci = 0 → _ := fun hzero =>
            hok1 (by rw [← hdlci, hzero]) chann (by rw [← hfind, ← hdlci, hzero])
          unfold handleFrame
          split
          . next htype =>
            refine inv_rfcHandleSabm hs1 hmem ?_
            intro hzero hpoll
            exact hopened _ ((hctrl hzero).1 htype hpoll)
          split
          . next htype =>
            refine inv_rfcHandleUa hs1 hmem ?_
            intro hzero hpoll hstate
            exact hopened _ ((hctrl hzero).2.1 htype hpoll hstate)
          split
          . exact inv_rfcHandleDm hs1 hmem
          split
          . exact inv_rfcHandleDisc hs1 hmem ind.poll
          split
          . next htype =>
            split
            . exact inv_same hs1 (same_rfcSendFrame ..)
            . next hstate =>
              split
              . next hzero =>
                have hzero : chann.dlci = 0 := by rw [hdlci, hzero]
                refine inv_rfcHandleUih hs1 hmem hzero _ (hcommand _ ?_)
                exact (hctrl hzero).2.2 htype (Decidable.not_not.mp hstate)
              . exact inv_same hs1 (same_handleUserData ..)
          . exact hs1
        . split
          . split
            . exact inv_same hs1 (same_handleNoChann ..)
            . exact hs1
          . exact hs1

end Rfc
