import Earphone.Rfc.ChannRun

namespace Rfc

open List

theorem inv_dropLink (hs : Inv db) (ctrl : Chann) (cause : Nat) : Inv (dropLink ctrl cause db) := by
  obtain ⟨hinv, hnot⟩ := inv_rfcCloseDataChann hs ctrl.id cause
  exact inv_rfcFreeChann hinv hnot cause

theorem inv_allocCtrl (hs : Inv db) (heq : rfcAllocChann 0 db = (some chann, db'))
    (hid : (f chann).id = chann.id) (hctrl : (f chann).ctrlChann = some chann.id)
    (hdlci : (f chann).dlci = chann.dlci) (hstate : (f chann).state = chann.state)
    (hservice : (f chann).service = chann.service) (hfree : CidFree db.nextId (f chann).l2cCid db) :
    Inv (db'.modify chann.id f) := by
  obtain ⟨hnew, hzero, hidle, hnone, _, hservices, hnext, hlog, _, hlist⟩ :=
    alloc_modify hs.fresh heq
  have hreads : (db'.modify chann.id f).log.serviceReads = db.log.serviceReads := by
    rw [← hlog]
    rfl
  refine inv_append hs hservices hnext hreads (hlist f) (hid.trans hnew) ?_ ?_ ?_
  . intro _
    refine ⟨by rw [hctrl, hid], by rw [hstate, hidle]; decide, ?_⟩
    intro k hk hkzero hcid
    have := hfree k hk hkzero hcid
    have := hs.fresh k hk
    omega
  . intro hne
    rw [hdlci, hzero] at hne
    exact absurd rfl hne
  . intro s hsome
    rw [hservice, hnone] at hsome
    cases hsome

theorem inv_rfcHandleL2cConnInd (hs : Inv db)
    (hok : db.allocs.headD true = true → CidFree db.nextId cid db) :
    Inv (rfcHandleL2cConnInd bdAddr cid db) := by
  unfold rfcHandleL2cConnInd
  split
  . next chann db₁ heq =>
    refine inv_same ?_ (same_req ..)
    exact inv_allocCtrl hs heq rfl rfl rfl rfl rfl (hok (alloc_some heq).1)
  . next db₁ heq => exact inv_same hs ((same_alloc_none heq).trans (same_req ..))

theorem inv_rfcHandleL2cConnRsp (hs : Inv db)
    (hok : cause = 0 → ∀ ctrl ∈ rfcFindChannByAddr bdAddr 0 db, CidFree ctrl.id cid db) :
    Inv (rfcHandleL2cConnRsp bdAddr cid cause db) := by
  unfold rfcHandleL2cConnRsp
  split
  . exact hs
  . next ctrl hfind =>
    obtain ⟨hmem, hzero, _⟩ := mem_of_findByAddr hfind
    split
    . exact inv_dropLink hs ctrl cause
    . next hcause =>
      have hs1 := inv_modify_cid hs cid (hok (Decidable.not_not.mp hcause) ctrl hfind)
      dsimp only
      split
      . refine inv_same (inv_rfcCloseDataChann hs1 ctrl.id cause).1 ?_
        exact (same_req ..).trans (same_modify _ _ fun _ => by simp [keeps_iff])
      . exact hs1

theorem movedDlci_inj (ctrl newCtrl : Chann)
    (h : movedDlci ctrl newCtrl d = movedDlci ctrl newCtrl d') : d = d' := by
  unfold movedDlci at h
  split at h
  . have h' := congrArg (· ^^^ 0x01) h
    simp only [Nat.xor_assoc, Nat.xor_self, Nat.xor_zero] at h'
    exact h'
  . exact h

section

variable (hs : Inv db) (hmove : MoveOk ctrl newCtrl db)
  (hnew : ∃ k ∈ db.channList, k.id = newCtrl.id ∧ k.dlci = 0) (hne : newCtrl.id ≠ ctrl.id)

include hs hmove hnew hne

theorem inv_changeCtrlChann (id : Nat) :
    Inv (changeCtrlChann ctrl newCtrl db id) ∧
      MoveOk ctrl newCtrl (changeCtrlChann ctrl newCtrl db id) ∧
        (∃ k ∈ (changeCtrlChann ctrl newCtrl db id).channList, k.id = newCtrl.id ∧ k.dlci = 0) ∧
          ∀ c' ∈ (changeCtrlChann ctrl newCtrl db id).channList, c'.ctrlChann = some ctrl.id →
            c'.dlci ≠ 0 → c'.id ≠ id ∧
              ∃ c ∈ db.channList, c.id = c'.id ∧ c.ctrlChann = some ctrl.id ∧ c.dlci ≠ 0 := by
  unfold changeCtrlChann
  dsimp only
  split
  . next hdata =>
    obtain ⟨hmem, hid⟩ | hnone := chann_mem_or db id
    . generalize hchann : db.chann id = chann at *
      subst hid
      simp only [isDataOf, ne_eq, Bool.and_eq_true, decide_eq_true_eq] at hdata
      obtain ⟨hctrl, hdlci⟩ := hdata
      obtain ⟨hfree, hservice⟩ := hmove chann hmem hctrl hdlci
      obtain ⟨k, hk, hkid, hkzero⟩ := hnew
      have hkself : k.ctrlChann = some newCtrl.id := by rw [hs.self k hk hkzero, hkid]
      have hmoved : movedDlci ctrl newCtrl chann.dlci ≠ 0 := by
        have := hfree k hk hkself
        omega
      generalize hdb1 : (db.modify chann.id fun c =>
        { c with ctrlChann := some newCtrl.id, dlci := movedDlci ctrl newCtrl chann.dlci }) = db₁
      have hs1 : Inv db₁ := by
        rw [← hdb1]
        refine inv_modify_data hs hmem hk hkzero hdlci rfl rfl (by rw [hkid]) hmoved ?_
        intro c' hc' _ hctrl'
        exact hfree c' hc' (by rw [hctrl', hkid])
      have hmem1 : ∀ c, c ∈ db₁.channList → c ∈ db.channList ∧ c.id ≠ chann.id ∨
          c.id = chann.id ∧ c.ctrlChann = some newCtrl.id ∧
            c.dlci = movedDlci ctrl newCtrl chann.dlci := by
        intro c hc
        rw [← hdb1] at hc
        obtain ⟨b, hb, rfl⟩ := Table.mem_modify.mp hc
        split
        . next heq => exact .inr ⟨heq, rfl, rfl⟩
        . next heq => exact .inl ⟨hb, heq⟩
      generalize hdb2 : (if ctrl.linkInitiator ≠ newCtrl.linkInitiator then
        rfcMsgPost chann.service (.dlciChange newCtrl.bdAddr chann.dlci
          (movedDlci ctrl newCtrl chann.dlci)) db₁ else db₁) = db2
      have hsame2 : Same db₁ db2 := by
        rw [← hdb2]
        split
        . exact same_rfcMsgPost ..
        . exact Same.refl db₁
      -- the authentication request does not touch the channels
      obtain ⟨db3, hsame3, hinv, hlist⟩ : ∃ db3, Same db₁ db3 ∧
          Inv (if chann.state = .opened && newCtrl.state = .connected then
            rfcSendAuthenReq ((limitFrameSize chann.id db2).chann chann.id) true
              (limitFrameSize chann.id db2) else db2) ∧
          (if chann.state = .opened && newCtrl.state = .connected then
            rfcSendAuthenReq ((limitFrameSize chann.id db2).chann chann.id) true
              (limitFrameSize chann.id db2) else db2).channList = db3.channList := by
        split
        . next hopened =>
          simp only [Bool.and_eq_true, decide_eq_true_eq] at hopened
          have hsame := hsame2.trans (same_limitFrameSize chann.id db2)
          refine ⟨_, hsame, ?_, rfl⟩
          have hin : ∃ c ∈ db₁.channList, c.id = chann.id ∧ c.service = chann.service := by
            rw [← hdb1]
            exact ⟨_, Table.mem_modify.mpr ⟨chann, hmem, if_pos rfl⟩, rfl, rfl⟩
          obtain ⟨c, hc, hcid, hcservice⟩ := hin
          obtain ⟨hc3, hkeep⟩ := chann_of_same hs1 hsame hc
          rw [hcid] at hc3 hkeep
          refine inv_rfcSendAuthenReq (inv_same hs1 hsame) hc3 ?_ true
          rw [hkeep.service, hcservice]
          exact hservice hopened.1 hopened.2
        . exact ⟨db2, hsame2, inv_same hs1 hsame2, rfl⟩
      have hback : ∀ c' ∈ db3.channList, ∃ c, Keeps c c' ∧
          (c ∈ db.channList ∧ c.id ≠ chann.id ∨ c.id = chann.id ∧
            c.ctrlChann = some newCtrl.id ∧ c.dlci = movedDlci ctrl newCtrl chann.dlci) := by
        intro c' hc'
        obtain ⟨c, hc, hkeep⟩ := hsame3.back c' hc'
        exact ⟨c, hkeep, hmem1 c hc⟩
      have hleft : ∀ c' ∈ db3.channList, c'.ctrlChann = some ctrl.id → c'.dlci ≠ 0 →
          ∃ c ∈ db.channList, Keeps c c' ∧ c.id ≠ chann.id := by
        intro c' hc' hctrl' _
        obtain ⟨c, hkeep, ⟨hc, hcne⟩ | ⟨_, hcctrl, _⟩⟩ := hback c' hc'
        . exact ⟨c, hc, hkeep, hcne⟩
        . rw [← hkeep.ctrlChann, hctrl', Option.some.injEq] at hcctrl
          exact absurd hcctrl.symm hne
      refine ⟨hinv, ?_, ?_, ?_⟩
      . unfold MoveOk
        rw [hlist]
        intro c' hc' hctrl' hdlci'
        obtain ⟨c, hc, hkeep, hcne⟩ := hleft c' hc' hctrl' hdlci'
        rw [hkeep.ctrlChann] at hctrl'
        rw [hkeep.dlci] at hdlci' ⊢
        rw [hkeep.service]
        obtain ⟨hcfree, hcservice⟩ := hmove c hc hctrl' hdlci'
        refine ⟨?_, fun ho => hcservice (hkeep.opened ho)⟩
        intro d' hd' hdctrl
        obtain ⟨d, hdkeep, ⟨hd, _⟩ | ⟨_, _, hdmoved⟩⟩ := hback d' hd'
        . rw [hdkeep.dlci]
          exact hcfree d hd (by rw [← hdkeep.ctrlChann, hdctrl])
        . rw [hdkeep.dlci, hdmoved]
          intro heq
          exact hcne (hs.dlcis c hc chann hmem (by rw [hctrl', hctrl])
            (movedDlci_inj ctrl newCtrl heq).symm)
      . rw [hlist]
        have hin : k ∈ db₁.channList := by
          rw [← hdb1]
          refine Table.mem_modify.mpr ⟨k, hk, if_neg ?_⟩
          intro heq
          rw [Table.eq_of_key_eq hs.nodup hk hmem heq] at hkzero
          exact hdlci hkzero
        obtain ⟨k', hk', hkeep⟩ := hsame3.forth k hin
        exact ⟨k', hk', by rw [hkeep.id, hkid], by rw [hkeep.dlci, hkzero]⟩
      . rw [hlist]
        intro c' hc' hctrl' hdlci'
        obtain ⟨c, hc, hkeep, hcne⟩ := hleft c' hc' hctrl' hdlci'
        rw [hkeep.id]
        rw [hkeep.ctrlChann] at hctrl'
        rw [hkeep.dlci] at hdlci'
        exact ⟨hcne, c, hc, rfl, hctrl', hdlci'⟩
    . rw [hnone] at hdata
      simp [isDataOf] at hdata
  . next hdata =>
    refine ⟨hs, hmove, hnew, ?_⟩
    intro c' hc' hctrl hdlci
    refine ⟨?_, c', hc', rfl, hctrl, hdlci⟩
    intro hid
    rw [← hid, chann_of_mem hs hc'] at hdata
    simp [isDataOf, hctrl, hdlci] at hdata

theorem inv_foldl_changeCtrlChann (ids : List Nat)
    (hids : ∀ c ∈ db.channList, c.ctrlChann = some ctrl.id → c.dlci ≠ 0 → c.id ∈ ids) :
    Inv (ids.foldl (changeCtrlChann ctrl newCtrl) db) ∧
      NotCtrl ctrl.id (ids.foldl (changeCtrlChann ctrl newCtrl) db) := by
  induction ids generalizing db with
  | nil =>
    refine ⟨hs, ?_⟩
    intro c hc hctrl
    by_cases hzero : c.dlci = 0
    . have hself := hs.self c hc hzero
      rw [hctrl, Option.some.injEq] at hself
      exact hself.symm
    . exact absurd (hids c hc hctrl hzero) (by simp)
  | cons id ids ih =>
    obtain ⟨hs1, hmove1, hnew1, hleft⟩ := inv_changeCtrlChann hs hmove hnew hne id
    apply ih hs1 hmove1 hnew1
    intro c' hc' hctrl hdlci
    obtain ⟨hid, c, hc, hcid, hcctrl, hcdlci⟩ := hleft c' hc' hctrl hdlci
    have hin := hids c hc hcctrl hcdlci
    rw [hcid, mem_cons] at hin
    exact hin.resolve_left hid

end

theorem inv_rfcChangeCtrlChann (hs : Inv db)
    (hmove : MoveOk ctrl newCtrl db) (hnew : newCtrl ∈ db.channList) (hzero : newCtrl.dlci = 0)
    (hne : newCtrl.id ≠ ctrl.id) :
    Inv (rfcChangeCtrlChann ctrl newCtrl db) ∧
      NotCtrl ctrl.id (rfcChangeCtrlChann ctrl newCtrl db) := by
  unfold rfcChangeCtrlChann
  apply inv_foldl_changeCtrlChann hs hmove ⟨newCtrl, hnew, rfl, hzero⟩ hne
  intro c hc _ _
  exact mem_map_of_mem hc

theorem inv_rfcHandleL2cConnCmpl (hs : Inv db) (cause remoteMtu dsDataOffset : Nat)
    (hok : ∀ ctrl ∈ rfcFindChannByDlci 0 cid db, ∀ newCtrl ∈ rfcCheckL2cCollision ctrl db,
      MoveOk ctrl newCtrl db) :
    Inv (rfcHandleL2cConnCmpl cid cause remoteMtu dsDataOffset db) := by
  unfold rfcHandleL2cConnCmpl
  split
  . split
    . exact inv_same hs (same_req ..)
    . exact hs
  . next ctrl hfind =>
    obtain ⟨hmem, _, _⟩ := mem_of_findByDlci hfind
    split
    . next newCtrl hcollision =>
      have hmove := hok ctrl hfind newCtrl hcollision
      unfold rfcCheckL2cCollision at hcollision
      have hp := find?_some hcollision
      simp only [ne_eq, Bool.and_eq_true, decide_eq_true_eq] at hp
      have hne : newCtrl.id ≠ ctrl.id := by
        intro heq
        have hnew := mem_of_find?_eq_some hcollision
        exact hp.2 (by rw [Table.eq_of_key_eq hs.nodup hnew hmem heq])
      obtain ⟨hs1, hnot⟩ := inv_rfcChangeCtrlChann hs hmove
        (mem_of_find?_eq_some hcollision) hp.1.1 hne
      dsimp only
      split
      . exact inv_rfcFreeChann hs1 hnot cause
      . exact inv_same hs1 (same_req ..)
    . split
      . exact inv_dropLink hs ctrl cause
      . have hoffset : Same db { db with dsOffset := dsDataOffset } :=
          .of_channList rfl rfl rfl rfl
        have hlink : Same db ({ db with dsOffset := dsDataOffset }.modify ctrl.id
            fun chann => { chann with mtuSize := remoteMtu, linkState := .connected }) :=
          hoffset.trans (same_modify _ _ fun _ => by simp [keeps_iff])
        dsimp only
        split
        . exact inv_same hs
            ((hlink.trans (same_modify _ _ fun _ => by simp [keeps_iff])).trans (same_rfcSendFrame ..))
        . exact inv_same hs hlink

theorem inv_rfcHandleL2cDisconnRsp (hs : Inv db) (cid cause : Nat) :
    Inv (rfcHandleL2cDisconnRsp cid cause db) := by
  unfold rfcHandleL2cDisconnRsp
  split
  . exact hs
  . next ctrl _ => exact inv_dropLink hs ctrl cause

section

variable {db db' : Db}

theorem notCtrl_of_alone (hs : Inv db) (hmem : chann ∈ db.channList)
    (h : AloneOk chann db) : NotCtrl chann.id db := by
  by_cases hzero : chann.dlci = 0
  . intro c hc hctrl
    have hself := hs.self c hc (h hzero c hc hctrl)
    rw [hctrl, Option.some.injEq] at hself
    exact hself.symm
  . exact notCtrl_of_data hs hmem hzero

theorem inv_freeAlone (hs : Inv db) (hsame : Same db db')
    (hmem : chann ∈ db.channList) (h : AloneOk chann db) (cause : Nat) :
    Inv (rfcFreeChann chann cause db') :=
  inv_rfcFreeChann (inv_same hs hsame) (notCtrl_same (notCtrl_of_alone hs hmem h) hsame) cause

theorem inv_rfcHandleAuthenRsp (hs : Inv db) (outgoing : Bool)
    (hok : cause ≠ 0 → ∀ chann ∈ rfcFindChannByDlci dlci cid db, AloneOk chann db) :
    Inv (rfcHandleAuthenRsp dlci cid cause outgoing db) := by
  unfold rfcHandleAuthenRsp
  split
  . exact hs
  . next chann hfind =>
    obtain ⟨hmem, _, _⟩ := mem_of_findByDlci hfind
    split
    . split
      . next hcause =>
        exact inv_freeAlone hs
          ((same_modify _ _ fun _ => by simp [keeps_iff]).trans (same_rfcCheckDisconnCtrlChann ..)) hmem
          (hok hcause chann hfind) _
      . split
        . exact inv_same hs
            ((same_modify _ _ fun _ => by simp [keeps_iff]).trans (same_rfcSendUih ..))
        . exact hs
    . split
      . next hcause =>
        exact inv_freeAlone hs (same_rfcSendUih ..) hmem (hok hcause chann hfind) _
      . split
        . exact inv_same hs (same_rfcMsgPost ..)
        . exact hs

theorem inv_rfcWaitMscTimeout (hs : Inv db) (hmem : chann ∈ db.channList)
    (hservice : chann.service ≠ none) : Inv (rfcWaitMscTimeout chann.id db) := by
  unfold rfcWaitMscTimeout
  dsimp only
  have hdone : Same db (db.modify chann.id fun chann =>
      { chann with mscHandshake := rfcMscCmdRcv ||| rfcMscRspRcv, waitMscTimer := false }) :=
    same_modify _ _ fun _ => by simp [keeps_iff]
  obtain ⟨hmem', hkeep⟩ := chann_of_same hs hdone hmem
  apply inv_postConnCmpl (inv_same hs hdone)
  apply registered (inv_same hs hdone) hmem'
  rw [hkeep.service]
  exact hservice

theorem keeps_rfcInitCredits (credits : Nat) (c : Chann) : Keeps c (rfcInitCredits credits c) := by
  unfold rfcInitCredits
  split
  . exact ⟨rfl, rfl, rfl, rfl, rfl, fun h => h⟩
  . exact Keeps.refl c

theorem inv_rfcConnCfm (hs : Inv db) (frameSize maxCredits : Nat)
    (hok : status ≠ 0 → ∀ chann ∈ rfcFindChannByAddr bdAddr dlci db, AloneOk chann db) :
    Inv (rfcConnCfm bdAddr dlci status frameSize maxCredits db) := by
  unfold rfcConnCfm
  split
  . exact hs
  . next chann hfind =>
    split
    . next hstatus =>
      obtain ⟨hmem, _, _⟩ := mem_of_findByAddr hfind
      exact inv_freeAlone hs (same_rfcSendUih ..) hmem (hok hstatus chann hfind) _
    . split
      . refine inv_same hs (Same.trans ?_ (same_rfcSendUih ..))
        apply same_modify
        intro c
        have hcredits := keeps_rfcInitCredits maxCredits
          { c with
            usFlowCtrl := 0
            frameSize := if frameSize > c.frameSize then c.frameSize else frameSize }
        exact ⟨hcredits.id, hcredits.ctrlChann, hcredits.service, hcredits.dlci, hcredits.l2cCid,
          by simp⟩
      . exact hs

theorem inv_rfcDisconnReq (hs : Inv db) (bdAddr dlci : Nat) :
    Inv (rfcDisconnReq bdAddr dlci db).1 := by
  unfold rfcDisconnReq
  split
  . exact hs
  . next chann hfind =>
    obtain ⟨hmem, _, _⟩ := mem_of_findByAddr hfind
    dsimp only
    split
    . exact inv_same hs (same_modify _ _ fun _ => by simp [keeps_iff])
    . split
      . exact hs
      . exact hs
      . next hopened =>
        exact inv_freeData hs
          ((same_modify _ _ fun _ => by simp [keeps_iff]).trans (same_rfcCheckDisconnCtrlChann ..)) hmem
          (fun hzero => hs.opened chann hmem hzero hopened) _
      . exact inv_same hs (same_modify _ _ fun _ => by simp [keeps_iff])
      . exact inv_same hs
          (((same_modify _ _ fun _ => by simp [keeps_iff]).trans (same_rfcSendFrame ..)).trans
          (same_rfcCheckSendCredits _))

theorem inv_connReqLink (hs : Inv db) (hk : k ∈ db.channList)
    (hdata : data ∈ db.channList) (hne : data.dlci ≠ 0)
    (hservice : data.service = service)
    (hok : k.linkState = .connected → k.state = .connected → service ≠ none) (bdAddr : Nat) :
    Inv (connReqLink bdAddr k.id data.id service db).1 := by
  unfold connReqLink
  dsimp only
  rw [chann_of_mem hs hk]
  split
  . refine inv_modify_service (inv_same hs (same_req ..)) k.id
      (fun _ => ⟨rfl, rfl, rfl, rfl, rfl⟩) ?_
    intro _ s hsome
    exact hs.services data hdata s (by rw [hservice]; exact hsome)
  . next hlink =>
    split
    . exact inv_same hs
        ((same_modify _ _ fun _ => by simp [keeps_iff]).trans (same_rfcSendFrame ..))
    . next hstate =>
      have hlimit := same_limitFrameSize data.id db
      obtain ⟨hmem, hkeep⟩ := chann_of_same hs hlimit hdata
      apply inv_rfcSendAuthenReq (inv_same hs hlimit) hmem
      rw [hkeep.service, hservice]
      exact hok hlink hstate
    . exact hs
    . exact hs
  . exact inv_same hs (same_modify _ _ fun _ => by simp [keeps_iff])
  . exact inv_erase hs (notCtrl_of_data hs hdata hne) rfl rfl rfl rfl
  . exact hs

theorem inv_connReqData (hs : Inv db) (hk : k ∈ db.channList) (hzero : k.dlci = 0)
    (haddr : k.bdAddr = bdAddr)
    (hfind : rfcFindChannByAddr bdAddr dlci db = none)
    (heq : rfcAllocChann dlci db = (some data, db'))
    (hf : (f data).id = data.id ∧ (f data).ctrlChann = some k.id ∧ (f data).dlci = data.dlci ∧
      (f data).service = service)
    (hservice : ∀ s, service = some s → ∃ item ∈ db.serviceList, item.id = s)
    (hok : k.linkState = .connected → k.state = .connected → service ≠ none) :
    Inv (connReqLink bdAddr k.id data.id service (db'.modify data.id f)).1 := by
  have hfree : ∀ c ∈ db.channList, c.ctrlChann = some k.id → c.dlci ≠ dlci := by
    intro c hc hctrl
    apply ne_of_findByAddr hfind hc
    rw [ctrlChann_eq hs hk hctrl, haddr]
  have hne : dlci ≠ 0 := by
    have := hfree k hk (hs.self k hk hzero)
    omega
  obtain ⟨hid, hctrl, hdlci, hown⟩ := hf
  obtain ⟨hs1, hmem⟩ := inv_allocData hs hk hzero hne hfree heq hid hctrl hdlci
    (by rw [hown]; exact hservice)
  obtain ⟨_, hdata, _, _, _, _, _, _, _, hlist⟩ := alloc_modify hs.fresh heq
  have hk1 : k ∈ (db'.modify data.id f).channList := by
    rw [hlist f]
    exact mem_append_left _ hk
  have hlink := inv_connReqLink hs1 hk1 hmem (by rw [hdlci, hdata]; exact hne) hown hok bdAddr
  rw [hid] at hlink
  exact hlink

theorem inv_dropNew (hs : Inv db)
    (heq : rfcAllocChann 0 db = (some ctrl, db₁)) (hid : (f ctrl).id = ctrl.id)
    (hlist : db2.channList = (db₁.modify ctrl.id f).channList)
    (hservices : db2.serviceList = db₁.serviceList) (hnext : db2.nextId = db₁.nextId)
    (hlog : db2.log = db₁.log) (hchann : chann.id = ctrl.id) (cause : Nat) :
    Inv (rfcFreeChann chann cause db2) := by
  obtain ⟨hnew, _, _, _, _, hservices1, hnext1, hlog1, _, hlist1⟩ := alloc_modify hs.fresh heq
  obtain ⟨hlist', hservices', hnext', hreads'⟩ := rfcFreeChann_eq chann cause db2
  refine inv_nextId hs (hservices'.trans (hservices.trans hservices1)) ?_ ?_ ?_
  . rw [hnext', hnext, hnext1]
    omega
  . rw [hreads', hlog, hlog1]
  . rw [hlist', hlist, hlist1 f, hchann, hnew]
    unfold Table.erase
    rw [filter_append, filter_eq_self.mpr, filter_eq_nil_iff.mpr, append_nil]
    . intro c hc
      rw [mem_singleton.mp hc, hid, hnew]
      simp
    . intro c hc
      have := hs.fresh c hc
      simp only [ne_eq, decide_eq_true_eq]
      omega

theorem registered_find
    (h : (db.serviceList.find? (·.serviceId = serviceId)).map (·.id) = some s) :
    ∃ item ∈ db.serviceList, item.id = s := by
  obtain ⟨item, hitem, hid⟩ := Option.map_eq_some_iff.mp h
  exact ⟨item, mem_of_find?_eq_some hitem, hid⟩

theorem alloc_services {dlci : Nat} :
    (rfcAllocChann dlci db).2.serviceList = db.serviceList ∧
      (rfcAllocChann dlci db).2.allocs = db.allocs.tail := by
  unfold rfcAllocChann
  dsimp only
  split <;> exact ⟨rfl, rfl⟩

theorem inv_rfcConnReq_old (hs : Inv db)
    (hfind : rfcFindChannByAddr bdAddr 0 db = some ctrl) (frameSize maxCredits : Nat)
    (hok : ConnReqOk bdAddr serverChann serviceId db) :
    Inv (rfcConnReq bdAddr serverChann serviceId frameSize maxCredits db).1 := by
  obtain ⟨hmem, hzero, haddr⟩ := mem_of_findByAddr hfind
  rw [ctrl_self hs hmem hzero] at haddr
  unfold ConnReqOk at hok
  rw [hfind] at hok
  unfold rfcConnReq connReqCtrl
  rw [hfind]
  dsimp only
  rw [chann_of_mem hs hmem]
  split
  . exact hs
  . next hnone =>
    split
    . next heq => exact inv_same hs (same_alloc_none heq)
    . next data db₁ heq =>
      have hservices : db₁.serviceList = db.serviceList := by
        have := (@alloc_services db (connReqDlci ctrl serverChann)).1
        rw [heq] at this
        exact this
      rw [hservices]
      refine inv_connReqData hs hmem hzero haddr hnone heq ?_ (fun s => registered_find) ?_
      . have hcredits := keeps_rfcInitCredits maxCredits data
        exact ⟨hcredits.id, rfl, hcredits.dlci, rfl⟩
      . intro hlink hstate
        have := hok hlink hstate hnone (alloc_some heq).1
        rw [Option.isSome_iff_exists] at this
        obtain ⟨item, hitem⟩ := this
        rw [hitem]
        simp

theorem alloc_chann (hs : Inv db)
    (heq : rfcAllocChann dlci db = (some chann, db'))
    (hid : (f chann).id = chann.id) :
    chann.linkState = .idle ∧ (db'.modify chann.id f).chann chann.id = f chann := by
  constructor
  . obtain ⟨-, rfl, -⟩ := alloc_some heq
    rfl
  . obtain ⟨hnew, _, _, _, _, _, _, _, _, hlist⟩ := alloc_modify hs.fresh heq
    have hnone : db.channList.find? (fun c => c.id = chann.id) = none := by
      rw [find?_eq_none]
      intro c hc
      have := hs.fresh c hc
      simp only [decide_eq_true_eq]
      omega
    unfold Db.chann Table.find?
    rw [hlist f, find?_append, hnone]
    simp [hid]

theorem inv_rfcConnReq_new (hs : Inv db)
    (hfind : rfcFindChannByAddr bdAddr 0 db = none) (frameSize maxCredits : Nat)
    (hok : ConnReqOk bdAddr serverChann serviceId db) :
    Inv (rfcConnReq bdAddr serverChann serviceId frameSize maxCredits db).1 := by
  unfold ConnReqOk at hok
  rw [hfind] at hok
  unfold rfcConnReq connReqCtrl
  rw [hfind]
  dsimp only
  cases heq : rfcAllocChann 0 db with
  | mk found db₁ =>
    cases found with
    | none => exact inv_same hs (same_alloc_none heq)
    | some ctrl =>
      dsimp only
      obtain ⟨_, hzero, hidle, _, hcid, _, _, _, _, hlist⟩ := alloc_modify hs.fresh heq
      have hallocs : db₁.allocs = db.allocs.tail := by
        have := (@alloc_services db 0).2
        rw [heq] at this
        exact this
      generalize hf : (fun chann : Chann =>
        { chann with ctrlChann := some ctrl.id, bdAddr := bdAddr }) = f
      have hid : (f ctrl).id = ctrl.id := by rw [← hf]
      have hself : (f ctrl).ctrlChann = some ctrl.id := by rw [← hf]
      have haddr : (f ctrl).bdAddr = bdAddr := by rw [← hf]
      have hkzero : (f ctrl).dlci = 0 := by rw [← hf, hzero]
      have hstate : (f ctrl).state = .idle := by rw [← hf, hidle]
      obtain ⟨hlink, hchann⟩ := alloc_chann hs heq hid
      have hklink : (f ctrl).linkState = .idle := by rw [← hf, hlink]
      have hk : f ctrl ∈ (db₁.modify ctrl.id f).channList := by simp [hlist]
      have hdlci : connReqDlci (f ctrl) serverChann = (serverChann <<< 1) % 2 ^ 8 := by
        simp [connReqDlci, hstate]
      rw [hchann, hdlci]
      split
      . exact inv_dropNew hs heq hid rfl rfl rfl rfl hid _
      . next hfree =>
        have hne : (serverChann <<< 1) % 2 ^ 8 ≠ 0 := by
          have := ne_of_findByAddr hfree hk (by
            unfold Db.ctrl
            rw [hself]
            exact (congrArg Chann.bdAddr hchann).trans haddr)
          omega
        split
        . next db3 hnomem =>
          obtain ⟨-, rfl⟩ := alloc_none hnomem
          simp only [if_true]
          apply inv_dropNew hs heq hid
          . rfl
          . rfl
          . rfl
          . rfl
          . exact (congrArg Chann.id hchann).trans hid
        . next data db3 hdata =>
          have hs2 : Inv (db₁.modify ctrl.id f) := by
            apply inv_allocCtrl hs heq hid hself (by rw [hkzero, hzero]) (by rw [hstate, hidle])
            . rw [← hf]
            . rw [← hf]
              dsimp only
              rw [hcid]
              refine hok (alloc_some heq).1 ?_ hne
              rw [← hallocs]
              exact (@alloc_some (db₁.modify ctrl.id f) _ _ _ hdata).1
          have hservices : db3.serviceList = (db₁.modify ctrl.id f).serviceList := by
            have := (@alloc_services (db₁.modify ctrl.id f)
              ((serverChann <<< 1) % 2 ^ 8)).1
            rw [hdata] at this
            exact this
          rw [hservices, ← hid]
          refine inv_connReqData hs2 hk hkzero haddr hfree hdata ?_ (fun s => registered_find) ?_
          . have hcredits := keeps_rfcInitCredits maxCredits data
            exact ⟨hcredits.id, rfl, hcredits.dlci, rfl⟩
          . intro hconn
            rw [hklink] at hconn
            cases hconn

theorem inv_rfcConnReq (hs : Inv db)
    (frameSize maxCredits : Nat) (hok : ConnReqOk bdAddr serverChann serviceId db) :
    Inv (rfcConnReq bdAddr serverChann serviceId frameSize maxCredits db).1 := by
  cases hfind : rfcFindChannByAddr bdAddr 0 db with
  | none => exact inv_rfcConnReq_new hs hfind frameSize maxCredits hok
  | some ctrl => exact inv_rfcConnReq_old hs hfind frameSize maxCredits hok

end

section

variable {db : Db}

theorem inv_step (hs : Inv db) (e : Event) (hok : e.Ok db) : Inv (e.step db) := by
  cases e with
  | l2cConnInd bdAddr cid => exact inv_rfcHandleL2cConnInd hs hok
  | l2cConnRsp bdAddr cid cause => exact inv_rfcHandleL2cConnRsp hs hok
  | l2cConnCmpl cid cause remoteMtu dsDataOffset => exact inv_rfcHandleL2cConnCmpl hs _ _ _ hok
  | l2cDisconnInd cid cause => exact inv_rfcHandleL2cDisconnRsp (inv_same hs (same_req ..)) cid cause
  | l2cDisconnRsp cid cause => exact inv_rfcHandleL2cDisconnRsp hs cid cause
  | l2cDataInd ind => exact inv_rfcHandleL2cDataInd hs hok
  | authenRsp dlci cid cause outgoing => exact inv_rfcHandleAuthenRsp hs outgoing hok
  | waitRspTimeout id =>
    unfold Event.step
    dsimp only
    split
    . next hrunning =>
      obtain ⟨chann, hmem, hchann⟩ := any_eq_true.mp hrunning
      simp only [Bool.and_eq_true, decide_eq_true_eq] at hchann
      unfold rfcWaitRspTimeout
      rw [← hchann.1, chann_of_mem hs hmem]
      exact inv_failChann hs hmem _
    . exact hs
  | waitMscTimeout id =>
    unfold Event.step
    dsimp only
    split
    . next hrunning =>
      obtain ⟨chann, hmem, hchann⟩ := any_eq_true.mp hrunning
      simp only [Bool.and_eq_true, decide_eq_true_eq] at hchann
      rw [← hchann.1]
      exact inv_rfcWaitMscTimeout hs hmem (hok chann hmem hchann.1 hchann.2)
    . exact hs
  | connReq bdAddr serverChann serviceId frameSize maxCredits => exact inv_rfcConnReq hs _ _ hok
  | connCfm bdAddr dlci status frameSize maxCredits => exact inv_rfcConnCfm hs _ _ hok
  | disconnReq bdAddr dlci => exact inv_rfcDisconnReq hs bdAddr dlci
  | setErtmMode enable => exact inv_same hs (.of_channList rfl rfl rfl rfl)
  | resources allocs bufs => exact inv_same hs (.of_channList rfl rfl rfl rfl)

def initial (services : List ServiceItem) : Db := { serviceList := services }

theorem inv_initial (services : List ServiceItem) : Inv (initial services) := by
  constructor <;> simp [initial]

structure TableOk (db : Db) : Prop where
  keys : (db.channList.map fun c => (c.dlci, (db.ctrl c).l2cCid)).Nodup
  ctrl : ∀ c ∈ db.channList, ∃ k ∈ db.channList, c.ctrlChann = some k.id ∧ k.dlci = 0
  services : ∀ service ∈ db.log.serviceReads, ∃ item ∈ db.serviceList, service = some item.id

theorem tableOk_of_inv (hs : Inv db) : TableOk db := by
  refine ⟨?_, hs.ctrl, hs.reads⟩
  rw [nodup_map_iff_inj_on hs.nodup.of_map]
  intro c hc c' hc' hkey
  rw [Prod.mk.injEq] at hkey
  obtain ⟨hk, hctrl, hzero⟩ := ctrl_of_mem hs hc
  obtain ⟨hk', hctrl', hzero'⟩ := ctrl_of_mem hs hc'
  have hid := hs.cids _ hk _ hk' hzero hzero' hkey.2
  have : c.id = c'.id := hs.dlcis c hc c' hc' (by rw [hctrl, hctrl', hid]) hkey.1
  exact Table.eq_of_key_eq hs.nodup hc hc' this

theorem tableOk_of_along (services : List ServiceItem) (events : List Event)
    (hok : Run.Along Event.step Event.Ok (initial services) events) :
    TableOk (Run.exec Event.step (initial services) events) := by
  apply tableOk_of_inv
  apply @Run.exec_inv _ _ Event.step Event.Ok Inv
  . intro db e hs he
    exact inv_step hs e he
  . exact inv_initial services
  . exact hok

def frameInd (cid : Nat) (bytes : List UInt8) (h : bytes.length < 2 ^ 16 := by decide) :
    DataInd where
  cid := cid
  length := bytes.length
  gap := 0
  data := fun i => bytes.getD i 0
  length_lt := h

def peerConnects : List Event :=
  [.l2cConnInd 1 64, .l2cConnCmpl 64 0 1000 24, .l2cDataInd (frameInd 64 [0x03, 0x3F, 0x01, 0x1C]),
    .l2cDataInd (frameInd 64
      [0x03, 0xEF, 0x15, 0x83, 0x11, 0x02, 0xF0, 0x07, 0x00, 0x7F, 0x00, 0x00, 0x07, 0x70])]

theorem tableOk_peerConnects :
    TableOk (Run.exec Event.step (initial [{ id := 0, localServerChann := 1, serviceId := 0 }])
      peerConnects) :=
  tableOk_of_along _ _ (by decide)

theorem not_tableOk_pn :
    ¬∀ (services : List ServiceItem) (events : List Event),
      TableOk (Run.exec Event.step (initial services) events) := by
  intro h
  have := (h [{ id := 0, localServerChann := 1, serviceId := 0 }]
    (peerConnects ++ [.l2cDataInd (frameInd 64
      [0x03, 0xEF, 0x15, 0x83, 0x11, 0x42, 0xF0, 0x07, 0x00, 0x7F, 0x00, 0x00, 0x07, 0x70])])).keys
  exact absurd this (by decide)

end

end Rfc
