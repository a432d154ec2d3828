import Earphone.Rfc.Connect

namespace Rfc

open List

structure Inv (db : Db) : Prop where
  nodup : (db.channList.map Chann.id).Nodup
  fresh : ∀ c ∈ db.channList, c.id < db.nextId
  self : ∀ c ∈ db.channList, c.dlci = 0 → c.ctrlChann = some c.id
  ctrl : ∀ c ∈ db.channList, ∃ k ∈ db.channList, c.ctrlChann = some k.id ∧ k.dlci = 0
  cids : ∀ k ∈ db.channList, ∀ k' ∈ db.channList, k.dlci = 0 → k'.dlci = 0 →
    k.l2cCid = k'.l2cCid → k.id = k'.id
  dlcis : ∀ c ∈ db.channList, ∀ c' ∈ db.channList, c.ctrlChann = c'.ctrlChann →
    c.dlci = c'.dlci → c.id = c'.id
  opened : ∀ c ∈ db.channList, c.dlci = 0 → c.state ≠ .opened
  services : ∀ c ∈ db.channList, ∀ s, c.service = some s → ∃ item ∈ db.serviceList, item.id = s
  reads : ∀ r ∈ db.log.serviceReads, ∃ item ∈ db.serviceList, r = some item.id

structure Keeps (c c' : Chann) : Prop where
  id : c'.id = c.id
  ctrlChann : c'.ctrlChann = c.ctrlChann
  service : c'.service = c.service
  dlci : c'.dlci = c.dlci
  l2cCid : c'.l2cCid = c.l2cCid
  opened : c'.state = .opened → c.state = .opened

theorem keeps_iff : Keeps c c' ↔ c'.id = c.id ∧ c'.ctrlChann = c.ctrlChann ∧
    c'.service = c.service ∧ c'.dlci = c.dlci ∧ c'.l2cCid = c.l2cCid ∧
    (c'.state = .opened → c.state = .opened) :=
  ⟨fun ⟨h1, h2, h3, h4, h5, h6⟩ => ⟨h1, h2, h3, h4, h5, h6⟩,
    fun ⟨h1, h2, h3, h4, h5, h6⟩ => ⟨h1, h2, h3, h4, h5, h6⟩⟩

theorem Keeps.refl (c : Chann) : Keeps c c := ⟨rfl, rfl, rfl, rfl, rfl, fun h => h⟩

theorem Keeps.trans (h : Keeps c1 c2) (h' : Keeps c2 c3) : Keeps c1 c3 :=
  ⟨h'.id.trans h.id, h'.ctrlChann.trans h.ctrlChann, h'.service.trans h.service,
    h'.dlci.trans h.dlci, h'.l2cCid.trans h.l2cCid, fun ho => h.opened (h'.opened ho)⟩

structure Same (db db' : Db) : Prop where
  serviceList : db'.serviceList = db.serviceList
  nextId : db'.nextId = db.nextId
  serviceReads : db'.log.serviceReads = db.log.serviceReads
  ids : db'.channList.map Chann.id = db.channList.map Chann.id
  forth : ∀ c ∈ db.channList, ∃ c' ∈ db'.channList, Keeps c c'
  back : ∀ c' ∈ db'.channList, ∃ c ∈ db.channList, Keeps c c'

theorem Same.of_channList (hservices : db'.serviceList = db.serviceList)
    (hnext : db'.nextId = db.nextId) (hreads : db'.log.serviceReads = db.log.serviceReads)
    (hchanns : db'.channList = db.channList) : Same db db' where
  serviceList := hservices
  nextId := hnext
  serviceReads := hreads
  ids := by rw [hchanns]
  forth := fun c hc => ⟨c, by rw [hchanns]; exact hc, Keeps.refl c⟩
  back := fun c hc => ⟨c, by rw [← hchanns]; exact hc, Keeps.refl c⟩

theorem Same.refl (db : Db) : Same db db := .of_channList rfl rfl rfl rfl

theorem Same.trans (h : Same db₁ db2) (h' : Same db2 db3) : Same db₁ db3 where
  serviceList := h'.serviceList.trans h.serviceList
  nextId := h'.nextId.trans h.nextId
  serviceReads := h'.serviceReads.trans h.serviceReads
  ids := h'.ids.trans h.ids
  forth := by
    intro c hc
    obtain ⟨c2, hc2, hk⟩ := h.forth c hc
    obtain ⟨c3, hc3, hk'⟩ := h'.forth c2 hc2
    exact ⟨c3, hc3, hk.trans hk'⟩
  back := by
    intro c3 hc3
    obtain ⟨c2, hc2, hk'⟩ := h'.back c3 hc3
    obtain ⟨c, hc, hk⟩ := h.back c2 hc2
    exact ⟨c, hc, hk.trans hk'⟩

theorem same_modify_mem (db : Db) (id : Nat)
    (hf : ∀ c ∈ db.channList, c.id = id → Keeps c (f c)) : Same db (db.modify id f) where
  serviceList := rfl
  nextId := rfl
  serviceReads := rfl
  ids := by
    have hlist : (db.modify id f).channList =
      db.channList.map fun c => if c.id = id then f c else c := rfl
    rw [hlist, map_map]
    apply map_congr_left
    intro c hc
    simp only [Function.comp]
    split
    . next h => exact (hf c hc h).id
    . rfl
  forth := by
    intro c hc
    refine ⟨if c.id = id then f c else c, Table.mem_modify.mpr ⟨c, hc, rfl⟩, ?_⟩
    split
    . next h => exact hf c hc h
    . exact Keeps.refl c
  back := by
    intro c' hc'
    obtain ⟨c, hc, rfl⟩ := Table.mem_modify.mp hc'
    refine ⟨c, hc, ?_⟩
    split
    . next h => exact hf c hc h
    . exact Keeps.refl c

theorem same_modify (db : Db) (id : Nat)
    (hf : ∀ c, Keeps c (f c)) : Same db (db.modify id f) :=
  same_modify_mem db id fun c _ _ => hf c

theorem same_foldl {α : Type} {f : Db → α → Db} (h : ∀ db a, Same db (f db a)) (l : List α)
    (db : Db) : Same db (l.foldl f db) := by
  induction l generalizing db with
  | nil => exact Same.refl db
  | cons a l ih => exact (h db a).trans (ih (f db a))

theorem same_read (db : Db) (ind : DataInd) (offsets : List Nat) : Same db (db.read ind offsets) :=
  .of_channList rfl rfl rfl rfl

theorem same_req (db : Db) (r : MpaReq) : Same db (db.req r) := .of_channList rfl rfl rfl rfl

theorem same_rfcMsgPost (service : Option Nat) (msg : Msg) (db : Db) :
    Same db (rfcMsgPost service msg db) := by
  unfold rfcMsgPost
  split
  . split <;> exact .of_channList rfl rfl rfl rfl
  . exact Same.refl db

theorem same_checkSendCredits (db : Db) (id : Nat) : Same db (checkSendCredits db id) := by
  unfold checkSendCredits
  dsimp only
  have hbuf : Same db (mpaGetL2cBuf db).2 := .of_channList rfl rfl rfl rfl
  split
  . split
    . have hflush : Same (mpaGetL2cBuf db).2 ((mpaGetL2cBuf db).2.modify id fun chann =>
          { chann with givenCredits := 0 }) := same_modify _ _ fun _ => by simp [keeps_iff]
      exact (hbuf.trans hflush).trans (.of_channList rfl rfl rfl rfl)
    . exact hbuf
  . exact Same.refl db

theorem same_rfcCheckSendCredits (db : Db) : Same db (rfcCheckSendCredits db) :=
  same_foldl same_checkSendCredits _ _

theorem same_rfcSendFrame (ctrl : Chann) (dlci ctl : Nat) (cr poll : Bool) (data : List Octet)
    (db : Db) : Same db (rfcSendFrame ctrl dlci ctl cr poll data db) := by
  unfold rfcSendFrame
  dsimp only
  split
  . exact Same.refl db
  . split <;> exact .of_channList rfl rfl rfl rfl

theorem same_rfcSendUih (chann : Chann) (type : Nat) (cr : Bool) (data : List Octet) (len : Nat)
    (db : Db) : Same db (rfcSendUih chann type cr data len db) := same_rfcSendFrame ..

theorem same_rfcSendMsc (chann : Chann) (cr : Bool) (dlci status sbreak : Nat) (db : Db) :
    Same db (rfcSendMsc chann cr dlci status sbreak db) := by
  unfold rfcSendMsc
  dsimp only
  split <;> exact same_rfcSendUih ..

theorem same_rfcCheckDisconnCtrlChann (ctrl : Chann) (db : Db) :
    Same db (rfcCheckDisconnCtrlChann ctrl db) := by
  unfold rfcCheckDisconnCtrlChann
  split
  . exact Same.refl db
  . split
    . split
      . exact same_modify _ _ fun _ => by simp [keeps_iff]
      . exact (same_req ..).trans (same_modify _ _ fun _ => by simp [keeps_iff])
    . exact same_modify _ _ fun _ => by simp [keeps_iff]
    . exact (same_modify _ _ fun _ => by simp [keeps_iff]).trans
        (same_rfcSendFrame ..)
    . exact Same.refl db

theorem same_limitFrameSize (id : Nat) (db : Db) : Same db (limitFrameSize id db) := by
  unfold limitFrameSize
  dsimp only
  split
  . exact same_modify _ _ fun _ => by simp [keeps_iff]
  . exact Same.refl db

theorem same_setIdle (id : Nat) (db : Db) : Same db (setIdle id db) :=
  same_modify _ _ fun _ => by simp [keeps_iff]

theorem same_startMsc (chann : Chann) (db : Db) : Same db (startMsc chann db) := by
  unfold startMsc startRspTimer
  refine Same.trans ?_ (same_rfcSendMsc ..)
  exact (same_modify _ _ fun _ => by simp [keeps_iff]).trans
    (same_modify _ _ fun _ => by simp [keeps_iff])

theorem same_sendPendingDisc (chann : Chann) (db : Db) : Same db (sendPendingDisc chann db) :=
  (same_modify _ _ fun _ => by simp [keeps_iff]).trans
    (same_rfcSendFrame ..)

theorem same_handleUserData (chann : Chann) (ind : DataInd) (db : Db) :
    Same db (handleUserData chann ind db) := by
  unfold handleUserData
  dsimp only
  have hcredits : Same db (rfcCheckSendCredits (db.modify chann.id fun chann =>
      { chann with
        remoteRemainCredits := (chann.remoteRemainCredits + ind.returnCredits) % 2 ^ 8 })) :=
    (same_modify _ _ fun _ => by simp [keeps_iff]).trans
      (same_rfcCheckSendCredits _)
  split
  . split
    . exact hcredits.trans (same_rfcMsgPost ..)
    . exact same_rfcMsgPost ..
  . split
    . exact hcredits.trans (same_rfcMsgPost ..)
    . exact same_rfcMsgPost ..

theorem same_handleNoChann (ctrl : Chann) (ind : DataInd) (db : Db) :
    Same db (handleNoChann ctrl ind db) := by
  unfold handleNoChann
  split
  . exact same_rfcSendFrame ..
  . split
    . exact same_rfcSendFrame ..
    . exact Same.refl db

section

variable {db db' : Db}

theorem inv_same (hs : Inv db) (h : Same db db') : Inv db' where
  nodup := by rw [h.ids]; exact hs.nodup
  fresh := by
    intro c' hc'
    obtain ⟨c, hc, hk⟩ := h.back c' hc'
    rw [hk.id, h.nextId]
    exact hs.fresh c hc
  self := by
    intro c' hc'
    obtain ⟨c, hc, hk⟩ := h.back c' hc'
    rw [hk.dlci, hk.ctrlChann, hk.id]
    exact hs.self c hc
  ctrl := by
    intro c' hc'
    obtain ⟨c, hc, hk⟩ := h.back c' hc'
    obtain ⟨k, hkmem, hctrl, hdlci⟩ := hs.ctrl c hc
    obtain ⟨k', hkmem', hk'⟩ := h.forth k hkmem
    exact ⟨k', hkmem', by rw [hk.ctrlChann, hk'.id, hctrl], by rw [hk'.dlci, hdlci]⟩
  cids := by
    intro c1' hc1' c2' hc2'
    obtain ⟨c1, hc1, hk1⟩ := h.back c1' hc1'
    obtain ⟨c2, hc2, hk2⟩ := h.back c2' hc2'
    rw [hk1.dlci, hk2.dlci, hk1.l2cCid, hk2.l2cCid, hk1.id, hk2.id]
    exact hs.cids c1 hc1 c2 hc2
  dlcis := by
    intro c1' hc1' c2' hc2'
    obtain ⟨c1, hc1, hk1⟩ := h.back c1' hc1'
    obtain ⟨c2, hc2, hk2⟩ := h.back c2' hc2'
    rw [hk1.dlci, hk2.dlci, hk1.ctrlChann, hk2.ctrlChann, hk1.id, hk2.id]
    exact hs.dlcis c1 hc1 c2 hc2
  opened := by
    intro c' hc' hdlci hopened
    obtain ⟨c, hc, hk⟩ := h.back c' hc'
    exact hs.opened c hc (by rw [← hk.dlci, hdlci]) (hk.opened hopened)
  services := by
    intro c' hc' s
    obtain ⟨c, hc, hk⟩ := h.back c' hc'
    rw [hk.service, h.serviceList]
    exact hs.services c hc s
  reads := by
    rw [h.serviceReads, h.serviceList]
    exact hs.reads

section

variable (hs : Inv db) (hc : c ∈ db.channList)

include hs hc

theorem chann_of_mem : db.chann c.id = c := by
  unfold Db.chann
  rw [Table.find?_of_mem hs.nodup hc]
  rfl

theorem ctrl_of_mem :
    db.ctrl c ∈ db.channList ∧ c.ctrlChann = some (db.ctrl c).id ∧ (db.ctrl c).dlci = 0 := by
  obtain ⟨k, hk, hctrl, hdlci⟩ := hs.ctrl c hc
  have : db.ctrl c = k := by
    unfold Db.ctrl
    rw [hctrl]
    exact chann_of_mem hs hk
  rw [this]
  exact ⟨hk, hctrl, hdlci⟩

theorem ctrl_self (h : c.dlci = 0) : db.ctrl c = c := by
  unfold Db.ctrl
  rw [hs.self c hc h]
  exact chann_of_mem hs hc

end

theorem ctrl_congr (h : c.ctrlChann = c'.ctrlChann) : db.ctrl c = db.ctrl c' := by
  unfold Db.ctrl
  rw [h]

theorem mem_of_findByDlci (h : rfcFindChannByDlci dlci cid db = some c) :
    c ∈ db.channList ∧ c.dlci = dlci ∧ (db.ctrl c).l2cCid = cid := by
  unfold rfcFindChannByDlci at h
  have hp := find?_some h
  simp only [Bool.and_eq_true, decide_eq_true_eq] at hp
  exact ⟨mem_of_find?_eq_some h, hp.1, hp.2⟩

theorem ne_of_findByDlci (h : rfcFindChannByDlci dlci cid db = none)
    (hc : c ∈ db.channList) (hcid : (db.ctrl c).l2cCid = cid) : c.dlci ≠ dlci := by
  unfold rfcFindChannByDlci at h
  have hp := find?_eq_none.mp h c hc
  simp only [hcid, decide_true, Bool.and_true, decide_eq_true_eq] at hp
  exact hp

theorem mem_of_findByAddr (h : rfcFindChannByAddr bdAddr dlci db = some c) :
    c ∈ db.channList ∧ c.dlci = dlci ∧ (db.ctrl c).bdAddr = bdAddr := by
  unfold rfcFindChannByAddr at h
  have hp := find?_some h
  simp only [Bool.and_eq_true, decide_eq_true_eq] at hp
  exact ⟨mem_of_find?_eq_some h, hp.1, hp.2⟩

theorem ne_of_findByAddr (h : rfcFindChannByAddr bdAddr dlci db = none)
    (hc : c ∈ db.channList) (haddr : (db.ctrl c).bdAddr = bdAddr) : c.dlci ≠ dlci := by
  unfold rfcFindChannByAddr at h
  have hp := find?_eq_none.mp h c hc
  simp only [haddr, decide_true, Bool.and_true, decide_eq_true_eq] at hp
  exact hp

theorem inv_filter (hs : Inv db) (hservices : db'.serviceList = db.serviceList)
    (hnext : db'.nextId = db.nextId) (hreads : db'.log.serviceReads = db.log.serviceReads)
    (hlist : db'.channList = db.channList.filter p)
    (hp : ∀ c ∈ db.channList, p c → ∀ k ∈ db.channList, c.ctrlChann = some k.id → p k) :
    Inv db' := by
  have hmem : ∀ c, c ∈ db'.channList ↔ c ∈ db.channList ∧ p c := by
    intro c
    rw [hlist, mem_filter]
  refine ⟨?_, ?_, ?_, ?_, ?_, ?_, ?_, ?_, ?_⟩
  . rw [hlist]
    exact hs.nodup.sublist (filter_sublist.map Chann.id)
  . intro c hc
    rw [hnext]
    exact hs.fresh c ((hmem c).mp hc).1
  . intro c hc
    exact hs.self c ((hmem c).mp hc).1
  . intro c hc
    obtain ⟨hc, hpc⟩ := (hmem c).mp hc
    obtain ⟨k, hk, hctrl, hdlci⟩ := hs.ctrl c hc
    exact ⟨k, (hmem k).mpr ⟨hk, hp c hc hpc k hk hctrl⟩, hctrl, hdlci⟩
  . intro k hk k' hk'
    exact hs.cids k ((hmem k).mp hk).1 k' ((hmem k').mp hk').1
  . intro c hc c' hc'
    exact hs.dlcis c ((hmem c).mp hc).1 c' ((hmem c').mp hc').1
  . intro c hc
    exact hs.opened c ((hmem c).mp hc).1
  . intro c hc
    rw [hservices]
    exact hs.services c ((hmem c).mp hc).1
  . rw [hreads, hservices]
    exact hs.reads

def NotCtrl (id : Nat) (db : Db) : Prop := ∀ c ∈ db.channList, c.ctrlChann = some id → c.id = id

theorem notCtrl_same {id : Nat} (h : NotCtrl id db) (hsame : Same db db') : NotCtrl id db' := by
  intro c' hc' hctrl
  obtain ⟨c, hc, hk⟩ := hsame.back c' hc'
  rw [hk.id]
  exact h c hc (by rw [← hk.ctrlChann, hctrl])

theorem notCtrl_of_data (hs : Inv db) (hmem : chann ∈ db.channList)
    (hdata : chann.dlci ≠ 0) : NotCtrl chann.id db := by
  intro c hc hctrl
  obtain ⟨k, hk, hctrl', hdlci⟩ := hs.ctrl c hc
  rw [hctrl, Option.some.injEq] at hctrl'
  rw [Table.eq_of_key_eq hs.nodup hmem hk hctrl'] at hdata
  exact absurd hdlci hdata

theorem rfcFreeChann_eq (chann : Chann) (cause : Nat) (db : Db) :
    (rfcFreeChann chann cause db).channList = Table.erase Chann.id db.channList chann.id ∧
      (rfcFreeChann chann cause db).serviceList = db.serviceList ∧
        (rfcFreeChann chann cause db).nextId = db.nextId ∧
          (rfcFreeChann chann cause db).log.serviceReads = db.log.serviceReads := by
  unfold rfcFreeChann rfcMsgPost
  dsimp only
  split
  . split
    . split <;> exact ⟨rfl, rfl, rfl, rfl⟩
    . exact ⟨rfl, rfl, rfl, rfl⟩
  . exact ⟨rfl, rfl, rfl, rfl⟩

theorem inv_erase (hs : Inv db) {id : Nat} (h : NotCtrl id db)
    (hservices : db'.serviceList = db.serviceList) (hnext : db'.nextId = db.nextId)
    (hreads : db'.log.serviceReads = db.log.serviceReads)
    (hlist : db'.channList = Table.erase Chann.id db.channList id) : Inv db' := by
  refine inv_filter hs hservices hnext hreads hlist ?_
  intro c hc hne k _ hctrl
  simp only [ne_eq, decide_eq_true_eq] at hne ⊢
  intro hid
  exact hne (h c hc (by rw [hctrl, hid]))

theorem inv_rfcFreeChann (hs : Inv db) (h : NotCtrl chann.id db) (cause : Nat) :
    Inv (rfcFreeChann chann cause db) := by
  obtain ⟨hlist, hservices, hnext, hreads⟩ := rfcFreeChann_eq chann cause db
  exact inv_erase hs h hservices hnext hreads hlist

end

theorem chann_mem_or (db : Db) (id : Nat) :
    db.chann id ∈ db.channList ∧ (db.chann id).id = id ∨ db.chann id = { id := id } := by
  unfold Db.chann
  cases h : Table.find? Chann.id db.channList id with
  | none => exact .inr rfl
  | some c => exact .inl (Table.mem_of_find? h)

theorem closeDataChann_eq (hnodup : (db.channList.map Chann.id).Nodup) (ctrl cause id : Nat) :
    (closeDataChann ctrl cause db id).channList =
        db.channList.filter (fun c => !(c.id = id && isDataOf ctrl c)) ∧
      (closeDataChann ctrl cause db id).serviceList = db.serviceList ∧
        (closeDataChann ctrl cause db id).nextId = db.nextId ∧
          (closeDataChann ctrl cause db id).log.serviceReads = db.log.serviceReads := by
  unfold closeDataChann
  dsimp only
  split
  . next hdata =>
    obtain ⟨hlist, hrest⟩ := rfcFreeChann_eq (db.chann id) cause db
    refine ⟨?_, hrest⟩
    obtain ⟨hmem, hid⟩ | hnone := chann_mem_or db id
    . rw [hlist, hid]
      unfold Table.erase
      apply filter_congr
      intro c hc
      by_cases heq : c.id = id
      . have : c = db.chann id := Table.eq_of_key_eq hnodup hc hmem (by rw [heq, hid])
        rw [this, hdata]
        simp
      . simp [heq]
    . rw [hnone] at hdata
      simp [isDataOf] at hdata
  . next hdata =>
    refine ⟨(filter_eq_self.mpr ?_).symm, rfl, rfl, rfl⟩
    intro c hc
    by_cases heq : c.id = id
    . have hmem := Table.find?_of_mem hnodup hc
      have : db.chann id = c := by
        unfold Db.chann
        rw [← heq, hmem]
        rfl
      rw [this] at hdata
      simp [hdata]
    . simp [heq]

theorem foldl_closeDataChann (hnodup : (db.channList.map Chann.id).Nodup) (ctrl cause : Nat)
    (ids : List Nat) :
    (ids.foldl (closeDataChann ctrl cause) db).channList =
        db.channList.filter (fun c => !(decide (c.id ∈ ids) && isDataOf ctrl c)) ∧
      (ids.foldl (closeDataChann ctrl cause) db).serviceList = db.serviceList ∧
        (ids.foldl (closeDataChann ctrl cause) db).nextId = db.nextId ∧
          (ids.foldl (closeDataChann ctrl cause) db).log.serviceReads = db.log.serviceReads := by
  induction ids generalizing db with
  | nil => simp
  | cons id ids ih =>
    obtain ⟨hlist, hservices, hnext, hreads⟩ := closeDataChann_eq hnodup ctrl cause id
    have hnodup' : ((closeDataChann ctrl cause db id).channList.map Chann.id).Nodup := by
      rw [hlist]
      exact hnodup.sublist (filter_sublist.map Chann.id)
    obtain ⟨ihlist, ihservices, ihnext, ihreads⟩ := ih hnodup'
    rw [foldl_cons]
    refine ⟨?_, ihservices.trans hservices, ihnext.trans hnext, ihreads.trans hreads⟩
    rw [ihlist, hlist, filter_filter]
    apply filter_congr
    intro c _
    by_cases heq : c.id = id
    . cases isDataOf ctrl c <;> simp [heq]
    . simp [heq]

theorem inv_rfcCloseDataChann (hs : Inv db) (ctrl cause : Nat) :
    Inv (rfcCloseDataChann ctrl cause db) ∧ NotCtrl ctrl (rfcCloseDataChann ctrl cause db) := by
  unfold rfcCloseDataChann
  obtain ⟨hlist, hservices, hnext, hreads⟩ :=
    foldl_closeDataChann hs.nodup ctrl cause (db.channList.map Chann.id)
  generalize (db.channList.map Chann.id).foldl (closeDataChann ctrl cause) db = db₁ at *
  have hmem : ∀ c, c ∈ db₁.channList ↔ c ∈ db.channList ∧ isDataOf ctrl c = false := by
    intro c
    rw [hlist, mem_filter]
    apply and_congr_right
    intro hc
    simp [mem_map_of_mem hc]
  have hinv : Inv db₁ := by
    refine inv_filter hs hservices hnext hreads hlist ?_
    intro c _ _ k hk hctrl
    obtain ⟨k', hk', hctrl', hdlci⟩ := hs.ctrl c ‹_›
    rw [hctrl, Option.some.injEq] at hctrl'
    rw [Table.eq_of_key_eq hs.nodup hk hk' hctrl']
    simp [isDataOf, hdlci]
  have hnot : NotCtrl ctrl db₁ := by
    intro c hc hctrl
    obtain ⟨hc, hdata⟩ := (hmem c).mp hc
    have hdlci : c.dlci = 0 := by simpa [isDataOf, hctrl] using hdata
    have hself := hs.self c hc hdlci
    rw [hctrl, Option.some.injEq] at hself
    exact hself.symm
  exact ⟨inv_same hinv (same_rfcCheckSendCredits _), notCtrl_same hnot (same_rfcCheckSendCredits _)⟩

theorem inv_disconnLink (hs : Inv db) (chann : Chann) (cause : Nat) :
    Inv (disconnLink chann cause db) ∧ NotCtrl chann.id (disconnLink chann cause db) := by
  obtain ⟨hinv, hnot⟩ := inv_rfcCloseDataChann hs chann.id cause
  have hsame : Same (rfcCloseDataChann chann.id cause db) (disconnLink chann cause db) :=
    (same_req _ (.l2cDisconnReq chann.l2cCid)).trans (same_modify _ _ fun _ => by simp [keeps_iff])
  exact ⟨inv_same hinv hsame, notCtrl_same hnot hsame⟩

theorem inv_failChann (hs : Inv db) (hmem : chann ∈ db.channList) (cause : Nat) :
    Inv (failChann chann cause db) := by
  unfold failChann
  dsimp only
  have hidle := same_setIdle chann.id db
  split
  . next hdata =>
    have hsame := hidle.trans (same_rfcCheckDisconnCtrlChann ((setIdle chann.id db).ctrl chann) _)
    exact inv_rfcFreeChann (inv_same hs hsame) (notCtrl_same (notCtrl_of_data hs hmem hdata) hsame)
      cause
  . obtain ⟨hinv, hnot⟩ := inv_disconnLink (inv_same hs hidle) chann cause
    exact inv_rfcFreeChann hinv hnot cause

theorem inv_freeData (hs : Inv db) (hsame : Same db db')
    (hmem : chann ∈ db.channList) (hdata : chann.dlci ≠ 0) (cause : Nat) :
    Inv (rfcFreeChann chann cause db') :=
  inv_rfcFreeChann (inv_same hs hsame) (notCtrl_same (notCtrl_of_data hs hmem hdata) hsame) cause

section

variable {db db' : Db}

theorem registered (hs : Inv db) (hc : c ∈ db.channList) (h : c.service ≠ none) :
    ∃ item ∈ db.serviceList, c.service = some item.id := by
  obtain ⟨s, hservice⟩ := Option.ne_none_iff_exists'.mp h
  obtain ⟨item, hitem, hid⟩ := hs.services c hc s hservice
  exact ⟨item, hitem, by rw [hservice, hid]⟩

theorem inv_readService (hs : Inv db) {c : Chann}
    (h : ∃ item ∈ db.serviceList, c.service = some item.id)
    (hservices : db'.serviceList = db.serviceList) (hnext : db'.nextId = db.nextId)
    (hlist : db'.channList = db.channList)
    (hreads : db'.log.serviceReads = db.log.serviceReads ++ [c.service]) : Inv db' where
  nodup := by rw [hlist]; exact hs.nodup
  fresh := by rw [hlist, hnext]; exact hs.fresh
  self := by rw [hlist]; exact hs.self
  ctrl := by rw [hlist]; exact hs.ctrl
  cids := by rw [hlist]; exact hs.cids
  dlcis := by rw [hlist]; exact hs.dlcis
  opened := by rw [hlist]; exact hs.opened
  services := by rw [hlist, hservices]; exact hs.services
  reads := by
    rw [hreads, hservices]
    intro r hr
    rw [mem_append, mem_singleton] at hr
    obtain hr | rfl := hr
    . exact hs.reads r hr
    . exact h

theorem inv_rfcSendAuthenReq (hs : Inv db) (hc : c ∈ db.channList)
    (h : c.service ≠ none) (outgoing : Bool) : Inv (rfcSendAuthenReq c outgoing db) :=
  inv_readService hs (registered hs hc h) rfl rfl rfl rfl

theorem inv_postConnCmpl (hs : Inv db)
    (h : ∃ item ∈ db.serviceList, c.service = some item.id) : Inv (postConnCmpl c db) := by
  unfold postConnCmpl
  have hread : Inv (readServiceId c db).2 := inv_readService hs h rfl rfl rfl rfl
  exact inv_same hread (same_rfcMsgPost ..)

theorem chann_of_same (hs : Inv db) (h : Same db db') (hc : c ∈ db.channList) :
    db'.chann c.id ∈ db'.channList ∧ Keeps c (db'.chann c.id) := by
  obtain ⟨c', hc', hk⟩ := h.forth c hc
  have : db'.chann c.id = c' := by
    rw [← hk.id]
    exact chann_of_mem (inv_same hs h) hc'
  rw [this]
  exact ⟨hc', hk⟩

def OpenedOk (ctrl : Nat) (db : Db) : Prop :=
  ∀ c ∈ db.channList, c.state = .opened → c.ctrlChann = some ctrl → c.service ≠ none
  deriving Decidable

theorem openedOk_same (h : OpenedOk ctrl db) (hsame : Same db db') : OpenedOk ctrl db' := by
  intro c' hc' hopened hctrl
  obtain ⟨c, hc, hk⟩ := hsame.back c' hc'
  rw [hk.service]
  exact h c hc (hk.opened hopened) (by rw [← hk.ctrlChann, hctrl])

theorem inv_connectOpened (hs : Inv db) (h : OpenedOk ctrl db) : Inv (connectOpened ctrl db) := by
  unfold connectOpened
  generalize db.channList.map Chann.id = ids
  induction ids generalizing db with
  | nil => exact hs
  | cons id ids ih =>
    rw [foldl_cons]
    unfold connectOpenedChann
    dsimp only
    split
    . next hopened =>
      simp only [Bool.and_eq_true, decide_eq_true_eq] at hopened
      obtain ⟨hmem, hid⟩ | hnone := chann_mem_or db id
      . have hlimit := same_limitFrameSize id db
        obtain ⟨hmem', hk⟩ := chann_of_same hs hlimit hmem
        rw [hid] at hmem' hk
        have hservice : ((limitFrameSize id db).chann id).service ≠ none := by
          rw [hk.service]
          exact h _ hmem hopened.1 hopened.2
        apply ih (inv_rfcSendAuthenReq (inv_same hs hlimit) hmem' hservice true)
        have hopened' : OpenedOk ctrl (limitFrameSize id db) := openedOk_same h hlimit
        exact hopened'
      . simp [hnone] at hopened
    . exact ih hs h

end

section

variable {db db' : Db}

theorem inv_append (hs : Inv db) (hservices : db'.serviceList = db.serviceList)
    (hnext : db'.nextId = db.nextId + 1) (hreads : db'.log.serviceReads = db.log.serviceReads)
    (hlist : db'.channList = db.channList ++ [c]) (hid : c.id = db.nextId)
    (hself : c.dlci = 0 → c.ctrlChann = some c.id ∧ c.state ≠ .opened ∧
      ∀ k ∈ db.channList, k.dlci = 0 → k.l2cCid ≠ c.l2cCid)
    (hdata : c.dlci ≠ 0 → (∃ k ∈ db.channList, c.ctrlChann = some k.id ∧ k.dlci = 0) ∧
      ∀ c' ∈ db.channList, c'.ctrlChann = c.ctrlChann → c'.dlci ≠ c.dlci)
    (hservice : ∀ s, c.service = some s → ∃ item ∈ db.serviceList, item.id = s) : Inv db' := by
  have hmem : ∀ c', c' ∈ db'.channList ↔ c' ∈ db.channList ∨ c' = c := by
    intro c'
    rw [hlist, mem_append, mem_singleton]
  have hother : ∀ c' ∈ db.channList, c'.ctrlChann = c.ctrlChann → c'.dlci ≠ c.dlci := by
    intro c' hc' hctrl hdlci
    by_cases hzero : c.dlci = 0
    . obtain ⟨k, hk, hctrl', _⟩ := hs.ctrl c' hc'
      rw [hctrl, (hself hzero).1, Option.some.injEq] at hctrl'
      have := hs.fresh k hk
      omega
    . exact (hdata hzero).2 c' hc' hctrl hdlci
  refine ⟨?_, ?_, ?_, ?_, ?_, ?_, ?_, ?_, ?_⟩
  . rw [hlist, map_append, nodup_append]
    refine ⟨hs.nodup, by simp, ?_⟩
    intro i hi j hj
    obtain ⟨c', hc', rfl⟩ := mem_map.mp hi
    simp only [map_cons, map_nil, mem_singleton] at hj
    have := hs.fresh c' hc'
    omega
  . intro c' hc'
    rw [hnext]
    obtain hc' | rfl := (hmem c').mp hc'
    . have := hs.fresh c' hc'
      omega
    . omega
  . intro c' hc' hdlci
    obtain hc' | rfl := (hmem c').mp hc'
    . exact hs.self c' hc' hdlci
    . exact (hself hdlci).1
  . intro c' hc'
    obtain hc' | rfl := (hmem c').mp hc'
    . obtain ⟨k, hk, hctrl⟩ := hs.ctrl c' hc'
      exact ⟨k, (hmem k).mpr (.inl hk), hctrl⟩
    . by_cases hzero : c'.dlci = 0
      . exact ⟨c', (hmem c').mpr (.inr rfl), (hself hzero).1, hzero⟩
      . obtain ⟨k, hk, hctrl⟩ := (hdata hzero).1
        exact ⟨k, (hmem k).mpr (.inl hk), hctrl⟩
  . intro k hk k' hk' hzero hzero' hcid
    obtain hk | rfl := (hmem k).mp hk
    . obtain hk' | rfl := (hmem k').mp hk'
      . exact hs.cids k hk k' hk' hzero hzero' hcid
      . exact absurd hcid ((hself hzero').2.2 k hk hzero)
    . obtain hk' | rfl := (hmem k').mp hk'
      . exact absurd hcid.symm ((hself hzero).2.2 k' hk' hzero')
      . rfl
  . intro c1 hc1 c2 hc2 hctrl hdlci
    obtain hc1 | rfl := (hmem c1).mp hc1
    . obtain hc2 | rfl := (hmem c2).mp hc2
      . exact hs.dlcis c1 hc1 c2 hc2 hctrl hdlci
      . exact absurd hdlci (hother c1 hc1 hctrl)
    . obtain hc2 | rfl := (hmem c2).mp hc2
      . exact absurd hdlci.symm (hother c2 hc2 hctrl.symm)
      . rfl
  . intro c' hc' hdlci
    obtain hc' | rfl := (hmem c').mp hc'
    . exact hs.opened c' hc' hdlci
    . exact (hself hdlci).2.1
  . intro c' hc'
    rw [hservices]
    obtain hc' | rfl := (hmem c').mp hc'
    . exact hs.services c' hc'
    . exact hservice
  . rw [hreads, hservices]
    exact hs.reads

theorem alloc_modify (hfresh : ∀ c ∈ db.channList, c.id < db.nextId)
    (h : rfcAllocChann dlci db = (some chann, db')) :
    chann.id = db.nextId ∧ chann.dlci = dlci ∧ chann.state = .idle ∧ chann.service = none ∧
      chann.l2cCid = 0 ∧ db'.serviceList = db.serviceList ∧ db'.nextId = db.nextId + 1 ∧
        db'.log = db.log ∧ db'.channList = db.channList ++ [chann] ∧ ∀ f : Chann → Chann,
          (db'.modify chann.id f).channList = db.channList ++ [f chann] := by
  obtain ⟨-, rfl, rfl⟩ := alloc_some h
  refine ⟨rfl, rfl, rfl, rfl, rfl, rfl, rfl, rfl, rfl, ?_⟩
  intro f
  unfold Db.modify Table.modify
  simp only [map_append, map_cons, map_nil, if_true]
  congr 1
  conv_rhs => rw [← map_id db.channList]
  apply map_congr_left
  intro c hc
  have := hfresh c hc
  exact if_neg (by omega)

theorem same_alloc_none (h : rfcAllocChann dlci db = (none, db')) : Same db db' := by
  obtain ⟨-, rfl⟩ := alloc_none h
  exact .of_channList rfl rfl rfl rfl

theorem inv_modify_data (hs : Inv db) (hc : c ∈ db.channList) (hk : k ∈ db.channList)
    (hkzero : k.dlci = 0) (hczero : c.dlci ≠ 0) (hid : (f c).id = c.id)
    (hservice : (f c).service = c.service) (hctrl : (f c).ctrlChann = some k.id)
    (hzero : (f c).dlci ≠ 0)
    (hfree : ∀ c' ∈ db.channList, c'.id ≠ c.id → c'.ctrlChann = some k.id → c'.dlci ≠ (f c).dlci) :
    Inv (db.modify c.id f) := by
  have hmem : ∀ c', c' ∈ (db.modify c.id f).channList ↔
      c' ∈ db.channList ∧ c'.id ≠ c.id ∨ c' = f c := by
    intro c'
    unfold Db.modify
    dsimp only
    rw [Table.mem_modify]
    constructor
    . rintro ⟨b, hb, rfl⟩
      split
      . next heq =>
        rw [Table.eq_of_key_eq hs.nodup hb hc heq]
        exact .inr rfl
      . next hne => exact .inl ⟨hb, hne⟩
    . rintro (⟨hc', hne⟩ | rfl)
      . exact ⟨c', hc', if_neg hne⟩
      . exact ⟨c, hc, if_pos rfl⟩
  have hkne : k.id ≠ c.id := by
    intro heq
    rw [Table.eq_of_key_eq hs.nodup hk hc heq] at hkzero
    exact hczero hkzero
  refine ⟨?_, ?_, ?_, ?_, ?_, ?_, ?_, ?_, hs.reads⟩
  . unfold Db.modify Table.modify
    dsimp only
    rw [map_map]
    have : (db.channList.map (Chann.id ∘ fun a => if a.id = c.id then f a else a)) =
        db.channList.map Chann.id := by
      apply map_congr_left
      intro b hb
      simp only [Function.comp]
      split
      . next heq => rw [Table.eq_of_key_eq hs.nodup hb hc heq, hid]
      . rfl
    rw [this]
    exact hs.nodup
  . intro c' hc'
    obtain ⟨hc', _⟩ | rfl := (hmem c').mp hc'
    . exact hs.fresh c' hc'
    . rw [hid]
      exact hs.fresh c hc
  . intro c' hc' hdlci
    obtain ⟨hc', _⟩ | rfl := (hmem c').mp hc'
    . exact hs.self c' hc' hdlci
    . exact absurd hdlci hzero
  . intro c' hc'
    obtain ⟨hc', _⟩ | rfl := (hmem c').mp hc'
    . obtain ⟨k', hk', hctrl', hdlci⟩ := hs.ctrl c' hc'
      refine ⟨k', (hmem k').mpr (.inl ⟨hk', ?_⟩), hctrl', hdlci⟩
      intro heq
      rw [Table.eq_of_key_eq hs.nodup hk' hc heq] at hdlci
      exact hczero hdlci
    . exact ⟨k, (hmem k).mpr (.inl ⟨hk, hkne⟩), hctrl, hkzero⟩
  . intro k1 hk1 k2 hk2 hzero1 hzero2
    obtain ⟨hk1, _⟩ | rfl := (hmem k1).mp hk1
    . obtain ⟨hk2, _⟩ | rfl := (hmem k2).mp hk2
      . exact hs.cids k1 hk1 k2 hk2 hzero1 hzero2
      . exact absurd hzero2 hzero
    . exact absurd hzero1 hzero
  . intro c1 hc1 c2 hc2 hctrl' hdlci
    obtain ⟨hc1, hne1⟩ | rfl := (hmem c1).mp hc1
    . obtain ⟨hc2, _⟩ | rfl := (hmem c2).mp hc2
      . exact hs.dlcis c1 hc1 c2 hc2 hctrl' hdlci
      . exact absurd hdlci (hfree c1 hc1 hne1 (by rw [hctrl', hctrl]))
    . obtain ⟨hc2, hne2⟩ | rfl := (hmem c2).mp hc2
      . exact absurd hdlci.symm (hfree c2 hc2 hne2 (by rw [← hctrl', hctrl]))
      . rfl
  . intro c' hc' hdlci
    obtain ⟨hc', _⟩ | rfl := (hmem c').mp hc'
    . exact hs.opened c' hc' hdlci
    . exact absurd hdlci hzero
  . intro c' hc'
    obtain ⟨hc', _⟩ | rfl := (hmem c').mp hc'
    . exact hs.services c' hc'
    . rw [hservice]
      exact hs.services c hc

theorem inv_relabel (hs : Inv db) {f : Chann → Chann} (hservices : db'.serviceList = db.serviceList)
    (hnext : db'.nextId = db.nextId) (hreads : db'.log.serviceReads = db.log.serviceReads)
    (hlist : db'.channList = db.channList.map f)
    (hf : ∀ c ∈ db.channList, (f c).id = c.id ∧ (f c).ctrlChann = c.ctrlChann ∧
      (f c).dlci = c.dlci ∧ ((f c).state = .opened → c.state = .opened))
    (hcids : ∀ k ∈ db.channList, ∀ k' ∈ db.channList, k.dlci = 0 → k'.dlci = 0 →
      (f k).l2cCid = (f k').l2cCid → k.id = k'.id)
    (hservice : ∀ c ∈ db.channList, ∀ s, (f c).service = some s →
      ∃ item ∈ db.serviceList, item.id = s) : Inv db' := by
  have hmem : ∀ c' ∈ db'.channList, ∃ c ∈ db.channList, f c = c' := by
    intro c' hc'
    rw [hlist] at hc'
    exact mem_map.mp hc'
  refine ⟨?_, ?_, ?_, ?_, ?_, ?_, ?_, ?_, ?_⟩
  . have hids : db'.channList.map Chann.id = db.channList.map Chann.id := by
      rw [hlist, map_map]
      apply map_congr_left
      intro c hc
      exact (hf c hc).1
    rw [hids]
    exact hs.nodup
  . intro c' hc'
    obtain ⟨c, hc, rfl⟩ := hmem c' hc'
    rw [(hf c hc).1, hnext]
    exact hs.fresh c hc
  . intro c' hc'
    obtain ⟨c, hc, rfl⟩ := hmem c' hc'
    rw [(hf c hc).1, (hf c hc).2.1, (hf c hc).2.2.1]
    exact hs.self c hc
  . intro c' hc'
    obtain ⟨c, hc, rfl⟩ := hmem c' hc'
    obtain ⟨k, hk, hctrl, hdlci⟩ := hs.ctrl c hc
    refine ⟨f k, ?_, ?_, ?_⟩
    . rw [hlist]
      exact mem_map_of_mem hk
    . rw [(hf c hc).2.1, (hf k hk).1, hctrl]
    . rw [(hf k hk).2.2.1, hdlci]
  . intro c1 hc1 c2 hc2 hzero1 hzero2 hcid
    obtain ⟨k1, hk1, rfl⟩ := hmem c1 hc1
    obtain ⟨k2, hk2, rfl⟩ := hmem c2 hc2
    rw [(hf k1 hk1).2.2.1] at hzero1
    rw [(hf k2 hk2).2.2.1] at hzero2
    rw [(hf k1 hk1).1, (hf k2 hk2).1]
    exact hcids k1 hk1 k2 hk2 hzero1 hzero2 hcid
  . intro c1 hc1 c2 hc2
    obtain ⟨k1, hk1, rfl⟩ := hmem c1 hc1
    obtain ⟨k2, hk2, rfl⟩ := hmem c2 hc2
    rw [(hf k1 hk1).1, (hf k2 hk2).1, (hf k1 hk1).2.1, (hf k2 hk2).2.1, (hf k1 hk1).2.2.1,
      (hf k2 hk2).2.2.1]
    exact hs.dlcis k1 hk1 k2 hk2
  . intro c' hc' hdlci hopened
    obtain ⟨c, hc, rfl⟩ := hmem c' hc'
    rw [(hf c hc).2.2.1] at hdlci
    exact hs.opened c hc hdlci ((hf c hc).2.2.2 hopened)
  . intro c' hc'
    obtain ⟨c, hc, rfl⟩ := hmem c' hc'
    rw [hservices]
    exact hservice c hc
  . rw [hreads, hservices]
    exact hs.reads

theorem inv_modify_cid (hs : Inv db) {k : Chann} (cid : Nat)
    (hfree : ∀ k' ∈ db.channList, k'.dlci = 0 → k'.l2cCid = cid → k'.id = k.id) :
    Inv (db.modify k.id fun chann => { chann with l2cCid := cid }) := by
  refine @inv_relabel _ (db.modify k.id fun chann => { chann with l2cCid := cid }) hs
    (fun c => if c.id = k.id then { c with l2cCid := cid } else c) rfl rfl rfl rfl ?_ ?_ ?_
  . intro c _
    split <;> exact ⟨rfl, rfl, rfl, fun h => h⟩
  . intro k1 hk1 k2 hk2 hzero1 hzero2 hcid
    split at hcid
    . next h1 =>
      split at hcid
      . next h2 => rw [h1, h2]
      . rw [h1]
        exact (hfree k2 hk2 hzero2 hcid.symm).symm
    . split at hcid
      . next h2 =>
        rw [h2]
        exact hfree k1 hk1 hzero1 hcid
      . exact hs.cids k1 hk1 k2 hk2 hzero1 hzero2 hcid
  . intro c hc
    split <;> exact hs.services c hc

theorem inv_modify_service (hs : Inv db) (id : Nat)
    (hf : ∀ c, (f c).id = c.id ∧ (f c).ctrlChann = c.ctrlChann ∧ (f c).dlci = c.dlci ∧
      (f c).l2cCid = c.l2cCid ∧ (f c).state = c.state)
    (hservice : ∀ c s, (f c).service = some s → ∃ item ∈ db.serviceList, item.id = s) :
    Inv (db.modify id f) := by
  refine @inv_relabel _ (db.modify id f) hs (fun c => if c.id = id then f c else c)
    rfl rfl rfl rfl ?_ ?_ ?_
  . intro c _
    split
    . obtain ⟨hid, hctrl, hdlci, _, hstate⟩ := hf c
      exact ⟨hid, hctrl, hdlci, by rw [hstate]; exact fun h => h⟩
    . exact ⟨rfl, rfl, rfl, fun h => h⟩
  . intro k1 hk1 k2 hk2 hzero1 hzero2 hcid
    have hkeep : ∀ c, (if c.id = id then f c else c).l2cCid = c.l2cCid := by
      intro c
      split
      . exact (hf c).2.2.2.1
      . rfl
    rw [hkeep, hkeep] at hcid
    exact hs.cids k1 hk1 k2 hk2 hzero1 hzero2 hcid
  . intro c hc
    split
    . exact hservice c
    . exact hs.services c hc

theorem inv_nextId (hs : Inv db) (hservices : db'.serviceList = db.serviceList)
    (hnext : db.nextId ≤ db'.nextId) (hreads : db'.log.serviceReads = db.log.serviceReads)
    (hlist : db'.channList = db.channList) : Inv db' where
  nodup := by rw [hlist]; exact hs.nodup
  fresh := by
    intro c hc
    rw [hlist] at hc
    have := hs.fresh c hc
    omega
  self := by rw [hlist]; exact hs.self
  ctrl := by rw [hlist]; exact hs.ctrl
  cids := by rw [hlist]; exact hs.cids
  dlcis := by rw [hlist]; exact hs.dlcis
  opened := by rw [hlist]; exact hs.opened
  services := by rw [hlist, hservices]; exact hs.services
  reads := by rw [hreads, hservices]; exact hs.reads

end

end Rfc
