import Earphone.Rfc.ChannTable

namespace Rfc

open List

variable {db : Db}

structure Db.Distinct (db : Db) : Prop where
  nodup : (db.channList.map Chann.id).Nodup
  fresh : ∀ c ∈ db.channList, c.id < db.nextId

instance (db : Db) : Decidable db.Distinct :=
  decidable_of_iff ((db.channList.map Chann.id).Nodup ∧ ∀ c ∈ db.channList, c.id < db.nextId)
    ⟨fun ⟨h, h'⟩ => ⟨h, h'⟩, fun ⟨h, h'⟩ => ⟨h, h'⟩⟩

theorem Db.Distinct.chann (h : db.Distinct) (hc : c ∈ db.channList) : db.chann c.id = c := by
  unfold Db.chann
  rw [Table.find?_of_mem h.nodup hc]
  rfl

def Chann.config (c : Chann) : DlciState × Nat × Nat × Nat × Nat × Nat × Nat :=
  (c.state, c.dlci, c.convergenceLayer, c.frameSize, c.initCredits, c.remoteRemainCredits,
    c.givenCredits)

structure PnKept (ctrl chann : Chann) (tcr : Bool) (db db' : Db) : Prop where
  config : (db'.chann chann.id).config = chann.config
  answer : tcr = true → db'.log.sent =
    (rfcSendUih ctrl rfcTypePn false (rfcEncodePn chann) rfcSizePn db).log.sent

def ids (db : Db) : List Nat := db.channList.map Chann.id

theorem ids_modify (id : Nat) (hf : ∀ c, (f c).id = c.id) :
    ids (db.modify id f) = ids db := Table.keys_modify _ _ hf

theorem ids_rfcDecodePn (id : Nat) (ind : DataInd) (p len : Nat) :
    ids (rfcDecodePn id ind p len db) = ids db := by
  have hread : ∀ (db : Db) offsets, ids (db.read ind offsets) = ids db := fun _ _ => rfl
  unfold rfcDecodePn
  split
  . dsimp only
    split
    . rw [ids_modify, hread, ids_modify, hread] <;> exact fun _ => rfl
    . rw [ids_modify, hread]
      exact fun _ => rfl
  . rfl

theorem ids_limitFrameSize (id : Nat) : ids (limitFrameSize id db) = ids db := by
  unfold limitFrameSize
  dsimp only
  split
  . exact ids_modify id fun _ => rfl
  . rfl

theorem chann_modify_self {id : Nat} (h : id ∈ ids db) {f : Chann → Chann}
    (hf : ∀ c, (f c).id = c.id) : (db.modify id f).chann id = f (db.chann id) := by
  obtain ⟨c, hc, rfl⟩ := mem_map.mp h
  unfold Db.chann Db.modify
  rw [Table.find?_modify _ _ _ hf]
  cases hfind : Table.find? Chann.id db.channList c.id with
  | none =>
    exact absurd (find?_eq_none.mp hfind c hc) (by simp)
  | some c' => simp [(Table.mem_of_find? hfind).2]

theorem state_handlePnCommand {ctrl chann : Chann} (hmem : chann.id ∈ ids db)
    (hstate : chann.state = .connected) (ind : DataInd) (p len : Nat) :
    ((handlePnCommand ctrl chann true ind p len db).chann chann.id).state = .configIncoming := by
  unfold handlePnCommand
  rw [hstate, if_pos (by decide)]
  generalize hdb1 : (rfcDecodePn chann.id ind p len db).modify chann.id _ = db₁
  have hids : chann.id ∈ ids (limitFrameSize chann.id db₁) := by
    rw [ids_limitFrameSize, ← hdb1, ids_modify, ids_rfcDecodePn]
    . exact hmem
    . intro c
      split <;> rfl
  have hmodify := @chann_modify_self _ _ hids
    (fun chann => { chann with state := .configIncoming }) (fun _ => rfl)
  calc _ = (((limitFrameSize chann.id db₁).modify chann.id
        fun chann => { chann with state := .configIncoming }).chann chann.id).state := rfl
    _ = .configIncoming := by rw [hmodify]

theorem rfcHandlePn_command (hfind : rfcFindChannByDlci (ind.octet p) ctrl.l2cCid db = some chann) :
    rfcHandlePn ctrl true ind p len db =
      handlePnCommand ctrl chann true ind p len (db.read ind [p]) := by
  have hread : rfcFindChannByDlci (ind.octet p) ctrl.l2cCid (db.read ind [p]) = some chann := hfind
  unfold rfcHandlePn
  dsimp only
  rw [hread]

theorem rfcHandlePn_response
    (hfind : rfcFindChannByDlci (ind.octet p) ctrl.l2cCid db = some chann) :
    rfcHandlePn ctrl false ind p len db = handlePnResponse chann ind p len (db.read ind [p]) := by
  have hread : rfcFindChannByDlci (ind.octet p) ctrl.l2cCid (db.read ind [p]) = some chann := hfind
  unfold rfcHandlePn
  dsimp only
  rw [hread]

theorem pnKept_iff (h : db.Distinct) {ctrl chann : Chann} (tcr : Bool) (ind : DataInd) (p len : Nat)
    (hfind : rfcFindChannByDlci (ind.octet p) ctrl.l2cCid db = some chann)
    (hstate : chann.state = .connected) :
    PnKept ctrl chann tcr db (rfcHandlePn ctrl tcr ind p len db) ↔ tcr = false := by
  obtain ⟨hmem, -, -⟩ := mem_of_findByDlci hfind
  cases tcr with
  | true =>
    refine iff_of_false (fun hkept => ?_) (by decide)
    have hconfig := congrArg Prod.fst hkept.config
    rw [rfcHandlePn_command hfind] at hconfig
    -- the command is decoded into the channel, whose state falls back
    have hincoming := @state_handlePnCommand (db.read ind [p]) ctrl chann
      (mem_map_of_mem hmem) hstate ind p len
    have := hincoming.symm.trans (hconfig.trans hstate)
    cases this
  | false =>
    refine iff_of_true ⟨?_, fun htcr => by cases htcr⟩ rfl
    rw [rfcHandlePn_response hfind, handlePnResponse, if_neg (fun hne => hne hstate)]
    have hchann : (db.read ind [p]).chann chann.id = db.chann chann.id := rfl
    rw [hchann, h.chann hmem]

def pnInd : DataInd where
  cid := 64
  length := 8
  gap := 0
  data := fun i => [0x02, 0xF0, 0x00, 0x00, 0x40, 0x00, 0x00, 0x07].getD i 0
  length_lt := by decide

def openDb : Db where
  serviceList := [{ id := 0, localServerChann := 1, serviceId := 0 }]
  channList := [
    { id := 0, ctrlChann := some 0, l2cCid := 64, mtuSize := 1000, state := .connected
      linkState := .connected },
    { id := 1, ctrlChann := some 0, service := some 0, dlci := 2, state := .connected
      convergenceLayer := rfcConvergenceCreditCfm, frameSize := 127 }]
  nextId := 2

theorem pnKept_response :
    PnKept (openDb.chann 0) (openDb.chann 1) false openDb
      (rfcHandlePn (openDb.chann 0) false pnInd 0 8 openDb) :=
  (pnKept_iff (by decide) false pnInd 0 8 (by decide) (by decide)).mpr rfl

theorem not_pnKept :
    ¬∀ (db : Db) (ctrl chann : Chann) (tcr : Bool) (ind : DataInd) (p len : Nat), db.Distinct →
      rfcFindChannByDlci (ind.octet p) ctrl.l2cCid db = some chann → chann.state = .connected →
        PnKept ctrl chann tcr db (rfcHandlePn ctrl tcr ind p len db) := by
  intro h
  have hkept := h openDb (openDb.chann 0) (openDb.chann 1) true pnInd 0 8 (by decide) (by decide)
    (by decide)
  exact absurd hkept.config (by decide)

section

variable {bdAddr serverChann : Nat}

def ConnReqStale (bdAddr serverChann : Nat) (db : Db) : Prop :=
  ∃ ctrl, rfcFindChannByAddr bdAddr 0 db = some ctrl ∧ ctrl.linkState = .connected ∧
    ctrl.state = .disconnecting ∧
      rfcFindChannByAddr bdAddr (connReqDlci ctrl serverChann) db = none ∧
        db.allocs.headD true = true

theorem erase_append (h : db.Distinct) (hid : c.id = db.nextId) :
    Table.erase Chann.id (db.channList ++ [c]) db.nextId = db.channList := by
  unfold Table.erase
  rw [filter_append, filter_eq_self.mpr, filter_cons_of_neg (by simp [hid])]
  . exact append_nil _
  . intro c' hc'
    have := h.fresh c' hc'
    simp only [ne_eq, decide_not, Bool.not_eq_eq_eq_not, Bool.not_true, decide_eq_false_iff_not]
    omega

theorem rfcAllocChann_none (h : db.allocs.headD true = false) :
    rfcAllocChann dlci db = (none, { db with allocs := db.allocs.tail }) := by
  unfold rfcAllocChann
  rw [h]
  rfl

theorem rfcAllocChann_some (dlci : Nat) (h : db.allocs.headD true = true) :
    ∃ data db', rfcAllocChann dlci db = (some data, db') := by
  unfold rfcAllocChann
  rw [if_pos h]
  exact ⟨_, _, rfl⟩

theorem rfcAllocChann_linkState
    (h : rfcAllocChann dlci db = (some c, db')) : c.linkState = .idle := by
  obtain ⟨-, rfl, -⟩ := alloc_some h
  rfl

theorem chann_of_append {db' : Db} {c data : Chann}
    (hlist : db'.channList = db.channList ++ [data]) (hchann : db.chann c.id = c)
    (hmem : c ∈ db.channList) : db'.chann c.id = c := by
  unfold Db.chann Table.find? at *
  rw [hlist, find?_append]
  cases hfind : db.channList.find? (Chann.id · = c.id) with
  | none => exact absurd (find?_eq_none.mp hfind c hmem) (by simp)
  | some c' =>
    rw [hfind] at hchann
    exact hchann

def Restores (db : Db) (r : Db × Bool) : Prop := r.2 = false → r.1.channList = db.channList

def connReqData (bdAddr serverChann serviceId frameSize maxCredits ctrlId : Nat) (newControl : Bool)
    (db : Db) : Db × Bool :=
  let dropNew := fun db : Db =>
    if newControl then rfcFreeChann (db.chann ctrlId) rfcErrInvalidState db else db
  let dlci := connReqDlci (db.chann ctrlId) serverChann
  match rfcFindChannByAddr bdAddr dlci db with
  | some _ => (dropNew db, false)
  | none =>
    match rfcAllocChann dlci db with
    | (none, db) => (dropNew db, false)
    | (some data, db) =>
      let service := (db.serviceList.find? (·.serviceId = serviceId)).map (·.id)
      let db := db.modify data.id fun chann =>
        { rfcInitCredits maxCredits chann with
          ctrlChann := some ctrlId
          service := service
          state := .opened
          frameSize := if frameSize = 0 then rfcDefaultMtu else frameSize }
      connReqLink bdAddr ctrlId data.id service db

theorem rfcConnReq_eq (bdAddr serverChann serviceId frameSize maxCredits : Nat) (db : Db) :
    rfcConnReq bdAddr serverChann serviceId frameSize maxCredits db =
      match connReqCtrl bdAddr db with
      | (none, db) => (db, false)
      | (some (ctrlId, newControl), db) =>
        connReqData bdAddr serverChann serviceId frameSize maxCredits ctrlId newControl db := rfl

variable {serviceId frameSize maxCredits : Nat}

theorem rfcInitCredits_id (credits : Nat) (chann : Chann) :
    (rfcInitCredits credits chann).id = chann.id := by
  unfold rfcInitCredits
  split <;> rfl

theorem connReqLink_restores (h : db.Distinct)
    (hctrl : ctrl ∈ db.channList) (hid : data.id = db.nextId)
    (hlist : db'.channList = db.channList ++ [data]) (service : Option Nat) :
    Restores db (connReqLink bdAddr ctrl.id db.nextId service db') ↔
      ¬(ctrl.linkState = .connected ∧ ctrl.state = .disconnecting) := by
  have hchann : db'.chann ctrl.id = ctrl := chann_of_append hlist (h.chann hctrl) hctrl
  unfold connReqLink Restores
  dsimp only
  rw [hchann]
  cases hlink : ctrl.linkState with
  | connected =>
    cases hstate : ctrl.state with
    | disconnecting =>
      simp only [and_self, not_true, iff_false, true_implies, hlist]
      intro heq
      have := congrArg List.length heq
      simp at this
    | _ => simp
  | disconnecting =>
    simp only [true_implies, hlist, erase_append h hid]
    simp
  | _ => simp

theorem connReqLink_idle (h : (db.chann ctrlId).linkState = .idle) :
    (connReqLink bdAddr ctrlId dataId service db).2 = true := by
  unfold connReqLink
  dsimp only
  rw [h]

theorem connReqData_restores (h : db.Distinct) (hctrl : ctrl ∈ db.channList) :
    Restores db (connReqData bdAddr serverChann serviceId frameSize maxCredits ctrl.id false db) ↔
      ¬(ctrl.linkState = .connected ∧ ctrl.state = .disconnecting ∧
        rfcFindChannByAddr bdAddr (connReqDlci ctrl serverChann) db = none ∧
          db.allocs.headD true = true) := by
  unfold connReqData
  dsimp only
  rw [h.chann hctrl]
  cases hdata : rfcFindChannByAddr bdAddr (connReqDlci ctrl serverChann) db with
  | some c => exact iff_of_true (fun _ => rfl) (fun ⟨_, _, hnone, _⟩ => by cases hnone)
  | none =>
    cases halloc : db.allocs.headD true with
    | false =>
      rw [rfcAllocChann_none halloc]
      exact iff_of_true (fun _ => rfl) (fun ⟨_, _, _, hyes⟩ => by cases hyes)
    | true =>
      obtain ⟨data, db₁, hsome⟩ := rfcAllocChann_some (connReqDlci ctrl serverChann) halloc
      obtain ⟨hid, -, -, -, -, -, -, -, -, hmodify⟩ := alloc_modify h.fresh hsome
      rw [hsome]
      dsimp only
      generalize hf : (fun chann : Chann =>
        ({ rfcInitCredits maxCredits chann with
          ctrlChann := some ctrl.id
          service := (db₁.serviceList.find? (·.serviceId = serviceId)).map (·.id)
          state := .opened
          frameSize := if frameSize = 0 then rfcDefaultMtu else frameSize } : Chann)) = f
      have hfid : (f data).id = db.nextId := by
        rw [← hf, ← hid]
        exact rfcInitCredits_id ..
      rw [hid, connReqLink_restores h hctrl hfid (by rw [← hid]; exact hmodify f)]
      simp

theorem connReqData_new (h : db.Distinct) {db₁ : Db} {ctrl : Chann} (hid : ctrl.id = db.nextId)
    (hlist : db₁.channList = db.channList ++ [ctrl]) (hnext : db₁.nextId = db.nextId + 1)
    (hlink : ctrl.linkState = .idle) :
    Restores db (connReqData bdAddr serverChann serviceId frameSize maxCredits ctrl.id true db₁) := by
  have hne : ∀ c ∈ db.channList, c.id ≠ ctrl.id := fun c hc => by
    have := h.fresh c hc
    omega
  have hdistinct : db₁.Distinct := by
    refine ⟨?_, ?_⟩
    . rw [hlist, map_append, nodup_append]
      refine ⟨h.nodup, nodup_singleton _, fun a ha b hb => ?_⟩
      obtain ⟨c, hc, rfl⟩ := mem_map.mp ha
      rw [mem_singleton.mp hb]
      exact hne c hc
    . intro c hc
      rw [hlist, mem_append, mem_singleton] at hc
      rw [hnext]
      obtain hc | rfl := hc
      . have := h.fresh c hc
        omega
      . omega
  have hmem : ctrl ∈ db₁.channList := by simp [hlist]
  -- the control channel is the last of the table, so freeing it gives back the old one
  have hdrop : ∀ db2 : Db, db2.channList = db₁.channList →
      (rfcFreeChann (db2.chann ctrl.id) rfcErrInvalidState db2).channList = db.channList := by
    intro db2 heq
    rw [(rfcFreeChann_eq ..).1, chann_congr heq, hdistinct.chann hmem, heq, hlist, hid]
    exact erase_append h hid
  unfold connReqData
  dsimp only
  cases rfcFindChannByAddr bdAddr (connReqDlci (db₁.chann ctrl.id) serverChann) db₁ with
  | some c => exact fun _ => hdrop db₁ rfl
  | none =>
    cases halloc : db₁.allocs.headD true with
    | false =>
      rw [rfcAllocChann_none halloc]
      exact fun _ => hdrop _ rfl
    | true =>
      obtain ⟨data, db2, hsome⟩ := rfcAllocChann_some (connReqDlci (db₁.chann ctrl.id) serverChann)
        halloc
      obtain ⟨-, -, -, -, -, -, -, -, -, hmodify⟩ := alloc_modify hdistinct.fresh hsome
      rw [hsome]
      -- on a new control channel the link is idle, and the request is not refused
      intro hfalse
      rw [connReqLink_idle] at hfalse
      . cases hfalse
      . rw [chann_of_append (hmodify _) (hdistinct.chann hmem) hmem]
        exact hlink

theorem rfcConnReq_restores_iff (h : db.Distinct) (bdAddr serverChann serviceId frameSize
    maxCredits : Nat) :
    Restores db (rfcConnReq bdAddr serverChann serviceId frameSize maxCredits db) ↔
      ¬ConnReqStale bdAddr serverChann db := by
  rw [rfcConnReq_eq]
  unfold connReqCtrl ConnReqStale
  cases hfind : rfcFindChannByAddr bdAddr 0 db with
  | some ctrl =>
    obtain ⟨hmem, -, -⟩ := mem_of_findByAddr hfind
    simpa using connReqData_restores h hmem
  | none =>
    refine iff_of_true ?_ (by simp)
    cases halloc : db.allocs.headD true with
    | false =>
      rw [rfcAllocChann_none halloc]
      exact fun _ => rfl
    | true =>
      obtain ⟨ctrl, db₁, hsome⟩ := rfcAllocChann_some 0 halloc
      obtain ⟨hid, -, -, -, -, -, hnext, -, -, hmodify⟩ := alloc_modify h.fresh hsome
      have hlink : ctrl.linkState = .idle := rfcAllocChann_linkState hsome
      rw [hsome]
      exact @connReqData_new db bdAddr serverChann serviceId frameSize maxCredits h _
        { ctrl with ctrlChann := some ctrl.id, bdAddr := bdAddr } hid (hmodify _) hnext hlink

def linkDb (state : DlciState) : Db where
  serviceList := [{ id := 0, localServerChann := 1, serviceId := 0 }]
  channList := [
    { id := 0, ctrlChann := some 0, l2cCid := 64, mtuSize := 1000, bdAddr := 5, state := state
      initiator := true, linkState := .connected }]
  nextId := 1

theorem rfcConnReq_restores_connecting :
    Restores (linkDb .connecting) (rfcConnReq 5 1 0 0 7 (linkDb .connecting)) :=
  (rfcConnReq_restores_iff (by decide) 5 1 0 0 7).mpr fun ⟨_, hfind, _, hstate, _⟩ => by
    rw [Option.some.inj hfind.symm] at hstate
    exact absurd hstate (by decide)

theorem not_rfcConnReq_restores :
    ¬∀ (db : Db) (bdAddr serverChann serviceId frameSize maxCredits : Nat), db.Distinct →
      Restores db (rfcConnReq bdAddr serverChann serviceId frameSize maxCredits db) := by
  intro h
  exact absurd (h (linkDb .disconnecting) 5 1 0 0 7 (by decide) (by decide)) (by decide)

end

end Rfc
