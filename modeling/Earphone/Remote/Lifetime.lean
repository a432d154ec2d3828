import Earphone.Remote.Relay
import Mathlib.Data.List.Nodup

namespace Remote

open List

def remoteRelayRegister (handle : Nat) (alloc : Bool) (db : Db) : Db :=
  if alloc then
    { db with
      channId := u8 (db.channId + 1)
      channList := db.channList ++
        [{ handle := handle, channId := db.channId, timerIndex := 0, timerQueue := [] }] }
  else
    db

def remoteRelayUnregister (handle : Nat) (db : Db) : Db :=
  match channCheck handle db with
  | none => db
  | some _ => { db with channList := db.channList.filter (·.handle ≠ handle) }

structure Completion where
  handle : Nat
  pos : Nat
  event : Nat
  status : RelayStatus
  param : List Nat

def RemoteTimer.matches (timerType : TimerType) (timerIndex event : Nat) (t : RemoteTimer) : Bool :=
  t.timerType = timerType && t.timerIndex = timerIndex && t.event = event

def remoteRelayTimerCback (timerType : TimerType) (channId timerIndex event : Nat) (db : Db) :
    Db × Option Completion :=
  match channFind channId db with
  | none => (db, none)
  | some chann =>
    match chann.timerQueue.findIdx? (RemoteTimer.matches timerType timerIndex event) with
    | none => (db, none)
    | some pos =>
      (setTimers chann.handle chann.timerIndex (chann.timerQueue.eraseIdx pos) db,
        chann.timerQueue[pos]?.map fun t => ⟨chann.handle, pos, t.event, .syncTout, t.param⟩)

def sessionDisconnected (db : Db) : Option Db :=
  if db.relayQueue.all fun msg => (channFind msg.cid db).isSome then some (ipcDisconnected db)
  else none

structure Expiry where
  handle : Nat
  pos : Nat
  timer : RemoteTimer
  completed : Option Completion

structure World where
  db : Db
  owner : Nat → Nat
  nextHandle : Nat
  expiries : List Expiry

def World.initial : World where
  db := initialDb []
  owner := fun _ => 0
  nextHandle := 0
  expiries := []

inductive LifeEvent where
  | register (alloc : Bool)
  | unregister (handle : Nat)
  | asyncRelay (handle event : Nat) (param : List Nat) (loopback : Bool) (env : Env)
  | syncRelay (handle event : Nat) (param : List Nat) (timerType : TimerType) (timerPeriod : Nat)
    (loopback : Bool) (env : Env)
  | dataInd (msg : RelayMsg) (env : IndEnv)
  | dataRsp (mode : Option SessionMode) (attempts : List Attempt)
  | retransTimer (mode : Option SessionMode) (attempts : List Attempt)
  | pm (event : PmEvent) (mode : Option SessionMode) (attempts : List Attempt)
  | timerExpired (handle pos : Nat)
  | connected
  | disconnected

namespace World

def goOn (w : World) (handle : Nat) (db : Db) : World :=
  { w with
    db := { db with out := [] }
    owner := Function.update w.owner w.db.nextId handle }

def timerAt (w : World) (handle pos : Nat) : Option (Chann × RemoteTimer) := do
  let chann ← channCheck handle w.db
  let timer ← chann.timerQueue[pos]?
  return (chann, timer)

def step (w : World) : LifeEvent → Option World
  | .register alloc =>
    some { w with
      db := remoteRelayRegister w.nextHandle alloc w.db
      nextHandle := w.nextHandle + 1 }
  | .unregister handle => some { w with db := remoteRelayUnregister handle w.db }
  | .asyncRelay handle event param loopback env =>
    some (w.goOn handle (remoteAsyncMsgRelay handle event param loopback env w.db).1)
  | .syncRelay handle event param timerType timerPeriod loopback env =>
    some (w.goOn handle
      (remoteSyncMsgRelay handle event param timerType timerPeriod loopback env w.db).1)
  | .dataInd msg env =>
    some (w.goOn (((channFind msg.cid w.db).map (·.handle)).getD 0)
      (remoteRelayDataInd msg env w.db))
  | .dataRsp mode attempts => some (w.goOn 0 (remoteRelayDataRsp mode attempts w.db))
  | .retransTimer mode attempts => some (w.goOn 0 (remoteRetransTimerCback mode attempts w.db))
  | .pm event mode attempts => some (w.goOn 0 (remoteBtPmCback event mode attempts w.db).1)
  | .timerExpired handle pos =>
    match w.timerAt handle pos with
    | none => some w
    | some (chann, timer) =>
      let (db, completed) := remoteRelayTimerCback timer.timerType chann.channId timer.timerIndex
        timer.event w.db
      some { w with db := db, expiries := w.expiries ++ [⟨handle, pos, timer, completed⟩] }
  | .connected => some { w with db := ipcConnected w.db }
  | .disconnected => (sessionDisconnected w.db).map fun db => { w with db := db }

def stepOk (w : Option World) (e : LifeEvent) : Option World := w.bind fun w => w.step e

def FirstOfItsKind (w : World) (handle pos : Nat) : Prop :=
  ∀ p ∈ w.timerAt handle pos, ∀ t ∈ p.1.timerQueue.take pos,
    RemoteTimer.matches p.2.timerType p.2.timerIndex p.2.event t = false

instance (w : World) (handle pos : Nat) : Decidable (w.FirstOfItsKind handle pos) :=
  match h : w.timerAt handle pos with
  | none => .isTrue fun p hp => by rw [h] at hp; cases hp
  | some q =>
    decidable_of_iff (∀ t ∈ q.1.timerQueue.take pos,
        RemoteTimer.matches q.2.timerType q.2.timerIndex q.2.event t = false) <| by
      unfold FirstOfItsKind
      rw [h]
      constructor
      . rintro hall p ⟨⟩
        exact hall
      . exact fun hall => hall q rfl

def Meets (w : World) : LifeEvent → Prop
  | .register alloc => alloc = true → (∀ c ∈ w.db.channList, c.channId ≠ w.db.channId) ∧
      ∀ msg ∈ w.db.relayQueue, msg.cid ≠ w.db.channId
  | .timerExpired handle pos => w.FirstOfItsKind handle pos
  | .disconnected => ∀ msg ∈ w.db.relayQueue, (channFind msg.cid w.db).isSome = true
  | _ => True

instance (w : World) : (e : LifeEvent) → Decidable (w.Meets e)
  | .register _ => inferInstanceAs (Decidable (_ → _ ∧ _))
  | .timerExpired .. => inferInstanceAs (Decidable (w.FirstOfItsKind ..))
  | .disconnected => inferInstanceAs (Decidable (∀ msg ∈ w.db.relayQueue, _))
  | .unregister _ | .asyncRelay .. | .syncRelay .. | .dataInd .. | .dataRsp .. | .retransTimer ..
  | .pm .. | .connected => .isTrue trivial

structure Sound (w : World) : Prop where
  handles : (w.db.channList.map (·.handle)).Nodup
  handles_lt : ∀ c ∈ w.db.channList, c.handle < w.nextHandle
  channIds : (w.db.channList.map (·.channId)).Nodup
  resolves : ∀ msg ∈ w.db.relayQueue, ∀ c ∈ w.db.channList, c.channId = msg.cid →
    c.handle = w.owner msg.id
  ids_lt : ∀ msg ∈ w.db.relayQueue, msg.id < w.db.nextId
  credits : w.db.credits ≤ remoteMsgCredits
  out : w.db.out = []
  completed : ∀ e ∈ w.expiries,
    e.completed = some ⟨e.handle, e.pos, e.timer.event, .syncTout, e.timer.param⟩

def timersAfter (c : Chann) : LifeEvent → List RemoteTimer
  | .timerExpired handle pos =>
    if handle = c.handle then c.timerQueue.eraseIdx pos else c.timerQueue
  | _ => c.timerQueue

def Keeps (w w' : World) (e : LifeEvent) : Prop :=
  ∀ c ∈ w.db.channList, (∀ handle, e = .unregister handle → handle ≠ c.handle) →
    ∃ c' ∈ w'.db.channList, c'.handle = c.handle ∧ c'.channId = c.channId ∧
      timersAfter c e <+: c'.timerQueue

end World

structure Grows (db db' : Db) : Prop where
  channs : List.Forall₂ (fun c c' : Chann => c'.handle = c.handle ∧ c'.channId = c.channId ∧
    c.timerQueue <+: c'.timerQueue) db.channList db'.channList
  credits : db'.credits ≤ db.credits

def Handles (db : Db) : Prop := (db.channList.map (·.handle)).Nodup

theorem forall₂_refl {α : Type} {r : α → α → Prop} (h : ∀ a, r a a) (l : List α) :
    List.Forall₂ r l l := by
  induction l with
  | nil => exact .nil
  | cons a l ih => exact .cons (h a) ih

theorem Grows.of_eq {db db' : Db} (hchann : db'.channList = db.channList)
    (hcredits : db'.credits ≤ db.credits) : Grows db db' :=
  ⟨hchann ▸ forall₂_refl (fun _ => ⟨rfl, rfl, prefix_rfl⟩) _, hcredits⟩

theorem Grows.refl (db : Db) : Grows db db := .of_eq rfl (Nat.le_refl _)

theorem Grows.trans (h : Grows db₁ db2) (h' : Grows db2 db3) : Grows db₁ db3 := by
  refine ⟨?_, Nat.le_trans h'.credits h.credits⟩
  have hchanns := h.channs
  have hchanns' := h'.channs
  generalize db₁.channList = l₁ at *
  generalize db2.channList = l₂ at *
  generalize db3.channList = l3 at *
  induction hchanns generalizing l3 with
  | nil =>
    cases hchanns'
    exact .nil
  | cons hc _ ih =>
    cases hchanns' with
    | cons hc' hrest =>
      exact .cons ⟨hc'.1.trans hc.1, hc'.2.1.trans hc.2.1, hc.2.2.trans hc'.2.2⟩ (ih _ hrest)

theorem map_eq_of_forall₂ (h : List.Forall₂ r l l') (hf : ∀ c c', r c c' → f c' = f c) :
    l'.map f = l.map f := by
  induction h with
  | nil => rfl
  | cons hc _ ih => rw [map_cons, map_cons, hf _ _ hc, ih]

theorem Grows.handles {db db' : Db} (h : Grows db db') (hdb : Handles db) : Handles db' := by
  unfold Handles at hdb ⊢
  rwa [map_eq_of_forall₂ h.channs fun _ _ hc => hc.1]

theorem eq_of_handle (hdb : Handles db) (hc : c ∈ db.channList)
    (hc' : c' ∈ db.channList) (h : c.handle = c'.handle) : c = c' :=
  inj_on_of_nodup_map hdb hc hc' h

theorem grows_setTimers (hdb : Handles db) (hmem : chann ∈ db.channList)
    (timerIndex : Nat) (h : chann.timerQueue <+: timers) :
    Grows db (setTimers chann.handle timerIndex timers db) := by
  refine ⟨?_, Nat.le_refl _⟩
  have hall : ∀ c ∈ db.channList, c.handle = chann.handle → c.timerQueue <+: timers := by
    intro c hc heq
    rw [eq_of_handle hdb hc hmem heq]
    exact h
  unfold setTimers
  dsimp only
  -- channel by channel: the one with the handle gets the timers, the others are kept
  generalize db.channList = l at hall
  induction l with
  | nil => exact .nil
  | cons c l ih =>
    rw [forall_mem_cons] at hall
    refine .cons ?_ (ih hall.2)
    dsimp only
    split
    . next heq => exact ⟨rfl, rfl, hall.1 heq⟩
    . exact ⟨rfl, rfl, prefix_rfl⟩

theorem grows_queueTimer (hdb : Handles db)
    (hmem : chann ∈ db.channList) (msg : RelayMsg) (timeOffset : Nat) (alloc : TimerAlloc) :
    Grows db (queueTimer msg timeOffset alloc chann db) := by
  unfold queueTimer
  dsimp only
  split
  . split
    . exact grows_setTimers hdb hmem _ prefix_rfl
    . exact grows_setTimers hdb hmem _ (prefix_append ..)
  . exact .refl db

theorem grows_cback (cid : Nat) (status : RelayStatus) (msg : RelayMsg) (db : Db) :
    Grows db (cback cid status msg db) := .of_eq rfl (Nat.le_refl _)

theorem mem_of_channFind (h : channFind channId db = some chann) : chann ∈ db.channList :=
  mem_of_find?_eq_some h

theorem grows_msgSentOut (hdb : Handles db) (msg : RelayMsg) (attempt : Attempt) :
    Grows db (msgSentOut msg attempt db) := by
  unfold msgSentOut
  split
  . exact .refl db
  . next chann hchann =>
    dsimp only
    refine Grows.trans ?_ (grows_cback _ _ _ _)
    split
    . exact grows_queueTimer hdb (mem_of_channFind hchann) _ _ _
    . exact .refl db

theorem grows_msgDequeueLoop (queue : List RelayMsg) (attempts : List Attempt)
    (hdb : Handles db) : Grows db (msgDequeueLoop db queue attempts) := by
  induction queue generalizing db attempts with
  | nil => exact .of_eq rfl (Nat.le_refl _)
  | cons msg queue ih =>
    unfold msgDequeueLoop
    split
    . exact .of_eq rfl (Nat.le_refl _)
    . split
      . exact .of_eq rfl (Nat.le_refl _)
      . next attempt attempts =>
        dsimp only
        -- the stamp changes times only
        generalize (if msg.relayType = .sync then stamp msg attempt.clk else msg) = msg'
        split
        . have hsent : Grows db { db with credits := db.credits - 1, out := db.out ++ [msg'] } :=
            .of_eq rfl (Nat.sub_le ..)
          have hout := hsent.trans (grows_msgSentOut (hsent.handles hdb) msg' attempt)
          exact hout.trans (ih attempts (hout.handles hdb))
        . exact .of_eq rfl (Nat.le_refl _)

theorem grows_remoteMsgDequeue (mode : Option SessionMode) (attempts : List Attempt) {db : Db}
    (hdb : Handles db) : Grows db (remoteMsgDequeue mode attempts db) := by
  unfold remoteMsgDequeue
  split
  . exact grows_msgDequeueLoop _ _ hdb
  . exact .refl db

theorem grows_remoteMsgSend (msg : RelayMsg) (env : Env) (hdb : Handles db) :
    Grows db (remoteMsgSend msg env db).1 := by
  unfold remoteMsgSend
  split
  . exact .refl db
  . have hqueued : Grows db { db with
        relayQueue := db.relayQueue ++ [{ msg with id := db.nextId }]
        nextId := db.nextId + 1
        accepted := db.accepted ++ [db.nextId] } := .of_eq rfl (Nat.le_refl _)
    exact hqueued.trans (grows_remoteMsgDequeue _ _ (hqueued.handles hdb))

def Sent (handle : Nat) (db db' : Db) : Prop :=
  db' = db ∨ ∃ chann msg env, channCheck handle db = some chann ∧ msg.cid = chann.channId ∧
    db' = (remoteMsgSend msg env (nextTxSeq db)).1

theorem sent_remoteAsyncMsgRelay (handle event : Nat) (param : List Nat) (loopback : Bool)
    (env : Env) (db : Db) :
    Sent handle db (remoteAsyncMsgRelay handle event param loopback env db).1 := by
  unfold remoteAsyncMsgRelay
  split
  . exact .inl rfl
  . split
    . exact .inl rfl
    . next chann hchann => exact .inr ⟨chann, _, env, hchann, rfl, rfl⟩

theorem sent_remoteSyncMsgRelay (handle event : Nat) (param : List Nat) (timerType : TimerType)
    (timerPeriod : Nat) (loopback : Bool) (env : Env) (db : Db) :
    Sent handle db
      (remoteSyncMsgRelay handle event param timerType timerPeriod loopback env db).1 := by
  unfold remoteSyncMsgRelay
  split
  . exact .inl rfl
  . split
    . exact .inl rfl
    . next chann hchann =>
      dsimp only
      split
      . exact .inl rfl
      . refine .inr ⟨chann, _, env, hchann, ?_, rfl⟩
        cases loopback <;> rfl

theorem handle_of_channCheck (h : channCheck handle db = some chann) : chann.handle = handle := by
  simpa using find?_some h

structure Queues (handle : Nat) (db db' : Db) : Prop where
  grows : Grows db db'
  relayed : ∃ new, Relayed db db' new ∧ (new = [] ∨ ∃ msg, new = [msg] ∧
    ∃ c ∈ db.channList, c.handle = handle ∧ c.channId = msg.cid)

theorem Queues.of_relayed {db db' : Db} (handle : Nat) (hgrows : Grows db db')
    (hrel : Relayed db db' []) : Queues handle db db' := ⟨hgrows, [], hrel, .inl rfl⟩

theorem Sent.queues (h : Sent handle db db') (hdb : Handles db) : Queues handle db db' := by
  obtain rfl | ⟨chann, msg, env, hchann, hcid, rfl⟩ := h
  . exact .of_relayed handle (.refl _) (Relayed.refl _)
  . have hnext : Grows db (nextTxSeq db) := .of_eq rfl (Nat.le_refl _)
    refine ⟨hnext.trans (grows_remoteMsgSend msg env (hnext.handles hdb)), ?_⟩
    obtain ⟨new, hrel, -, hnew⟩ := relayed_remoteMsgSend msg env (nextTxSeq db)
    refine ⟨new, ⟨hrel.pipe, hrel.accepted, hrel.ids, hrel.nextId, hrel.connected, hrel.channs⟩, ?_⟩
    obtain hnew | ⟨-, hnew⟩ := hnew
    . exact .inl hnew
    . exact .inr ⟨_, hnew, chann, mem_of_channCheck hchann, handle_of_channCheck hchann, hcid.symm⟩

theorem Queues.cback (h : Queues handle (cback cid status msg db) db') : Queues handle db db' := by
  obtain ⟨new, hrel, hnew⟩ := h.relayed
  exact ⟨(grows_cback cid status msg db).trans h.grows, new,
    (relayed_cback cid status msg db).trans hrel, hnew⟩

theorem queues_dataIndChann (hdb : Handles db)
    (hmem : chann ∈ db.channList) (msg : RelayMsg) (env : IndEnv) :
    Queues chann.handle db (dataIndChann msg chann env db) := by
  have hdb' : ∀ status, Handles (cback chann.channId status msg db) := fun _ => hdb
  unfold dataIndChann
  split
  . exact .of_relayed _ (grows_cback _ _ _ _) (relayed_cback _ _ _ _)
  . exact ((sent_remoteAsyncMsgRelay _ _ _ _ _ _).queues (hdb' _)).cback
  . dsimp only
    split
    . exact (Queues.of_relayed _ (grows_cback _ _ _ _) (relayed_cback _ _ _ _)).cback
    . exact (Queues.of_relayed _ (grows_cback _ _ _ _) (relayed_cback _ _ _ _)).cback
    . exact (Queues.of_relayed _ (grows_queueTimer (hdb' _) hmem _ _ _)
        (relayed_queueTimer _ _ _ _ _)).cback
  . exact ((sent_remoteSyncMsgRelay _ _ _ _ _ _ _ _).queues (hdb' _)).cback

theorem queues_remoteRelayDataInd (hdb : Handles db) (msg : RelayMsg) (env : IndEnv) :
    Queues (((channFind msg.cid db).map (·.handle)).getD 0) db (remoteRelayDataInd msg env db) := by
  have hseq : Grows db { db with rxSeq := msg.seq } := .of_eq rfl (Nat.le_refl _)
  unfold remoteRelayDataInd
  split
  . exact .of_relayed _ (.refl db) (Relayed.refl db)
  . dsimp only
    split
    . exact .of_relayed _ hseq ⟨by simp, by simp, rfl, rfl, rfl, rfl⟩
    . next chann hchann =>
      have hfind : channFind msg.cid db = some chann := hchann
      obtain ⟨hgrows, new, hrel, hnew⟩ := queues_dataIndChann (hseq.handles hdb)
        (mem_of_channFind hchann) msg env
      rw [hfind]
      exact ⟨hseq.trans hgrows, new, ⟨hrel.pipe, hrel.accepted, hrel.ids, hrel.nextId,
        hrel.connected, hrel.channs⟩, hnew⟩

namespace World

variable {w : World} {db : Db}

theorem mem_of_pairs {db db' : Db} (h : db'.channList.map (fun c => (c.handle, c.channId)) =
    db.channList.map fun c => (c.handle, c.channId)) {c' : Chann} (hc : c' ∈ db'.channList) :
    ∃ c ∈ db.channList, c.handle = c'.handle ∧ c.channId = c'.channId := by
  have hmem : (c'.handle, c'.channId) ∈ db.channList.map fun c => (c.handle, c.channId) :=
    h ▸ mem_map_of_mem hc
  obtain ⟨c, hc, heq⟩ := mem_map.mp hmem
  exact ⟨c, hc, (Prod.mk.inj heq).1, (Prod.mk.inj heq).2⟩

theorem Sound.of_channs (hs : Sound w) {w' : World}
    (hchanns : w'.db.channList.map (fun c => (c.handle, c.channId)) =
      w.db.channList.map fun c => (c.handle, c.channId))
    (hnext : w'.nextHandle = w.nextHandle)
    (hqueue : ∀ msg ∈ w'.db.relayQueue, msg.id < w'.db.nextId ∧
      ∀ c ∈ w.db.channList, c.channId = msg.cid → c.handle = w'.owner msg.id)
    (hcredits : w'.db.credits ≤ remoteMsgCredits) (hout : w'.db.out = [])
    (hcompleted : ∀ e ∈ w'.expiries,
      e.completed = some ⟨e.handle, e.pos, e.timer.event, .syncTout, e.timer.param⟩) :
    Sound w' where
  handles := by
    have := congrArg (List.map Prod.fst) hchanns
    rw [map_map, map_map] at this
    exact (show w'.db.channList.map (·.handle) = w.db.channList.map (·.handle) from this) ▸
      hs.handles
  handles_lt := by
    intro c' hc'
    obtain ⟨c, hc, hhandle, -⟩ := mem_of_pairs hchanns hc'
    rw [← hhandle, hnext]
    exact hs.handles_lt c hc
  channIds := by
    have := congrArg (List.map Prod.snd) hchanns
    rw [map_map, map_map] at this
    exact (show w'.db.channList.map (·.channId) = w.db.channList.map (·.channId) from this) ▸
      hs.channIds
  resolves := by
    intro msg hmsg c' hc' hid
    obtain ⟨c, hc, hhandle, hchannId⟩ := mem_of_pairs hchanns hc'
    rw [← hhandle]
    exact (hqueue msg hmsg).2 c hc (hchannId.trans hid)
  ids_lt msg hmsg := (hqueue msg hmsg).1
  credits := hcredits
  out := hout
  completed := hcompleted

theorem Sound.find_eq (hs : Sound w) (hc : c ∈ w.db.channList) :
    channFind c.channId w.db = some c := by
  unfold channFind
  cases h : w.db.channList.find? (·.channId = c.channId) with
  | none =>
    rw [find?_eq_none] at h
    exact absurd (decide_eq_true rfl) (h c hc)
  | some c' =>
    have hid := find?_some h
    rw [inj_on_of_nodup_map hs.channIds (mem_of_find?_eq_some h) hc (by simpa using hid)]

theorem sound_goOn (hs : Sound w) {handle : Nat} (h : Queues handle w.db db) :
    Sound (w.goOn handle db) := by
  obtain ⟨hgrows, new, hrel, hnew⟩ := h
  refine hs.of_channs hrel.channs rfl ?_ (Nat.le_trans hgrows.credits hs.credits) rfl hs.completed
  intro msg hmsg
  have hkey : ∃ m ∈ w.db.relayQueue ++ new, m.key = msg.key := by
    have hmem : msg.key ∈ (db.out ++ db.relayQueue).map RelayMsg.key :=
      mem_map_of_mem (mem_append_right _ hmsg)
    rw [hrel.pipe, hs.out, nil_append] at hmem
    obtain ⟨m, hm, heq⟩ := mem_map.mp hmem
    exact ⟨m, hm, heq⟩
  obtain ⟨m, hm, heq⟩ := hkey
  have hid : m.id = msg.id := congrArg Prod.fst heq
  have hcid : m.cid = msg.cid := congrArg (·.2.2) heq
  have hnext : (w.goOn handle db).db.nextId = w.db.nextId + new.length := hrel.nextId
  rw [hnext, ← hid, ← hcid]
  obtain hm | hm := mem_append.mp hm
  . have hlt := hs.ids_lt m hm
    refine ⟨by omega, fun c hc hc' => ?_⟩
    have howner : (w.goOn handle db).owner m.id = w.owner m.id :=
      Function.update_of_ne (Nat.ne_of_lt hlt) ..
    rw [howner]
    exact hs.resolves m hm c hc hc'
  . obtain rfl | ⟨msg', rfl, c', hc', hhandle, hchannId⟩ := hnew
    . cases hm
    . have hm' : m = msg' := mem_singleton.mp hm
      have hids := hrel.ids
      rw [map_singleton, length_singleton, range'_one, singleton_inj] at hids
      rw [hm', hids]
      refine ⟨Nat.lt_succ_self _, fun c hc hc'' => ?_⟩
      have howner : (w.goOn handle db).owner w.db.nextId = handle := Function.update_self ..
      rw [howner, ← hhandle,
        inj_on_of_nodup_map hs.channIds hc hc' (hc''.trans hchannId.symm)]

theorem keeps_of_channs {w' : World} {e : LifeEvent}
    (h : List.Forall₂ (fun c c' : Chann => c'.handle = c.handle ∧ c'.channId = c.channId ∧
      c.timerQueue <+: c'.timerQueue) w.db.channList w'.db.channList)
    (he : ∀ c, timersAfter c e = c.timerQueue) : Keeps w w' e := by
  intro c hc _
  generalize w.db.channList = l at hc h
  generalize w'.db.channList = l' at h ⊢
  induction h with
  | nil => cases hc
  | cons hhead _ ih =>
    cases hc with
    | head => exact ⟨_, mem_cons_self, hhead.1, hhead.2.1, (he c).symm ▸ hhead.2.2⟩
    | tail _ hc =>
      obtain ⟨c', hc', hkept⟩ := ih hc
      exact ⟨c', mem_cons_of_mem _ hc', hkept⟩

theorem sound_register (hs : Sound w) (hok : w.Meets (.register alloc)) :
    Sound { w with
      db := remoteRelayRegister w.nextHandle alloc w.db
      nextHandle := w.nextHandle + 1 } := by
  unfold remoteRelayRegister
  split
  . next halloc =>
    obtain ⟨hchanns, hqueue⟩ := hok halloc
    exact {
      handles := by
        simp only [map_append, map_cons, map_nil]
        refine nodup_append.mpr ⟨hs.handles, nodup_singleton _, ?_⟩
        intro h hh h' hh'
        obtain ⟨c, hc, rfl⟩ := mem_map.mp hh
        rw [mem_singleton.mp hh']
        exact Nat.ne_of_lt (hs.handles_lt c hc)
      handles_lt := by
        intro c hc
        obtain hc | hc := mem_append.mp hc
        . exact Nat.lt_succ_of_lt (hs.handles_lt c hc)
        . rw [mem_singleton.mp hc]
          exact Nat.lt_succ_self _
      channIds := by
        simp only [map_append, map_cons, map_nil]
        refine nodup_append.mpr ⟨hs.channIds, nodup_singleton _, ?_⟩
        intro h hh h' hh'
        obtain ⟨c, hc, rfl⟩ := mem_map.mp hh
        rw [mem_singleton.mp hh']
        exact hchanns c hc
      resolves := by
        intro msg hmsg c hc hid
        obtain hc | hc := mem_append.mp hc
        . exact hs.resolves msg hmsg c hc hid
        . rw [mem_singleton.mp hc] at hid
          exact absurd hid.symm (hqueue msg hmsg)
      ids_lt := hs.ids_lt
      credits := hs.credits
      out := hs.out
      completed := hs.completed
    }
  . exact ⟨hs.handles, fun c hc => Nat.lt_succ_of_lt (hs.handles_lt c hc), hs.channIds, hs.resolves,
      hs.ids_lt, hs.credits, hs.out, hs.completed⟩

theorem sound_unregister (hs : Sound w) (handle : Nat) :
    Sound { w with db := remoteRelayUnregister handle w.db } := by
  unfold remoteRelayUnregister
  split
  . exact hs
  . exact {
      handles := hs.handles.sublist (filter_sublist.map _)
      handles_lt := fun c hc => hs.handles_lt c (mem_filter.mp hc).1
      channIds := hs.channIds.sublist (filter_sublist.map _)
      resolves := fun msg hmsg c hc => hs.resolves msg hmsg c (mem_filter.mp hc).1
      ids_lt := hs.ids_lt
      credits := hs.credits
      out := hs.out
      completed := hs.completed
    }

theorem keeps_unregister (w : World) (handle : Nat) :
    Keeps w { w with db := remoteRelayUnregister handle w.db } (.unregister handle) := by
  intro c hc hne
  refine ⟨c, ?_, rfl, rfl, prefix_rfl⟩
  unfold remoteRelayUnregister
  split
  . exact hc
  . exact mem_filter.mpr ⟨hc, by simpa using (hne handle rfl).symm⟩

theorem keeps_register (w : World) (alloc : Bool) :
    Keeps w { w with
      db := remoteRelayRegister w.nextHandle alloc w.db
      nextHandle := w.nextHandle + 1 } (.register alloc) := by
  intro c hc _
  refine ⟨c, ?_, rfl, rfl, prefix_rfl⟩
  unfold remoteRelayRegister
  split
  . exact mem_append_left _ hc
  . exact hc

theorem findIdx?_eq_some_of_first {p : RemoteTimer → Bool} {l : List RemoteTimer} {pos : Nat}
    {t : RemoteTimer} (ht : l[pos]? = some t) (hp : p t = true)
    (hfirst : ∀ t ∈ l.take pos, p t = false) : l.findIdx? p = some pos := by
  obtain ⟨hlt, rfl⟩ := List.getElem?_eq_some_iff.mp ht
  rw [List.findIdx?_eq_some_iff_getElem]
  refine ⟨hlt, hp, fun j hj => ?_⟩
  have hmem : l[j] ∈ l.take pos := by
    rw [mem_take_iff_getElem]
    exact ⟨j, by omega, rfl⟩
  simpa using hfirst _ hmem

section

variable (hs : Sound w)

include hs

theorem remoteRelayTimerCback_eq {handle pos : Nat} {chann : Chann}
    {timer : RemoteTimer} (hat : w.timerAt handle pos = some (chann, timer))
    (hfirst : w.FirstOfItsKind handle pos) :
    chann ∈ w.db.channList ∧ chann.handle = handle ∧
      remoteRelayTimerCback timer.timerType chann.channId timer.timerIndex timer.event w.db =
        (setTimers handle chann.timerIndex (chann.timerQueue.eraseIdx pos) w.db,
          some ⟨handle, pos, timer.event, .syncTout, timer.param⟩) := by
  have hkind := hfirst _ hat
  unfold timerAt at hat
  obtain ⟨chann', hchann, hat⟩ := Option.bind_eq_some_iff.mp hat
  obtain ⟨timer', htimer, hat⟩ := Option.bind_eq_some_iff.mp hat
  cases hat
  have hmem := mem_of_channCheck hchann
  have hhandle := handle_of_channCheck hchann
  have hidx := findIdx?_eq_some_of_first htimer
    (show RemoteTimer.matches timer.timerType timer.timerIndex timer.event timer = true by
      simp [RemoteTimer.matches]) hkind
  refine ⟨hmem, hhandle, ?_⟩
  unfold remoteRelayTimerCback
  rw [hs.find_eq hmem]
  dsimp only
  rw [hidx]
  dsimp only
  rw [htimer, hhandle]
  rfl

theorem sound_expired {handle pos : Nat} {chann : Chann} {timer : RemoteTimer}
    {timers : List RemoteTimer} (timerIndex : Nat) :
    Sound { w with
      db := setTimers chann.handle timerIndex timers w.db
      expiries := w.expiries ++
        [⟨handle, pos, timer, some ⟨handle, pos, timer.event, .syncTout, timer.param⟩⟩] } := by
  refine hs.of_channs ?_ rfl (fun msg hmsg => ⟨hs.ids_lt msg hmsg, hs.resolves msg hmsg⟩) hs.credits
    hs.out ?_
  . unfold setTimers
    dsimp only
    rw [map_map]
    refine map_congr_left fun c _ => ?_
    rw [Function.comp_apply]
    split <;> rfl
  . intro e he
    obtain he | he := mem_append.mp he
    . exact hs.completed e he
    . rw [mem_singleton.mp he]

theorem keeps_expired {chann : Chann} (hmem : chann ∈ w.db.channList) {pos : Nat}
    {expiries : List Expiry} (timerIndex : Nat) :
    Keeps w { w with
      db := setTimers chann.handle timerIndex (chann.timerQueue.eraseIdx pos) w.db
      expiries := expiries } (.timerExpired chann.handle pos) := by
  intro c hc _
  refine ⟨if c.handle = chann.handle then
    { c with timerIndex := timerIndex, timerQueue := chann.timerQueue.eraseIdx pos } else c,
    mem_map_of_mem hc, ?_⟩
  unfold timersAfter
  dsimp only
  split
  . next heq =>
    rw [eq_of_handle hs.handles hc hmem heq, if_pos rfl]
    exact ⟨rfl, rfl, prefix_rfl⟩
  . next hne =>
    rw [if_neg (Ne.symm hne)]
    exact ⟨rfl, rfl, prefix_rfl⟩

theorem keeps_of_timerAt_none (h : w.timerAt handle pos = none) :
    Keeps w w (.timerExpired handle pos) := by
  intro c hc _
  refine ⟨c, hc, rfl, rfl, ?_⟩
  unfold timersAfter
  dsimp only
  split
  . next heq =>
    have hcheck : channCheck handle w.db = some c := by
      unfold channCheck
      cases hfind : w.db.channList.find? (·.handle = handle) with
      | none =>
        rw [find?_eq_none] at hfind
        exact absurd (decide_eq_true heq.symm) (hfind c hc)
      | some c' =>
        rw [eq_of_handle hs.handles (mem_of_find?_eq_some hfind) hc
          ((handle_of_channCheck hfind).trans heq)]
    unfold timerAt at h
    rw [hcheck, Option.bind_eq_bind, Option.bind_some] at h
    have hlen : c.timerQueue.length ≤ pos := by
      rw [← getElem?_eq_none_iff]
      cases hget : c.timerQueue[pos]? with
      | none => rfl
      | some t =>
        rw [hget] at h
        cases h
    exact (eraseIdx_of_length_le hlen).symm ▸ prefix_rfl
  . exact prefix_rfl

theorem sound_dataRsp (mode : Option SessionMode) (attempts : List Attempt) :
    Sound (w.goOn 0 (remoteRelayDataRsp mode attempts w.db)) ∧
      Keeps w (w.goOn 0 (remoteRelayDataRsp mode attempts w.db)) (.dataRsp mode attempts) := by
  have hdequeue : ∀ db' : Db, Handles db' → Queues 0 db' (remoteMsgDequeue mode attempts db') :=
    fun db' hdb' => .of_relayed 0 (grows_remoteMsgDequeue mode attempts hdb')
      (relayed_remoteMsgDequeue mode attempts db').1
  unfold remoteRelayDataRsp
  dsimp only
  split
  . next hlt =>
    have hmore : Sound { w with db := { w.db with credits := w.db.credits + 1 } } :=
      hs.of_channs rfl rfl (fun msg hmsg => ⟨hs.ids_lt msg hmsg, hs.resolves msg hmsg⟩) hlt hs.out
        hs.completed
    have hq := hdequeue { w.db with credits := w.db.credits + 1 } hs.handles
    exact ⟨sound_goOn hmore hq, keeps_of_channs hq.grows.channs fun _ => rfl⟩
  . have hq := hdequeue w.db hs.handles
    exact ⟨sound_goOn hs hq, keeps_of_channs hq.grows.channs fun _ => rfl⟩

theorem sound_step {e : LifeEvent} (hok : w.Meets e) :
    ∃ w', w.step e = some w' ∧ Sound w' ∧ Keeps w w' e := by
  have hdb : Handles w.db := hs.handles
  have hgo : ∀ {handle db}, (∀ c, timersAfter c e = c.timerQueue) → Queues handle w.db db →
      Sound (w.goOn handle db) ∧ Keeps w (w.goOn handle db) e :=
    fun he h => ⟨sound_goOn hs h, keeps_of_channs h.grows.channs he⟩
  cases e with
  | register alloc => exact ⟨_, rfl, sound_register hs hok, keeps_register w alloc⟩
  | unregister handle => exact ⟨_, rfl, sound_unregister hs handle, keeps_unregister w handle⟩
  | asyncRelay handle event param loopback env =>
    exact ⟨_, rfl, hgo (fun _ => rfl)
      ((sent_remoteAsyncMsgRelay handle event param loopback env w.db).queues hdb)⟩
  | syncRelay handle event param timerType timerPeriod loopback env =>
    exact ⟨_, rfl, hgo (fun _ => rfl) ((sent_remoteSyncMsgRelay handle event param timerType
      timerPeriod loopback env w.db).queues hdb)⟩
  | dataInd msg env => exact ⟨_, rfl, hgo (fun _ => rfl) (queues_remoteRelayDataInd hdb msg env)⟩
  | dataRsp mode attempts => exact ⟨_, rfl, sound_dataRsp hs mode attempts⟩
  | retransTimer mode attempts =>
    refine ⟨_, rfl, hgo (fun _ => rfl) (.of_relayed 0 ?_
      (relayed_remoteRetransTimerCback mode attempts w.db).1)⟩
    have hoff : Grows w.db { w.db with retransTimer := false } := .of_eq rfl (Nat.le_refl _)
    have hout := hoff.trans (grows_remoteMsgDequeue mode attempts (hoff.handles hdb))
    unfold remoteRetransTimerCback
    dsimp only
    split
    . exact hout
    . exact hout.trans (.of_eq rfl (Nat.le_refl _))
  | pm event mode attempts =>
    refine ⟨_, rfl, hgo (fun _ => rfl) (.of_relayed 0 ?_
      (relayed_remoteBtPmCback event mode attempts w.db).1)⟩
    cases event
    case sniffEnterFail | sniffExitSuccess => exact grows_remoteMsgDequeue mode attempts hdb
    all_goals exact .refl w.db
  | timerExpired handle pos =>
    unfold step
    dsimp only
    cases hat : w.timerAt handle pos with
    | none => exact ⟨w, rfl, hs, keeps_of_timerAt_none hs hat⟩
    | some p =>
      obtain ⟨chann, timer⟩ := p
      obtain ⟨hmem, rfl, hcback⟩ := remoteRelayTimerCback_eq hs hat hok
      dsimp only
      rw [hcback]
      exact ⟨_, rfl, sound_expired hs chann.timerIndex, keeps_expired hs hmem chann.timerIndex⟩
  | connected =>
    refine ⟨_, rfl, ?_, keeps_of_channs (forall₂_refl (fun _ => ⟨rfl, rfl, prefix_rfl⟩) _)
      fun _ => rfl⟩
    exact hs.of_channs rfl rfl (fun msg hmsg => ⟨hs.ids_lt msg hmsg, hs.resolves msg hmsg⟩)
      (Nat.le_refl _) hs.out hs.completed
  | disconnected =>
    have hall : sessionDisconnected w.db = some (ipcDisconnected w.db) :=
      if_pos (by rw [all_eq_true]; exact hok)
    unfold step
    dsimp only
    rw [hall]
    refine ⟨_, rfl, ?_, keeps_of_channs (forall₂_refl (fun _ => ⟨rfl, rfl, prefix_rfl⟩) _)
      fun _ => rfl⟩
    exact hs.of_channs rfl rfl (fun msg hmsg => absurd hmsg not_mem_nil) hs.credits hs.out
      hs.completed

end

theorem sound_initial : Sound initial :=
  ⟨nodup_nil, fun _ hc => absurd hc not_mem_nil, nodup_nil,
    fun _ hmsg => absurd hmsg not_mem_nil, fun _ hmsg => absurd hmsg not_mem_nil,
    Nat.zero_le _, rfl, fun _ he => absurd he not_mem_nil⟩

def MeetsOk : Option World → LifeEvent → Prop
  | some w, e => w.Meets e
  | none, _ => True

instance : (w : Option World) → (e : LifeEvent) → Decidable (MeetsOk w e)
  | some w, e => decidable_of_iff (w.Meets e) Iff.rfl
  | none, _ => .isTrue trivial

theorem channels_sound (events : List LifeEvent)
    (hok : Run.Along stepOk MeetsOk (some initial) events) :
    ∃ w, Run.exec stepOk (some initial) events = some w ∧ Sound w ∧
      ∀ e, w.Meets e → ∃ w', w.step e = some w' ∧ Sound w' ∧ Keeps w w' e := by
  have hstep : ∀ s e, (∃ w, s = some w ∧ Sound w) → MeetsOk s e →
      ∃ w, stepOk s e = some w ∧ Sound w := by
    rintro s e ⟨w, rfl, hs⟩ he
    obtain ⟨w', hw', hs', -⟩ := sound_step hs he
    exact ⟨w', hw', hs'⟩
  obtain ⟨w, hw, hs⟩ := Run.exec_inv hstep (some initial) events ⟨initial, rfl, sound_initial⟩ hok
  exact ⟨w, hw, hs, fun e he => sound_step hs he⟩

theorem channels_sound_session :
    let clk : ClkRead := ⟨.sniffing, 100, 0⟩
    let events : List LifeEvent :=
      [.register true, .connected,
        .syncRelay 0 7 [1] .lowPrecision 0 false
          ⟨some .active, true, clk, [⟨clk, true, clk, ⟨true, true⟩⟩]⟩,
        .timerExpired 0 0, .asyncRelay 0 8 [] false ⟨some .sleep, true, clk, []⟩, .disconnected]
    ∃ w, Run.exec stepOk (some initial) events = some w ∧ Sound w ∧
      ∀ e, w.Meets e → ∃ w', w.step e = some w' ∧ Sound w' ∧ Keeps w w' e :=
  channels_sound _ (by decide)

theorem not_channels_sound :
    ¬∀ events : List LifeEvent,
      ∃ w, Run.exec stepOk (some initial) events = some w ∧ Sound w := by
  intro h
  obtain ⟨w, hw, -⟩ := h [.register true, .connected,
    .asyncRelay 0 8 [] false ⟨some .sleep, true, ⟨.none, 0, 0⟩, []⟩, .unregister 0, .disconnected]
  cases hw

end World

end Remote
