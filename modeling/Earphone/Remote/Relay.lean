import Earphone.Lib.Run
import Earphone.Remote.Basic
import Mathlib.Data.List.Chain

namespace Remote

open List

structure State where
  db : Bool → Db
  link : Bool → List RelayMsg

def initialDb (channList : List Chann) : Db where
  connected := false
  txSeq := 0
  rxSeq := 0
  credits := 0
  channId := channList.length
  channList := channList
  relayQueue := []
  period := remoteRelayPeriodDefault
  retransTimer := false
  out := []
  cbacks := []
  nextId := 0
  accepted := []

def initial (channList : Bool → List Chann) : State where
  db := fun b => initialDb (channList b)
  link := fun _ => []

def up (s : State) : Bool := (s.db false).connected && (s.db true).connected

def hand (b : Bool) (db : Db) (s : State) : State where
  db := Function.update s.db b { db with out := [] }
  link := if up s then Function.update s.link b (s.link b ++ db.out) else s.link

inductive Event where
  | asyncRelay (b : Bool) (handle event : Nat) (param : List Nat) (loopback : Bool) (env : Env)
  | syncRelay (b : Bool) (handle event : Nat) (param : List Nat) (timerType : TimerType)
    (timerPeriod : Nat) (loopback : Bool) (env : Env)
  | dataInd (b : Bool) (env : IndEnv)
  | dataRsp (b : Bool) (mode : Option SessionMode) (attempts : List Attempt)
  | retransTimer (b : Bool) (mode : Option SessionMode) (attempts : List Attempt)
  | pm (b : Bool) (event : PmEvent) (mode : Option SessionMode) (attempts : List Attempt)
  | connected
  | disconnected (b : Bool)

def Event.step (s : State) : Event → State
  | .asyncRelay b handle event param loopback env =>
    hand b (remoteAsyncMsgRelay handle event param loopback env (s.db b)).1 s
  | .syncRelay b handle event param timerType timerPeriod loopback env =>
    hand b (remoteSyncMsgRelay handle event param timerType timerPeriod loopback env (s.db b)).1 s
  | .dataInd b env =>
    match s.link (!b) with
    | [] => s
    | msg :: rest =>
      hand b (remoteRelayDataInd msg env (s.db b))
        { s with link := Function.update s.link (!b) rest }
  | .dataRsp b mode attempts => hand b (remoteRelayDataRsp mode attempts (s.db b)) s
  | .retransTimer b mode attempts =>
    if (s.db b).retransTimer then
      hand b (remoteRetransTimerCback mode attempts (s.db b)) s
    else
      s
  | .pm b event mode attempts => hand b (remoteBtPmCback event mode attempts (s.db b)).1 s
  | .connected =>
    if (s.db false).connected || (s.db true).connected then
      s
    else
      { db := fun b => ipcConnected (s.db b), link := fun _ => [] }
  | .disconnected b =>
    { db := Function.update s.db b (ipcDisconnected (s.db b)), link := fun _ => [] }

def RelayStatus.isDelivery : RelayStatus → Bool
  | .asyncRcvd | .asyncLoopback | .syncRcvd | .syncLoopback => true
  | _ => false

def delivered (db : Db) : List Nat := (db.cbacks.filter (·.status.isDelivery)).map (·.id)

def pending (b : Bool) (s : State) : List RelayMsg := s.link b ++ (s.db b).relayQueue

def RelayMsg.key (msg : RelayMsg) : Nat × Nat × Nat := (msg.id, msg.seq, msg.cid)

structure Relayed (db db' : Db) (new : List RelayMsg) : Prop where
  pipe : (db'.out ++ db'.relayQueue).map RelayMsg.key =
    (db.out ++ db.relayQueue ++ new).map RelayMsg.key
  accepted : db'.accepted = db.accepted ++ new.map (·.id)
  ids : new.map (·.id) = List.range' db.nextId new.length
  nextId : db'.nextId = db.nextId + new.length
  connected : db'.connected = db.connected
  channs : db'.channList.map (fun c => (c.handle, c.channId)) =
    db.channList.map (fun c => (c.handle, c.channId))

structure Unreceived (db db' : Db) : Prop where
  rxSeq : db'.rxSeq = db.rxSeq
  delivered : delivered db' = delivered db

theorem Relayed.refl (db : Db) : Relayed db db [] := ⟨by simp, by simp, rfl, rfl, rfl, rfl⟩

theorem Unreceived.refl (db : Db) : Unreceived db db := ⟨rfl, rfl⟩

theorem Relayed.trans (h : Relayed db₁ db2 [])
    (h' : Relayed db2 db3 new) : Relayed db₁ db3 new where
  pipe := by
    have h1 := h.pipe
    have h2 := h'.pipe
    simp only [append_nil] at h1
    rw [h2, map_append, h1, ← map_append]
  accepted := by rw [h'.accepted, h.accepted]; simp
  ids := by rw [h'.ids, h.nextId]; rfl
  nextId := by rw [h'.nextId, h.nextId]; rfl
  connected := h'.connected.trans h.connected
  channs := h'.channs.trans h.channs

theorem Relayed.trans_nil (h : Relayed db₁ db2 new)
    (h' : Relayed db2 db3 []) : Relayed db₁ db3 new where
  pipe := by
    have h1 := h.pipe
    have h2 := h'.pipe
    simp only [append_nil] at h2
    rw [h2, h1]
  accepted := by rw [h'.accepted, h.accepted]; simp
  ids := h.ids
  nextId := by rw [h'.nextId, h.nextId]; rfl
  connected := h'.connected.trans h.connected
  channs := h'.channs.trans h.channs

theorem Unreceived.trans (h : Unreceived db₁ db2) (h' : Unreceived db2 db3) : Unreceived db₁ db3 :=
  ⟨h'.rxSeq.trans h.rxSeq, h'.delivered.trans h.delivered⟩

theorem relayed_cback (cid : Nat) (status : RelayStatus) (msg : RelayMsg) (db : Db) :
    Relayed db (cback cid status msg db) [] := ⟨by simp [cback], by simp [cback], rfl, rfl, rfl, rfl⟩

theorem delivered_cback (cid : Nat) (status : RelayStatus) (msg : RelayMsg) (db : Db) :
    delivered (cback cid status msg db) =
      delivered db ++ if status.isDelivery then [msg.id] else [] := by
  unfold delivered cback
  cases h : status.isDelivery <;> simp [h]

theorem unreceived_cback (cid : Nat) (h : status.isDelivery = false)
    (msg : RelayMsg) (db : Db) : Unreceived db (cback cid status msg db) :=
  ⟨rfl, by simp [delivered_cback, h]⟩

theorem relayed_queueTimer (msg : RelayMsg) (timeOffset : Nat) (alloc : TimerAlloc) (chann : Chann)
    (db : Db) : Relayed db (queueTimer msg timeOffset alloc chann db) [] := by
  have hset : ∀ timerIndex timerQueue,
      Relayed db (setTimers chann.handle timerIndex timerQueue db) [] := by
    intro timerIndex timerQueue
    refine ⟨by simp [setTimers], by simp [setTimers], rfl, rfl, rfl, ?_⟩
    simp only [setTimers, map_map]
    apply map_congr_left
    intro c _
    simp only [Function.comp]
    split <;> rfl
  unfold queueTimer
  dsimp only
  split
  . split <;> exact hset _ _
  . exact Relayed.refl db

theorem unreceived_queueTimer (msg : RelayMsg) (timeOffset : Nat) (alloc : TimerAlloc)
    (chann : Chann) (db : Db) : Unreceived db (queueTimer msg timeOffset alloc chann db) := by
  unfold queueTimer
  dsimp only
  split
  . split <;> exact ⟨rfl, rfl⟩
  . exact Unreceived.refl db

theorem isDelivery_sentOutStatus (relayType : RelayType) :
    (sentOutStatus relayType).isDelivery = false := by
  cases relayType <;> rfl

theorem relayed_msgSentOut (msg : RelayMsg) (attempt : Attempt) (db : Db) :
    Relayed db (msgSentOut msg attempt db) [] ∧ Unreceived db (msgSentOut msg attempt db) := by
  unfold msgSentOut
  split
  . exact ⟨Relayed.refl db, Unreceived.refl db⟩
  . next chann _ =>
    dsimp only
    have hun := isDelivery_sentOutStatus msg.relayType
    split
    . exact ⟨(relayed_queueTimer _ _ _ _ _).trans (relayed_cback _ _ _ _),
        (unreceived_queueTimer _ _ _ _ _).trans (unreceived_cback _ hun _ _)⟩
    . exact ⟨relayed_cback _ _ _ _, unreceived_cback _ hun _ _⟩

theorem msgSentOut_out (msg : RelayMsg) (attempt : Attempt) (db : Db) :
    (msgSentOut msg attempt db).out = db.out := by
  unfold msgSentOut remoteRaiseCmdTimer queueTimer
  split
  . rfl
  . dsimp only
    split
    . split
      . split <;> rfl
      . rfl
    . rfl

theorem relayed_msgDequeueLoop (queue : List RelayMsg) (attempts : List Attempt) (db : Db) :
    Relayed { db with relayQueue := queue } (msgDequeueLoop db queue attempts) [] ∧
      Unreceived db (msgDequeueLoop db queue attempts) := by
  induction queue generalizing db attempts with
  | nil =>
    unfold msgDequeueLoop
    exact ⟨Relayed.refl _, rfl, rfl⟩
  | cons msg queue ih =>
    unfold msgDequeueLoop
    split
    . exact ⟨Relayed.refl _, rfl, rfl⟩
    . split
      . exact ⟨⟨by simp, by simp, rfl, rfl, rfl, rfl⟩, rfl, rfl⟩
      . next attempt attempts =>
        dsimp only
        generalize hmsg : (if msg.relayType = .sync then stamp msg attempt.clk else msg) = msg'
        have hkey : msg'.key = msg.key := by
          rw [← hmsg]
          split <;> rfl
        split
        . obtain ⟨hrel, hun⟩ := relayed_msgSentOut msg' attempt
            { db with credits := db.credits - 1, out := db.out ++ [msg'] }
          obtain ⟨ihrel, ihun⟩ := ih attempts (msgSentOut msg' attempt
            { db with credits := db.credits - 1, out := db.out ++ [msg'] })
          refine ⟨?_, Unreceived.trans ⟨hun.rxSeq, hun.delivered⟩ ihun⟩
          exact {
            pipe := by
              rw [ihrel.pipe]
              simp [msgSentOut_out, hkey]
            accepted := by
              rw [ihrel.accepted]
              simpa using hrel.accepted
            ids := rfl
            nextId := by
              rw [ihrel.nextId]
              simpa using hrel.nextId
            connected := ihrel.connected.trans hrel.connected
            channs := ihrel.channs.trans hrel.channs
          }
        . exact ⟨⟨by simp [hkey], by simp, rfl, rfl, rfl, rfl⟩, rfl, rfl⟩

theorem relayed_remoteMsgDequeue (mode : Option SessionMode) (attempts : List Attempt) (db : Db) :
    Relayed db (remoteMsgDequeue mode attempts db) [] ∧
      Unreceived db (remoteMsgDequeue mode attempts db) := by
  unfold remoteMsgDequeue
  split
  . exact relayed_msgDequeueLoop db.relayQueue attempts db
  . exact ⟨Relayed.refl db, Unreceived.refl db⟩

def Accepts (env : Env) (db : Db) : Prop :=
  env.mode ≠ none ∧ env.alloc = true ∧ db.relayQueue.length < remoteMsgQueueNum
  deriving Decidable

def Accepted (env : Env) (db : Db) (new : List RelayMsg) : Prop :=
  new = [] ∨ db.connected = true ∧ Accepts env db ∧ ∃ msg, new = [msg] ∧
    msg.seq = u8 (db.txSeq + 1) ∧ ∃ chann ∈ db.channList, chann.channId = msg.cid

theorem relayed_remoteMsgSend (msg : RelayMsg) (env : Env) (db : Db) :
    ∃ new, Relayed db (remoteMsgSend msg env db).1 new ∧
      Unreceived db (remoteMsgSend msg env db).1 ∧
        (new = [] ∨ Accepts env db ∧ new = [{ msg with id := db.nextId }]) := by
  unfold remoteMsgSend
  split
  . exact ⟨[], Relayed.refl db, Unreceived.refl db, .inl rfl⟩
  . next h =>
    simp only [ge_iff_le, Bool.or_eq_true, Bool.not_eq_true', decide_eq_true_eq, not_or,
      Nat.not_le, Bool.not_eq_false] at h
    obtain ⟨hrel, hun⟩ := relayed_remoteMsgDequeue env.mode env.attempts
      { db with
        relayQueue := db.relayQueue ++ [{ msg with id := db.nextId }]
        nextId := db.nextId + 1
        accepted := db.accepted ++ [db.nextId] }
    refine ⟨[{ msg with id := db.nextId }], Relayed.trans_nil ?_ hrel, ⟨hun.rxSeq, hun.delivered⟩,
      .inr ⟨⟨h.1.1, h.1.2, h.2⟩, rfl⟩⟩
    exact ⟨by simp, rfl, rfl, rfl, rfl, rfl⟩

theorem mem_of_channCheck (h : channCheck handle db = some chann) : chann ∈ db.channList :=
  mem_of_find?_eq_some h

theorem accepted_nextTxSeq {env : Env} {db : Db} {msg : RelayMsg} {new : List RelayMsg}
    (hconn : ¬(!db.connected) = true)
    (hnew : new = [] ∨ Accepts env (nextTxSeq db) ∧ new = [{ msg with id := (nextTxSeq db).nextId }])
    (hseq : msg.seq = (nextTxSeq db).txSeq)
    (hcid : ∃ chann ∈ db.channList, chann.channId = msg.cid) : Accepted env db new := by
  cases hnew with
  | inl h => exact .inl h
  | inr h => exact .inr ⟨by simpa using hconn, h.1, _, h.2, hseq, hcid⟩

theorem relayed_remoteAsyncMsgRelay (handle event : Nat) (param : List Nat) (loopback : Bool)
    (env : Env) (db : Db) :
    ∃ new, Relayed db (remoteAsyncMsgRelay handle event param loopback env db).1 new ∧
      Unreceived db (remoteAsyncMsgRelay handle event param loopback env db).1 ∧
        Accepted env db new := by
  unfold remoteAsyncMsgRelay
  split
  . exact ⟨[], Relayed.refl db, Unreceived.refl db, .inl rfl⟩
  . next hconn =>
    split
    . exact ⟨[], Relayed.refl db, Unreceived.refl db, .inl rfl⟩
    . next chann hchann =>
      dsimp only
      obtain ⟨new, hrel, hun, hnew⟩ := relayed_remoteMsgSend
        { id := 0, seq := (nextTxSeq db).txSeq, cid := chann.channId, event := event, param := param
          relayType := if loopback then .asyncLoopback else .async, timerType := .default
          clkRef := .none, timeDuration := 0, timeInfo := 0 } env (nextTxSeq db)
      refine ⟨new, ⟨hrel.pipe, hrel.accepted, hrel.ids, hrel.nextId, hrel.connected, hrel.channs⟩,
        ⟨hun.rxSeq, hun.delivered⟩, ?_⟩
      exact accepted_nextTxSeq hconn hnew rfl ⟨chann, mem_of_channCheck hchann, rfl⟩

theorem relayed_remoteSyncMsgRelay (handle event : Nat) (param : List Nat) (timerType : TimerType)
    (timerPeriod : Nat) (loopback : Bool) (env : Env) (db : Db) :
    ∃ new,
      Relayed db (remoteSyncMsgRelay handle event param timerType timerPeriod loopback env db).1 new ∧
        Unreceived db (remoteSyncMsgRelay handle event param timerType timerPeriod loopback env db).1 ∧
          Accepted env db new := by
  unfold remoteSyncMsgRelay
  split
  . exact ⟨[], Relayed.refl db, Unreceived.refl db, .inl rfl⟩
  . next hconn =>
    split
    . exact ⟨[], Relayed.refl db, Unreceived.refl db, .inl rfl⟩
    . next chann hchann =>
      dsimp only
      split
      . exact ⟨[], Relayed.refl db, Unreceived.refl db, .inl rfl⟩
      . generalize hmsg : (if loopback = true then _ else _ : RelayMsg) = msg
        have hseq : msg.seq = (nextTxSeq db).txSeq ∧ msg.cid = chann.channId := by
          rw [← hmsg]
          cases loopback <;> exact ⟨rfl, rfl⟩
        obtain ⟨new, hrel, hun, hnew⟩ := relayed_remoteMsgSend msg env (nextTxSeq db)
        refine ⟨new, ⟨hrel.pipe, hrel.accepted, hrel.ids, hrel.nextId, hrel.connected,
          hrel.channs⟩, ⟨hun.rxSeq, hun.delivered⟩, ?_⟩
        exact accepted_nextTxSeq hconn hnew hseq.1 ⟨chann, mem_of_channCheck hchann, hseq.2.symm⟩

theorem relayed_dataIndChann (msg : RelayMsg) (chann : Chann) (env : IndEnv) (db : Db) :
    ∃ new, Relayed db (dataIndChann msg chann env db) new ∧
      (dataIndChann msg chann env db).rxSeq = db.rxSeq ∧
        delivered (dataIndChann msg chann env db) = delivered db ++ [msg.id] ∧
          (Accepted env.relay db new ∧
            (new ≠ [] → msg.relayType = .asyncLoopback ∨ msg.relayType = .syncLoopback)) := by
  unfold dataIndChann
  split
  . refine ⟨[], relayed_cback _ _ _ _, rfl, ?_, .inl rfl, by simp⟩
    simp [delivered_cback, RelayStatus.isDelivery]
  . next htype =>
    obtain ⟨new, hrel, hun, hnew⟩ := relayed_remoteAsyncMsgRelay chann.handle msg.event msg.param
      false env.relay (cback chann.channId .asyncLoopback msg db)
    refine ⟨new, (relayed_cback _ _ _ _).trans hrel, hun.rxSeq, ?_, hnew, fun _ => .inl htype⟩
    rw [hun.delivered, delivered_cback]
    rfl
  . have hrcvd : delivered (cback chann.channId .syncRcvd msg db) = delivered db ++ [msg.id] := by
      simp [delivered_cback, RelayStatus.isDelivery]
    refine ⟨[], ?_, ?_, ?_, .inl rfl, by simp⟩
    . dsimp only
      apply Relayed.trans (relayed_cback _ _ _ _)
      split
      . exact relayed_cback _ _ _ _
      . exact relayed_cback _ _ _ _
      . exact relayed_queueTimer _ _ _ _ _
    . dsimp only
      split
      . rfl
      . rfl
      . exact (unreceived_queueTimer _ _ _ _ _).rxSeq
    . dsimp only
      rw [← hrcvd]
      split
      . exact (unreceived_cback _ rfl _ _).delivered
      . exact (unreceived_cback _ rfl _ _).delivered
      . exact (unreceived_queueTimer _ _ _ _ _).delivered
  . next htype =>
    obtain ⟨new, hrel, hun, hnew⟩ := relayed_remoteSyncMsgRelay chann.handle msg.event msg.param
      msg.timerType msg.timeInfo false env.relay (cback chann.channId .syncLoopback msg db)
    refine ⟨new, (relayed_cback _ _ _ _).trans hrel, hun.rxSeq, ?_, hnew, fun _ => .inr htype⟩
    rw [hun.delivered, delivered_cback]
    rfl

theorem relayed_remoteRelayDataInd (msg : RelayMsg) (env : IndEnv) (db : Db) :
    ∃ new, Relayed db (remoteRelayDataInd msg env db) new ∧ (Accepted env.relay db new ∧
      (new ≠ [] → msg.relayType = .asyncLoopback ∨ msg.relayType = .syncLoopback)) := by
  unfold remoteRelayDataInd
  split
  . exact ⟨[], Relayed.refl db, .inl rfl, by simp⟩
  . dsimp only
    split
    . exact ⟨[], ⟨by simp, by simp, rfl, rfl, rfl, rfl⟩, .inl rfl, by simp⟩
    . next chann _ =>
      obtain ⟨new, hrel, _, _, hnew⟩ :=
        relayed_dataIndChann msg chann env { db with rxSeq := msg.seq }
      exact ⟨new, ⟨hrel.pipe, hrel.accepted, hrel.ids, hrel.nextId, hrel.connected, hrel.channs⟩, hnew⟩

theorem received_remoteRelayDataInd (env : IndEnv)
    (hseq : msg.seq ≠ db.rxSeq) (hcid : ∃ chann ∈ db.channList, chann.channId = msg.cid) :
    (remoteRelayDataInd msg env db).rxSeq = msg.seq ∧
      delivered (remoteRelayDataInd msg env db) = delivered db ++ [msg.id] := by
  unfold remoteRelayDataInd
  rw [if_neg hseq]
  dsimp only
  split
  . next hnone =>
    obtain ⟨chann, hmem, hchann⟩ := hcid
    simp only [channFind, find?_eq_none, decide_eq_true_eq] at hnone
    exact absurd hchann (hnone chann hmem)
  . next chann _ =>
    obtain ⟨_, _, hrx, hdel, _⟩ := relayed_dataIndChann msg chann env { db with rxSeq := msg.seq }
    exact ⟨hrx, hdel⟩

theorem relayed_remoteRelayDataRsp (mode : Option SessionMode) (attempts : List Attempt) (db : Db) :
    Relayed db (remoteRelayDataRsp mode attempts db) [] ∧
      Unreceived db (remoteRelayDataRsp mode attempts db) := by
  unfold remoteRelayDataRsp
  dsimp only
  split
  . obtain ⟨hrel, hun⟩ := relayed_remoteMsgDequeue mode attempts { db with credits := db.credits + 1 }
    exact ⟨⟨hrel.pipe, hrel.accepted, hrel.ids, hrel.nextId, hrel.connected, hrel.channs⟩,
      ⟨hun.rxSeq, hun.delivered⟩⟩
  . exact relayed_remoteMsgDequeue mode attempts db

theorem relayed_remoteRetransTimerCback (mode : Option SessionMode) (attempts : List Attempt)
    (db : Db) :
    Relayed db (remoteRetransTimerCback mode attempts db) [] ∧
      Unreceived db (remoteRetransTimerCback mode attempts db) := by
  unfold remoteRetransTimerCback
  dsimp only
  obtain ⟨hrel, hun⟩ := relayed_remoteMsgDequeue mode attempts { db with retransTimer := false }
  split
  . exact ⟨⟨hrel.pipe, hrel.accepted, hrel.ids, hrel.nextId, hrel.connected, hrel.channs⟩,
      ⟨hun.rxSeq, hun.delivered⟩⟩
  . exact ⟨⟨hrel.pipe, hrel.accepted, hrel.ids, hrel.nextId, hrel.connected, hrel.channs⟩,
      ⟨hun.rxSeq, hun.delivered⟩⟩

theorem relayed_remoteBtPmCback (event : PmEvent) (mode : Option SessionMode)
    (attempts : List Attempt) (db : Db) :
    Relayed db (remoteBtPmCback event mode attempts db).1 [] ∧
      Unreceived db (remoteBtPmCback event mode attempts db).1 := by
  cases event
  case sniffEnterFail | sniffExitSuccess => exact relayed_remoteMsgDequeue mode attempts db
  all_goals exact ⟨Relayed.refl db, Unreceived.refl db⟩

def lastSeq (b : Bool) (s : State) : Nat :=
  ((s.db !b).rxSeq :: (pending b s).map (·.seq)).getLast (by simp)

def RelayOk (b : Bool) (env : Env) (s : State) : Prop :=
  up s = true → Accepts env (s.db b) → u8 ((s.db b).txSeq + 1) ≠ lastSeq b s
  deriving Decidable

def Event.Ok (b : Bool) (s : State) : Event → Prop
  | .asyncRelay b' _ _ _ _ env | .syncRelay b' _ _ _ _ _ _ env => b' = b → RelayOk b env s
  | .dataInd b' env => b' = b → ∀ msg ∈ (s.link (!b)).head?,
      msg.relayType = .asyncLoopback ∨ msg.relayType = .syncLoopback → RelayOk b env.relay s
  | _ => True

instance (b : Bool) (s : State) (e : Event) : Decidable (e.Ok b s) := by
  cases e <;> (unfold Event.Ok; infer_instance)

structure Flow (b : Bool) (s : State) : Prop where
  ids : delivered (s.db !b) ++ (pending b s).map (·.id) = (s.db b).accepted
  chain : ((s.db !b).rxSeq :: (pending b s).map (·.seq)).IsChain (· ≠ ·)
  cids : ∀ msg ∈ pending b s, ∃ chann ∈ (s.db !b).channList, chann.channId = msg.cid

structure Inv (b : Bool) (s : State) : Prop where
  out : ∀ b, (s.db b).out = []
  down : ∀ b, (s.db b).connected = false → (s.db b).relayQueue = []
  link : up s = false → ∀ b, s.link b = []
  paired : ∀ b, ∀ c ∈ (s.db b).channList, ∃ c' ∈ (s.db !b).channList, c'.channId = c.channId
  sorted : (s.db b).accepted.Pairwise (· < ·)
  fresh : ∀ i ∈ (s.db b).accepted, i < (s.db b).nextId
  flow : up s = true → Flow b s

theorem inv_initial (b : Bool)
    (hpaired : ∀ b, ∀ c ∈ channList b, ∃ c' ∈ channList (!b), c'.channId = c.channId) :
    Inv b (initial channList) where
  out := fun _ => rfl
  down := fun _ _ => rfl
  link := fun _ _ => rfl
  paired := hpaired
  sorted := List.Pairwise.nil
  fresh := by simp [initial, initialDb]
  flow := by simp [up, initial, initialDb]

theorem up_iff (s : State) : up s = true ↔ ∀ b, (s.db b).connected = true := by
  simp [up, Bool.forall_bool]

theorem up_hand (h : db.connected = (s.db b).connected) : up (hand b db s) = up s := by
  cases b <;> simp [up, hand, h]

theorem mem_channs {db db' : Db} (h : db'.channList.map (fun c => (c.handle, c.channId)) =
    db.channList.map (fun c => (c.handle, c.channId))) (i : Nat) :
    (∃ c ∈ db'.channList, c.channId = i) ↔ ∃ c ∈ db.channList, c.channId = i := by
  have h' := congrArg (List.map Prod.snd) h
  simp only [map_map, Function.comp_def] at h'
  have := congrArg (i ∈ ·) h'
  simpa using this

theorem down_of_relayed (h : Relayed db db' new)
    (hout : db.out = []) (hdown : db.connected = false → db.relayQueue = [])
    (hnew : new = [] ∨ db.connected = true) (hc : db'.connected = false) : db'.relayQueue = [] := by
  have hc : db.connected = false := h.connected ▸ hc
  have hpipe := h.pipe
  rw [hout, hdown hc, hnew.resolve_right (by simp [hc])] at hpipe
  simp only [append_nil, map_nil, map_eq_nil_iff, append_eq_nil_iff] at hpipe
  exact hpipe.2

theorem map_of_map_key {xs ys : List RelayMsg} (h : xs.map RelayMsg.key = ys.map RelayMsg.key) :
    xs.map (·.id) = ys.map (·.id) ∧ xs.map (·.seq) = ys.map (·.seq) ∧
      xs.map (·.cid) = ys.map (·.cid) := by
  have h1 := congrArg (List.map fun k => k.1) h
  have h2 := congrArg (List.map fun k => k.2.1) h
  have h3 := congrArg (List.map fun k => k.2.2) h
  simp only [map_map] at h1 h2 h3
  exact ⟨h1, h2, h3⟩

theorem hand_db_self (b : Bool) (db : Db) (s : State) :
    (hand b db s).db b = { db with out := [] } := by
  simp [hand]

theorem hand_db_other (b : Bool) (db : Db) (s : State) : (hand b db s).db (!b) = s.db (!b) := by
  simp [hand]

theorem hand_out (h : ∀ b, (s.db b).out = []) (b' : Bool) : ((hand b db s).db b').out = [] := by
  by_cases hb : b' = b
  . subst hb
    simp [hand]
  . simp [hand, hb, h]

theorem hand_link (h : up s = true) :
    (hand b db s).link b = s.link b ++ db.out ∧ (hand b db s).link (!b) = s.link (!b) := by
  simp [hand, h]

theorem hand_paired {b : Bool} {db : Db} {s : State} {new : List RelayMsg}
    (h : Relayed (s.db b) db new)
    (hs : ∀ b, ∀ c ∈ (s.db b).channList, ∃ c' ∈ (s.db !b).channList, c'.channId = c.channId)
    (b' : Bool) : ∀ c ∈ ((hand b db s).db b').channList,
      ∃ c' ∈ ((hand b db s).db !b').channList, c'.channId = c.channId := by
  have hmem : ∀ b'' i, (∃ c ∈ ((hand b db s).db b'').channList, c.channId = i) ↔
      ∃ c ∈ (s.db b'').channList, c.channId = i := by
    intro b'' i
    by_cases hb : b'' = b
    . subst hb
      rw [hand_db_self]
      exact mem_channs h.channs i
    . simp [hand, hb]
  intro c hc
  rw [hmem]
  obtain ⟨c', hc', heq⟩ := (hmem b' c.channId).mp ⟨c, hc, rfl⟩
  rw [← heq]
  exact hs b' c' hc'

theorem inv_hand_sender {b : Bool} {db : Db} {s : State} {new : List RelayMsg} (hs : Inv b s)
    (h : Relayed (s.db b) db new)
    (hnew : new = [] ∨ (s.db b).connected = true ∧ ∃ msg, new = [msg] ∧
      (up s = true → msg.seq ≠ lastSeq b s) ∧ ∃ chann ∈ (s.db b).channList, chann.channId = msg.cid) :
    Inv b (hand b db s) where
  out := hand_out hs.out
  down := by
    intro b' hc
    by_cases hb : b' = b
    . subst hb
      rw [hand_db_self] at hc ⊢
      have : db.relayQueue = [] :=
        down_of_relayed h (hs.out b') (hs.down b') (hnew.imp_right And.left) hc
      exact this
    . simp only [hand, Function.update_of_ne hb] at hc ⊢
      exact hs.down b' hc
  link := by
    intro hup b'
    rw [up_hand h.connected] at hup
    simp [hand, hup, hs.link hup]
  paired := hand_paired h hs.paired
  sorted := by
    rw [hand_db_self]
    dsimp only
    rw [h.accepted, h.ids, pairwise_append]
    refine ⟨hs.sorted, pairwise_lt_range', ?_⟩
    intro i hi j hj
    have := hs.fresh i hi
    have := (mem_range'_1.mp hj).1
    omega
  fresh := by
    rw [hand_db_self]
    dsimp only
    rw [h.accepted, h.ids, h.nextId]
    intro i hi
    rw [mem_append] at hi
    cases hi with
    | inl hi =>
      have := hs.fresh i hi
      omega
    | inr hi => exact (mem_range'_1.mp hi).2
  flow := by
    intro hup
    rw [up_hand h.connected] at hup
    obtain ⟨hids, hchain, hcids⟩ := hs.flow hup
    have hpipe : (pending b (hand b db s)).map RelayMsg.key =
        (pending b s ++ new).map RelayMsg.key := by
      have hp := h.pipe
      rw [hs.out b, nil_append] at hp
      simp only [pending, (hand_link hup).1, hand_db_self, append_assoc]
      rw [map_append, hp, ← map_append]
    obtain ⟨hid, hseq, hcid⟩ := map_of_map_key hpipe
    refine ⟨?_, ?_, ?_⟩
    . rw [hand_db_other, hand_db_self, hid]
      dsimp only
      rw [h.accepted, ← hids]
      simp
    . rw [hand_db_other, hseq, map_append, ← cons_append, isChain_append]
      -- the new message comes last, and its number is not the last one that was sent
      obtain rfl | ⟨_, msg, rfl, hne, _⟩ := hnew
      . simp [hchain]
      . refine ⟨hchain, by simp, ?_⟩
        intro x hx y hy
        simp only [map_cons, map_nil, head?_cons, Option.mem_def,
          Option.some.injEq] at hy
        subst hy
        rw [getLast?_eq_getLast_of_ne_nil (by simp), Option.mem_def, Option.some.injEq] at hx
        subst hx
        exact (hne hup).symm
    . have hall : ∀ i ∈ (pending b (hand b db s)).map (·.cid),
          ∃ chann ∈ (s.db !b).channList, chann.channId = i := by
        rw [hcid, map_append]
        intro i hi
        rw [mem_append, mem_map] at hi
        cases hi with
        | inl hi =>
          obtain ⟨msg, hmsg, rfl⟩ := hi
          exact hcids msg hmsg
        | inr hi =>
          obtain rfl | ⟨_, msg, rfl, _, c, hc, heq⟩ := hnew
          . simp at hi
          . simp only [map_cons, map_nil, mem_singleton] at hi
            obtain ⟨c', hc', heq'⟩ := hs.paired b c hc
            exact ⟨c', hc', by omega⟩
      intro msg hmsg
      rw [hand_db_other]
      exact hall msg.cid (mem_map_of_mem hmsg)

theorem inv_hand_receiver {b : Bool} {db : Db} {s : State} {new : List RelayMsg} (hs : Inv b s)
    (h : Relayed (s.db !b) db new) (hun : Unreceived (s.db !b) db)
    (hnew : new = [] ∨ (s.db !b).connected = true) : Inv b (hand (!b) db s) where
  out := hand_out hs.out
  down := by
    intro b' hc
    by_cases hb : b' = !b
    . subst hb
      rw [hand_db_self] at hc ⊢
      have : db.relayQueue = [] := down_of_relayed h (hs.out _) (hs.down _) hnew hc
      exact this
    . simp only [hand, Function.update_of_ne hb] at hc ⊢
      exact hs.down b' hc
  link := by
    intro hup b'
    rw [up_hand h.connected] at hup
    simp [hand, hup, hs.link hup]
  paired := hand_paired h hs.paired
  sorted := by simpa [hand] using hs.sorted
  fresh := by simpa [hand] using hs.fresh
  flow := by
    intro hup
    rw [up_hand h.connected] at hup
    obtain ⟨hids, hchain, hcids⟩ := hs.flow hup
    have hpend : pending b (hand (!b) db s) = pending b s := by
      simp [pending, hand, hup]
    have hdb : (hand (!b) db s).db b = s.db b := by simp [hand]
    rw [← hun.delivered] at hids
    rw [← hun.rxSeq] at hchain
    refine ⟨?_, ?_, ?_⟩
    . rw [hpend, hand_db_self, hdb]
      exact hids
    . rw [hpend, hand_db_self]
      exact hchain
    . intro msg hmsg
      rw [hpend] at hmsg
      rw [hand_db_self]
      exact (mem_channs h.channs msg.cid).mpr (hcids msg hmsg)

theorem inv_dataInd_sender (hs : Inv b s) (hlink : s.link (!b) = msg :: rest)
    (hok : (Event.dataInd b env).Ok b s) :
    Inv b (hand b (remoteRelayDataInd msg env (s.db b))
      { s with link := Function.update s.link (!b) rest }) := by
  have hs' : Inv b { s with link := Function.update s.link (!b) rest } := by
    refine ⟨hs.out, hs.down, ?_, hs.paired, hs.sorted, hs.fresh, ?_⟩
    . intro hup
      have := hs.link hup (!b)
      rw [hlink] at this
      cases this
    . intro hup
      obtain ⟨hids, hchain, hcids⟩ := hs.flow hup
      have hpend : pending b { s with link := Function.update s.link (!b) rest } = pending b s := by
        simp [pending]
      exact ⟨by rw [hpend]; exact hids, by rw [hpend]; exact hchain, by rw [hpend]; exact hcids⟩
  obtain ⟨new, hrel, hacc, hloop⟩ := relayed_remoteRelayDataInd msg env (s.db b)
  refine inv_hand_sender hs' hrel ?_
  obtain hnil | ⟨hconn, haccepts, m, hnew, hseq, hcid⟩ := hacc
  . exact .inl hnil
  . refine .inr ⟨hconn, m, hnew, ?_, hcid⟩
    intro hup
    rw [hseq]
    have := hok rfl msg (by simp [hlink]) (hloop (by simp [hnew])) hup haccepts
    simpa [lastSeq, pending] using this

theorem inv_dataInd_receiver {b : Bool} {s : State} {msg : RelayMsg} {rest : List RelayMsg}
    (env : IndEnv) (hs : Inv b s) (hlink : s.link b = msg :: rest) :
    Inv b (hand (!b) (remoteRelayDataInd msg env (s.db !b))
      { s with link := Function.update s.link b rest }) := by
  have hup : up s = true := by
    cases hup : up s with
    | true => rfl
    | false =>
      have := hs.link hup b
      rw [hlink] at this
      cases this
  obtain ⟨hids, hchain, hcids⟩ := hs.flow hup
  have hpend : pending b s = msg :: (rest ++ (s.db b).relayQueue) := by simp [pending, hlink]
  rw [hpend] at hids hchain hcids
  simp only [map_cons, isChain_cons_cons] at hids hchain
  obtain ⟨hrx, hdel⟩ := received_remoteRelayDataInd env hchain.1.symm (hcids msg (by simp))
  obtain ⟨new, hrel, hacc, _⟩ := relayed_remoteRelayDataInd msg env (s.db !b)
  have hup' : up { s with link := Function.update s.link b rest } = true := hup
  refine ⟨hand_out hs.out, ?_, ?_, hand_paired hrel hs.paired, ?_, ?_, ?_⟩
  . intro b' hc
    have hconn := (up_iff s).mp hup b'
    by_cases hb : b' = !b
    . subst hb
      rw [hand_db_self] at hc
      have hc : (remoteRelayDataInd msg env (s.db !b)).connected = false := hc
      rw [hrel.connected, hconn] at hc
      cases hc
    . simp only [hand, Function.update_of_ne hb] at hc
      rw [hconn] at hc
      cases hc
  . intro hdown
    have : up (hand (!b) (remoteRelayDataInd msg env (s.db !b))
        { s with link := Function.update s.link b rest }) = true :=
      (up_hand hrel.connected).trans hup'
    rw [this] at hdown
    cases hdown
  . simpa [hand] using hs.sorted
  . simpa [hand] using hs.fresh
  . intro _
    have hpend' : pending b (hand (!b) (remoteRelayDataInd msg env (s.db !b))
        { s with link := Function.update s.link b rest }) = rest ++ (s.db b).relayQueue := by
      simp [pending, hand, hup']
    refine ⟨?_, ?_, ?_⟩
    . rw [hpend', hand_db_self]
      have : delivered { remoteRelayDataInd msg env (s.db !b) with out := [] } =
        delivered (s.db !b) ++ [msg.id] := hdel
      rw [this]
      simpa [hand] using hids
    . rw [hpend', hand_db_self]
      dsimp only
      rw [hrx]
      exact hchain.2
    . intro m hm
      rw [hpend'] at hm
      rw [hand_db_self]
      exact (mem_channs hrel.channs m.cid).mpr (hcids m (by simp [hm]))

theorem inv_connected (hs : Inv b s)
    (hdown : ∀ b, (s.db b).connected = false) :
    Inv b { db := fun b => ipcConnected (s.db b), link := fun _ => [] } where
  out := hs.out
  down := by simp [ipcConnected]
  link := fun _ _ => rfl
  paired := hs.paired
  sorted := List.Pairwise.nil
  fresh := by simp [ipcConnected]
  flow := by
    intro _
    have : (s.db b).relayQueue = [] := hs.down b (hdown b)
    exact ⟨by simp [pending, ipcConnected, delivered, this], by simp [pending, ipcConnected, this],
      by simp [pending, ipcConnected, this]⟩

theorem inv_disconnected (hs : Inv b s) (b' : Bool) :
    Inv b { db := Function.update s.db b' (ipcDisconnected (s.db b')), link := fun _ => [] } where
  out := by
    intro b''
    by_cases hb : b'' = b'
    . subst hb
      simpa [ipcDisconnected, remoteMsgQueueClear] using hs.out b''
    . simpa [hb] using hs.out b''
  down := by
    intro b'' hc
    by_cases hb : b'' = b'
    . subst hb
      simp [ipcDisconnected, remoteMsgQueueClear]
    . simp only [Function.update_of_ne hb] at hc ⊢
      exact hs.down b'' hc
  link := fun _ _ => rfl
  paired := by
    have hch : ∀ b'', ((Function.update s.db b' (ipcDisconnected (s.db b'))) b'').channList =
        (s.db b'').channList := by
      intro b''
      by_cases hb : b'' = b'
      . subst hb
        simp [ipcDisconnected, remoteMsgQueueClear]
      . simp [hb]
    intro b''
    dsimp only
    rw [hch, hch]
    exact hs.paired b''
  sorted := by
    by_cases hb : b = b'
    . subst hb
      simpa [ipcDisconnected, remoteMsgQueueClear] using hs.sorted
    . simpa [hb] using hs.sorted
  fresh := by
    by_cases hb : b = b'
    . subst hb
      simpa [ipcDisconnected, remoteMsgQueueClear] using hs.fresh
    . simpa [hb] using hs.fresh
  flow := by
    intro hup
    have := (up_iff _).mp hup b'
    simp [ipcDisconnected, remoteMsgQueueClear] at this

theorem bool_eq_or_eq_not (b b' : Bool) : b' = b ∨ b' = !b := by
  cases b <;> cases b' <;> simp

theorem inv_hand_nil (hs : Inv b s)
    (h : Relayed (s.db b') db [] ∧ Unreceived (s.db b') db) : Inv b (hand b' db s) := by
  obtain rfl | rfl := bool_eq_or_eq_not b b'
  . exact inv_hand_sender hs h.1 (.inl rfl)
  . exact inv_hand_receiver hs h.1 h.2 (.inl rfl)

theorem inv_hand_relay (hs : Inv b s)
    (h : ∃ new, Relayed (s.db b') db new ∧ Unreceived (s.db b') db ∧ Accepted env (s.db b') new)
    (hok : b' = b → RelayOk b env s) : Inv b (hand b' db s) := by
  obtain ⟨new, hrel, hun, hacc⟩ := h
  obtain rfl | rfl := bool_eq_or_eq_not b b'
  . refine inv_hand_sender hs hrel ?_
    obtain hnil | ⟨hconn, haccepts, m, hnew, hseq, hcid⟩ := hacc
    . exact .inl hnil
    . refine .inr ⟨hconn, m, hnew, ?_, hcid⟩
      intro hup
      rw [hseq]
      exact hok rfl hup haccepts
  . exact inv_hand_receiver hs hrel hun (hacc.imp_right And.left)

theorem inv_step (s : State) (e : Event) (hs : Inv b s) (hok : e.Ok b s) : Inv b (e.step s) := by
  cases e with
  | asyncRelay b' handle event param loopback env =>
    exact inv_hand_relay hs (relayed_remoteAsyncMsgRelay handle event param loopback env _) hok
  | syncRelay b' handle event param timerType timerPeriod loopback env =>
    exact inv_hand_relay hs
      (relayed_remoteSyncMsgRelay handle event param timerType timerPeriod loopback env _) hok
  | dataInd b' env =>
    simp only [Event.step]
    split
    . exact hs
    . next msg rest hlink =>
      obtain rfl | rfl := bool_eq_or_eq_not b b'
      . exact inv_dataInd_sender hs hlink hok
      . rw [Bool.not_not] at hlink ⊢
        exact inv_dataInd_receiver env hs hlink
  | dataRsp b' mode attempts =>
    exact inv_hand_nil hs (relayed_remoteRelayDataRsp mode attempts _)
  | retransTimer b' mode attempts =>
    simp only [Event.step]
    split
    . exact inv_hand_nil hs (relayed_remoteRetransTimerCback mode attempts _)
    . exact hs
  | pm b' event mode attempts =>
    exact inv_hand_nil hs (relayed_remoteBtPmCback event mode attempts _)
  | connected =>
    simp only [Event.step]
    split
    . exact hs
    . next h =>
      simp only [Bool.or_eq_true, not_or, Bool.not_eq_true] at h
      exact inv_connected hs (by simpa [Bool.forall_bool] using h)
  | disconnected b' => exact inv_disconnected hs b'

def taken (clk : ClkRead) : Attempt := ⟨clk, true, clk, ⟨true, true⟩⟩

def Event.Delivers (b : Bool) : Event → Prop
  | .dataRsp b' _ _ => b' = b
  | .dataInd b' _ => b' = !b
  | _ => False

theorem Event.Delivers.ok {b : Bool} {e : Event} (h : e.Delivers b) (s : State) : e.Ok b s := by
  cases e with
  | dataInd b' env =>
    intro hb
    rw [Delivers, hb] at h
    cases b <;> cases h
  | dataRsp b' mode attempts => trivial
  | _ => exact h.elim

theorem msgDequeueLoop_length (clk : ClkRead) (db : Db) (queue : List RelayMsg) :
    ((msgDequeueLoop db queue (queue.map fun _ => taken clk)).relayQueue.length ≤ queue.length) ∧
      (0 < db.credits → queue ≠ [] →
        (msgDequeueLoop db queue (queue.map fun _ => taken clk)).relayQueue.length <
          queue.length) := by
  induction queue generalizing db with
  | nil => simp [msgDequeueLoop]
  | cons msg queue ih =>
    unfold msgDequeueLoop
    split
    . next h => simp [h]
    . simp only [map_cons, taken, if_true]
      have := (ih (msgSentOut (if msg.relayType = .sync then stamp msg clk else msg) (taken clk)
        { db with
          credits := db.credits - 1
          out := db.out ++ [if msg.relayType = .sync then stamp msg clk else msg] })).1
      simp only [taken] at this
      simp only [length_cons]
      omega

def backlog (b : Bool) (s : State) : Nat := (s.link b).length + 2 * (s.db b).relayQueue.length

theorem backlog_dataRsp (hs : Inv b s) (hup : up s = true)
    (hqueue : (s.db b).relayQueue ≠ []) (clk : ClkRead) :
    backlog b ((Event.dataRsp b (some .active) ((s.db b).relayQueue.map fun _ => taken clk)).step s) <
      backlog b s := by
  obtain ⟨hrel, _⟩ := relayed_remoteRelayDataRsp (some .active)
    ((s.db b).relayQueue.map fun _ => taken clk) (s.db b)
  have hpipe := congrArg List.length hrel.pipe
  simp only [hs.out b, length_map, length_append, length_nil] at hpipe
  have hshrink : (remoteRelayDataRsp (some .active) ((s.db b).relayQueue.map fun _ => taken clk)
      (s.db b)).relayQueue.length < (s.db b).relayQueue.length := by
    unfold remoteRelayDataRsp remoteMsgDequeue
    simp only [if_true]
    split
    . exact (msgDequeueLoop_length clk _ _).2 (Nat.succ_pos _) hqueue
    . next hcredits =>
      refine (msgDequeueLoop_length clk _ _).2 ?_ hqueue
      unfold remoteMsgCredits at hcredits
      omega
  unfold backlog
  simp only [Event.step, (hand_link hup).1, hand_db_self, length_append]
  omega

theorem backlog_dataInd (hlink : s.link b = msg :: rest) (env : IndEnv) :
    backlog b ((Event.dataInd (!b) env).step s) < backlog b s := by
  have hstep : ((Event.dataInd (!b) env).step s).db b = s.db b ∧
      ((Event.dataInd (!b) env).step s).link b = rest := by
    simp only [Event.step, Bool.not_not, hlink]
    refine ⟨by simp [hand], ?_⟩
    unfold hand
    dsimp only
    split <;> simp
  unfold backlog
  rw [hstep.1, hstep.2, hlink]
  simp only [length_cons]
  omega

theorem up_delivers {b : Bool} {e : Event} (h : e.Delivers b) {s : State} :
    up (e.step s) = up s ∧ ((e.step s).db b).accepted = (s.db b).accepted := by
  cases e with
  | dataRsp b' mode attempts =>
    cases h
    obtain ⟨hrel, _⟩ := relayed_remoteRelayDataRsp mode attempts (s.db b)
    refine ⟨up_hand hrel.connected, ?_⟩
    rw [Event.step, hand_db_self]
    simpa using hrel.accepted
  | dataInd b' env =>
    cases h
    simp only [Event.step]
    split
    . exact ⟨rfl, rfl⟩
    . next msg rest _ =>
      obtain ⟨new, hrel, _⟩ := relayed_remoteRelayDataInd msg env (s.db !b)
      exact ⟨up_hand hrel.connected, by simp [hand]⟩
  | _ => exact h.elim

theorem exists_drained {b : Bool} {s : State} (hs : Inv b s) (hup : up s = true) :
    ∃ events : List Event, (∀ e ∈ events, e.Delivers b) ∧
      delivered ((Run.exec Event.step s events).db !b) = (s.db b).accepted := by
  let clk : ClkRead := ⟨.none, 0, 0⟩
  let env : IndEnv := ⟨clk, clk, ⟨true, true⟩, ⟨none, true, clk, []⟩⟩
  generalize hn : backlog b s = n
  induction n using Nat.strongRecOn generalizing s with
  | ind n ih =>
    subst hn
    have hgo : ∀ e : Event, e.Delivers b → backlog b (e.step s) < backlog b s →
        ∃ events : List Event, (∀ e ∈ events, e.Delivers b) ∧
          delivered ((Run.exec Event.step s events).db !b) = (s.db b).accepted := by
      intro e he hlt
      obtain ⟨hup', hacc⟩ := up_delivers he (s := s)
      obtain ⟨es, hes, hdel⟩ := ih _ hlt (inv_step s e hs (he.ok s)) (hup'.trans hup) rfl
      refine ⟨e :: es, forall_mem_cons.mpr ⟨he, hes⟩, ?_⟩
      rw [Run.exec_cons, hdel, hacc]
    by_cases hqueue : (s.db b).relayQueue = []
    . cases hlink : s.link b with
      | nil =>
        have hids := (hs.flow hup).ids
        simp only [pending, hqueue, hlink, append_nil, map_nil] at hids
        exact ⟨[], by simp, hids⟩
      | cons msg rest => exact hgo (.dataInd (!b) env) rfl (backlog_dataInd hlink env)
    . exact hgo (.dataRsp b (some .active) _) rfl (backlog_dataRsp hs hup hqueue clk)

theorem relay_inOrder (b : Bool) (channList : Bool → List Chann)
    (hpaired : ∀ b, ∀ c ∈ channList b, ∃ c' ∈ channList (!b), c'.channId = c.channId)
    (events : List Event) (hok : Run.Along Event.step (Event.Ok b) (initial channList) events)
    (hup : up (Run.exec Event.step (initial channList) events) = true) :
    let s := Run.exec Event.step (initial channList) events
    delivered (s.db !b) ++ (pending b s).map (·.id) = (s.db b).accepted ∧
      (s.db b).accepted.Nodup ∧
      ∃ arrivals : List Event, (∀ e ∈ arrivals, e.Delivers b) ∧
        delivered ((Run.exec Event.step s arrivals).db !b) = (s.db b).accepted := by
  intro s
  have hs : Inv b s := Run.exec_inv inv_step _ events (inv_initial b hpaired) hok
  exact ⟨(hs.flow hup).ids, hs.sorted.imp Nat.ne_of_lt, exists_drained hs hup⟩

theorem relay_inOrder_three :
    let clk : ClkRead := ⟨.none, 0, 0⟩
    let relay := fun alloc => Event.asyncRelay false 7 1 [] false
      ⟨some .active, alloc, clk, [taken clk]⟩
    let s := Run.exec Event.step (initial fun _ => [⟨7, 0, 0, []⟩])
      [.connected, relay true, relay false, relay true, .dataInd true
        ⟨clk, clk, ⟨true, true⟩, ⟨none, true, clk, []⟩⟩]
    delivered (s.db true) = [0] ∧ (pending false s).map (·.id) = [1] ∧
      delivered (s.db true) ++ (pending false s).map (·.id) = (s.db false).accepted := by
  exact ⟨by decide, by decide, (relay_inOrder false (fun _ => [⟨7, 0, 0, []⟩])
    (by decide) _ (by decide) (by decide)).1⟩

theorem step_noMemory (hout : (s.db b).out = []) (hconn : (s.db b).connected = true)
    (hchann : channCheck handle (s.db b) = some chann) (event : Nat) (param : List Nat)
    (loopback : Bool) (halloc : env.alloc = false) :
    (Event.asyncRelay b handle event param loopback env).step s =
      { s with db := Function.update s.db b (nextTxSeq (s.db b)) } := by
  simp only [Event.step, remoteAsyncMsgRelay, hconn, hchann, remoteMsgSend, halloc]
  simp [hand, nextTxSeq, hout]

theorem exec_noMemory (b : Bool) (handle event : Nat) (param : List Nat) (loopback : Bool)
    (env : Env) (n : Nat) (s : State) (halloc : env.alloc = false)
    (hout : (s.db b).out = []) (hconn : (s.db b).connected = true)
    (hchann : channCheck handle (s.db b) = some chann) :
    Run.exec Event.step s
        (List.replicate (n + 1) (.asyncRelay b handle event param loopback env)) =
      { s with
        db := Function.update s.db b { s.db b with txSeq := u8 ((s.db b).txSeq + (n + 1)) } } := by
  induction n generalizing s with
  | zero => exact step_noMemory hout hconn hchann event param loopback halloc
  | succ n ih =>
    rw [replicate_succ, Run.exec_cons,
      step_noMemory hout hconn hchann event param loopback halloc, ih]
    . have : u8 (u8 ((s.db b).txSeq + 1) + (n + 1)) = u8 ((s.db b).txSeq + (n + 1 + 1)) := by
        unfold u8
        omega
      simp [nextTxSeq, this]
    . simpa [nextTxSeq] using hout
    . simpa [nextTxSeq] using hconn
    . simpa [nextTxSeq, channCheck] using hchann

theorem not_relay_inOrder_wrap :
    let clk : ClkRead := ⟨.none, 0, 0⟩
    let relay := fun alloc => Event.asyncRelay false 7 1 [] false
      ⟨some .active, alloc, clk, [taken clk]⟩
    let s := Run.exec Event.step (initial fun _ => [⟨7, 0, 0, []⟩])
      (.connected :: List.replicate 255 (relay false) ++ [relay true, .dataInd true
        ⟨clk, clk, ⟨true, true⟩, ⟨none, true, clk, []⟩⟩])
    up s = true ∧ pending false s = [] ∧ (s.db false).accepted = [0] ∧
      delivered (s.db true) = [] := by
  intro clk relay s
  have hfailed := exec_noMemory false 7 1 [] false ⟨some .active, false, clk, [taken clk]⟩ 254
    (Event.connected.step (initial fun _ => [⟨7, 0, 0, []⟩])) rfl rfl rfl rfl
  unfold s
  rw [cons_append, Run.exec_cons, Run.exec_append, hfailed]
  decide

end Remote
