import Earphone.Lib.Run
import Mathlib.Tactic.Common

/-!
This module contains the periodic advertising state machine of one Broadcast Receive State.
-/

namespace Bass

inductive PaSmState where
  | idle
  | syncReq
  | waitPast
  | synced
  | terminateReq
  deriving DecidableEq

inductive PaSmEvent where
  | cpNoSync
  | cpSyncPast
  | cpSyncNoPast
  | pastTimeout
  | stateIdle
  | stateSynchronizing
  | stateSynchronized
  | stateTerminating

inductive PaSmAction where
  | terminate
  | syncPast
  | syncNoPast
  deriving DecidableEq

inductive PaSyncState where
  | notSync
  | syncInfoReq
  | sync
  | failed
  | noPast
  deriving DecidableEq

inductive BigEncryptionState where
  | notEncrypted
  | broadcastCodeRequired
  | decrypting
  | badCode
  deriving DecidableEq

inductive PaSync where
  | notSync
  | syncPast
  | syncNoPast
  deriving DecidableEq

inductive GapPaSyncState where
  | terminated
  | synchronizingScanIdle
  | synchronizingWaitScanning
  | synchronizing
  | synchronized
  | terminating
  deriving DecidableEq

structure BrsDb where
  handle : Option Nat
  paSmState : PaSmState
  sendNotify : Bool
  brsModify : Bool
  gapPaSyncState : GapPaSyncState
  pastTimeout : Nat
  pastTimerHandle : Option Nat
  bigInfoFlags : Nat
  biginfoBisNum : Nat
  brsIsUsed : Bool
  sourceId : Nat
  paSyncState : PaSyncState
  bisSyncState : Nat
  bigEncryption : BigEncryptionState

def BrsDb.zeroed (sourceId : Nat) : BrsDb where
  handle := none
  paSmState := .idle
  sendNotify := false
  brsModify := false
  gapPaSyncState := .terminated
  pastTimeout := 0
  pastTimerHandle := none
  bigInfoFlags := 0
  biginfoBisNum := 0
  brsIsUsed := false
  sourceId := sourceId
  paSyncState := .notSync
  bisSyncState := 0
  bigEncryption := .notEncrypted

structure Answers where
  timer : Option Nat
  established : Bool
  terminated : Bool
  pastSender : Bool
  pastRecipient : Bool

def smIdle : PaSmEvent → Option PaSmAction × PaSmState
  | .cpNoSync => (none, .idle)
  | .cpSyncPast => (some .syncPast, .waitPast)
  | .cpSyncNoPast => (some .syncNoPast, .syncReq)
  | .pastTimeout => (none, .idle)
  | .stateIdle => (none, .idle)
  | .stateSynchronizing => (none, .syncReq)
  | .stateSynchronized => (none, .synced)
  | .stateTerminating => (none, .terminateReq)

def smSyncReq : PaSmEvent → Option PaSmAction × PaSmState
  | .cpNoSync => (some .terminate, .terminateReq)
  | .cpSyncPast => (none, .syncReq)
  | .cpSyncNoPast => (none, .syncReq)
  | .pastTimeout => (none, .syncReq)
  | .stateIdle => (none, .idle)
  | .stateSynchronizing => (none, .syncReq)
  | .stateSynchronized => (none, .synced)
  | .stateTerminating => (none, .terminateReq)

def smWaitPast : PaSmEvent → Option PaSmAction × PaSmState
  | .cpNoSync => (none, .idle)
  | .cpSyncPast => (none, .waitPast)
  | .cpSyncNoPast => (some .syncNoPast, .syncReq)
  | .pastTimeout => (none, .idle)
  | .stateIdle => (none, .waitPast)
  | .stateSynchronizing => (none, .syncReq)
  | .stateSynchronized => (none, .synced)
  | .stateTerminating => (none, .terminateReq)

def smSynced : PaSmEvent → Option PaSmAction × PaSmState
  | .cpNoSync => (some .terminate, .terminateReq)
  | .cpSyncPast => (none, .synced)
  | .cpSyncNoPast => (none, .synced)
  | .pastTimeout => (none, .synced)
  | .stateIdle => (none, .idle)
  | .stateSynchronizing => (none, .syncReq)
  | .stateSynchronized => (none, .synced)
  | .stateTerminating => (none, .terminateReq)

def smTerminateReq : PaSmEvent → Option PaSmAction × PaSmState
  | .cpNoSync => (none, .terminateReq)
  | .cpSyncPast => (none, .terminateReq)
  | .cpSyncNoPast => (none, .terminateReq)
  | .pastTimeout => (none, .terminateReq)
  | .stateIdle => (none, .idle)
  | .stateSynchronizing => (none, .syncReq)
  | .stateSynchronized => (none, .synced)
  | .stateTerminating => (none, .terminateReq)

def paSmTbl : PaSmState → PaSmEvent → Option PaSmAction × PaSmState
  | .idle => smIdle
  | .syncReq => smSyncReq
  | .waitPast => smWaitPast
  | .synced => smSynced
  | .terminateReq => smTerminateReq

def startPastTimer (answers : Answers) (db : BrsDb) : Bool × BrsDb :=
  match db.pastTimerHandle with
  | some _ => (false, db)
  | none => (answers.timer.isSome, { db with pastTimerHandle := answers.timer })

def stopPastTimer (db : BrsDb) : BrsDb := { db with pastTimerHandle := none }

def paAction (answers : Answers) (db : BrsDb) : PaSmAction → Bool × BrsDb
  | .terminate => (answers.terminated, db)
  | .syncPast => startPastTimer answers db
  | .syncNoPast => (answers.established, db)

def enterIdle (old : PaSmState) (db : BrsDb) : BrsDb :=
  if old = .waitPast then
    { stopPastTimer db with paSyncState := .noPast }
  else if old = .syncReq then
    { db with paSyncState := .failed }
  else
    { db with paSyncState := .notSync }

def enterSynced (old : PaSmState) (db : BrsDb) : BrsDb :=
  if old = .waitPast then
    { stopPastTimer db with paSyncState := .sync }
  else
    { db with paSyncState := .sync }

def enterState (old : PaSmState) (db : BrsDb) : BrsDb :=
  match db.paSmState with
  | .idle => enterIdle old db
  | .waitPast => { db with paSyncState := .syncInfoReq }
  | .synced => enterSynced old db
  -- The two states that wait for the controller leave the reported value as it is.
  | .syncReq => db
  | .terminateReq => db

def markModified (db : BrsDb) : BrsDb :=
  { db with
    sendNotify := true
    brsModify := true
    bigEncryption := if db.bigEncryption = .badCode then .notEncrypted else db.bigEncryption }

def paUpdateState (old : PaSmState) (db : BrsDb) : BrsDb :=
  if db.paSmState = old then
    db
  else
    let entered := enterState old db
    if entered.paSyncState = db.paSyncState then entered else markModified entered

def sendAllNotify (db : BrsDb) : BrsDb := { db with sendNotify := false, brsModify := false }

def runAction (answers : Answers) (action : Option PaSmAction) (db : BrsDb) : Bool × BrsDb :=
  match action with
  | none => (true, db)
  | some action => paAction answers db action

def paProcSmExecute (answers : Answers) (event : PaSmEvent) (notify : Bool) (db : BrsDb) : BrsDb :=
  let entry := paSmTbl db.paSmState event
  let (res, acted) := runAction answers entry.1 db
  let moved := if res then { acted with paSmState := entry.2 } else acted
  let updated := paUpdateState db.paSmState moved
  if updated.sendNotify && notify then sendAllNotify updated else updated

def handlePaSync (answers : Answers) (paSync : PaSync) (db : BrsDb) : BrsDb :=
  match paSync with
  | .syncPast =>
    if db.paSyncState ≠ .sync ∧ db.paSyncState ≠ .syncInfoReq then
      if answers.pastSender && answers.pastRecipient then
        paProcSmExecute answers .cpSyncPast false db
      else
        db
    else
      paProcSmExecute answers .cpSyncNoPast false db
  | .syncNoPast => paProcSmExecute answers .cpSyncNoPast false db
  | .notSync => paProcSmExecute answers .cpNoSync false db

def notePaSync (sync : GapPaSyncState) (db : BrsDb) : BrsDb :=
  if sync = .terminated then
    { db with gapPaSyncState := sync, bigInfoFlags := 0, biginfoBisNum := 0 }
  else
    { db with gapPaSyncState := sync }

def paSyncStateCb (answers : Answers) (sync : GapPaSyncState) (db : BrsDb) : BrsDb :=
  let noted := notePaSync sync db
  match sync with
  | .terminated => paProcSmExecute answers .stateIdle true noted
  | .synchronized => paProcSmExecute answers .stateSynchronized true noted
  | .terminating => paProcSmExecute answers .stateTerminating false noted
  | _ => paProcSmExecute answers .stateSynchronizing false noted

def brsDelete (released notify : Bool) (db : BrsDb) : BrsDb :=
  if !db.brsIsUsed then
    db
  else if db.handle.isSome && !released then
    db
  else
    { BrsDb.zeroed db.sourceId with brsModify := notify, sendNotify := notify }

def flushNotify (db : BrsDb) : BrsDb := if db.sendNotify then sendAllNotify db else db

def removeSource (released : Bool) (db : BrsDb) : BrsDb :=
  if db.paSyncState = .sync ∨ db.bisSyncState ≠ 0 then
    db
  else
    let deleted := brsDelete released true db
    if deleted.brsIsUsed then db else flushNotify deleted

def handleReleased (localApi : Bool) (db : BrsDb) : BrsDb :=
  let cleared := { db with handle := none }
  if localApi then flushNotify (brsDelete true true cleared) else cleared

def brsAdd (handle : Nat) (db : BrsDb) : BrsDb :=
  if db.brsIsUsed then
    db
  else
    { db with brsIsUsed := true, pastTimeout := 200, handle := some handle }

inductive PaEvent where
  | add (handle : Nat)
  | config (pastTimeout : Nat)
  | paSync (paSync : PaSync) (answers : Answers)
  | syncState (handle : Nat) (sync : GapPaSyncState) (answers : Answers)
  | timeout (timer : Nat) (answers : Answers)
  | released (handle : Nat) (localApi : Bool)
  | remove (released : Bool)
  | delete (released notify : Bool)
  | big (bisSyncState : Nat) (bigEncryption : BigEncryptionState)

def step (db : BrsDb) : PaEvent → BrsDb
  | .add handle => brsAdd handle db
  | .config pastTimeout => if db.brsIsUsed then { db with pastTimeout := pastTimeout } else db
  | .paSync paSync answers =>
    if db.brsIsUsed then flushNotify (handlePaSync answers paSync db) else db
  | .syncState handle sync answers =>
    if db.handle = some handle then paSyncStateCb answers sync db else db
  | .timeout timer answers =>
    if db.pastTimerHandle = some timer ∧ db.brsIsUsed then
      paProcSmExecute answers .pastTimeout true db
    else
      db
  | .released handle localApi =>
    if db.handle = some handle then handleReleased localApi db else db
  | .remove released => if db.brsIsUsed then removeSource released db else db
  | .delete released notify => brsDelete released notify db
  | .big bisSyncState bigEncryption =>
    { db with bisSyncState := bisSyncState, bigEncryption := bigEncryption }

def PaSmState.Asking (state : PaSmState) : Prop := state = .syncReq ∨ state = .terminateReq

instance : DecidablePred PaSmState.Asking :=
  fun state => inferInstanceAs (Decidable (state = .syncReq ∨ state = .terminateReq))

structure Shown (db : BrsDb) : Prop where
  timer : db.paSmState = .waitPast → db.pastTimerHandle.isSome
  infoReq : db.paSmState = .waitPast → db.paSyncState = .syncInfoReq
  sync : db.paSmState = .synced → db.paSyncState = .sync
  infoReq_only : db.paSyncState = .syncInfoReq → db.paSmState = .waitPast ∨ db.paSmState.Asking
  sync_only : db.paSyncState = .sync → db.paSmState = .synced ∨ db.paSmState.Asking

structure Waits (db : BrsDb) : Prop where
  timer : db.pastTimerHandle.isSome ↔ db.paSmState = .waitPast
  infoReq : db.paSyncState = .syncInfoReq ↔ db.paSmState = .waitPast

def AsksWhileWaiting (db : BrsDb) : PaEvent → Prop
  | .paSync paSync answers =>
    db.brsIsUsed ∧ db.paSmState = .waitPast ∧ paSync ≠ .notSync ∧ answers.established
  | .syncState handle sync _ =>
    db.handle = some handle ∧ db.paSmState = .waitPast ∧ sync ≠ .terminated ∧ sync ≠ .synchronized
  | _ => False

def PastStarts (db : BrsDb) : Prop :=
  ∀ answers : Answers, db.brsIsUsed → db.paSmState = .idle → answers.pastSender →
    answers.pastRecipient → answers.timer.isSome →
    (step db (.paSync .syncPast answers)).paSmState = .waitPast

section

variable {answers : Answers} {event : PaSmEvent} {notify : Bool} {db db' : BrsDb}

structure Alike (db db' : BrsDb) : Prop where
  paSmState : db'.paSmState = db.paSmState
  timer : db'.pastTimerHandle = db.pastTimerHandle
  paSyncState : db'.paSyncState = db.paSyncState

theorem alike_flushNotify (db : BrsDb) : Alike db (flushNotify db) := by
  unfold flushNotify
  split <;> exact ⟨rfl, rfl, rfl⟩

theorem alike_notePaSync (sync : GapPaSyncState) (db : BrsDb) : Alike db (notePaSync sync db) := by
  unfold notePaSync
  split <;> exact ⟨rfl, rfl, rfl⟩

theorem shown_alike (h : Alike db db') (hdb : Shown db) : Shown db' := by
  obtain ⟨hstate, htimer, hsync⟩ := h
  constructor
  . rw [hstate, htimer]
    exact hdb.timer
  . rw [hstate, hsync]
    exact hdb.infoReq
  . rw [hstate, hsync]
    exact hdb.sync
  . rw [hstate, hsync]
    exact hdb.infoReq_only
  . rw [hstate, hsync]
    exact hdb.sync_only

theorem waits_alike (h : Alike db db') (hdb : Waits db) : Waits db' := by
  obtain ⟨hstate, htimer, hsync⟩ := h
  constructor
  . rw [hstate, htimer]
    exact hdb.timer
  . rw [hstate, hsync]
    exact hdb.infoReq

theorem alike_updateState (old : PaSmState) (hne : db.paSmState ≠ old) :
    Alike (enterState old db) (paUpdateState old db) := by
  unfold paUpdateState
  rw [if_neg hne]
  dsimp only
  split <;> exact ⟨rfl, rfl, rfl⟩

theorem alike_notified (db : BrsDb) (notify : Bool) :
    Alike db (if db.sendNotify && notify then sendAllNotify db else db) := by
  split <;> exact ⟨rfl, rfl, rfl⟩

theorem alike_trans (h : Alike db db') (h' : Alike db' db'') : Alike db db'' :=
  ⟨h'.1.trans h.1, h'.2.trans h.2, h'.3.trans h.3⟩

def timerAfter (answers : Answers) (db : BrsDb) (action : Option PaSmAction) : Option Nat :=
  if action = some .syncPast then answers.timer else db.pastTimerHandle

theorem runAction_cases (answers : Answers) (action : Option PaSmAction) (db : BrsDb) :
    ((runAction answers action db).1 = false ∧ Alike db (runAction answers action db).2) ∨
    ((runAction answers action db).1 = true ∧
      (runAction answers action db).2 =
        { db with pastTimerHandle := timerAfter answers db action } ∧
      (action = some .syncPast → answers.timer.isSome) ∧
      (action = some .syncNoPast → answers.established)) := by
  match action with
  | none => exact .inr ⟨rfl, rfl, nofun, nofun⟩
  | some .terminate =>
    cases h : answers.terminated with
    | false => exact .inl ⟨h, rfl, rfl, rfl⟩
    | true => exact .inr ⟨h, rfl, nofun, nofun⟩
  | some .syncNoPast =>
    cases h : answers.established with
    | false => exact .inl ⟨h, rfl, rfl, rfl⟩
    | true => exact .inr ⟨h, rfl, nofun, fun _ => rfl⟩
  | some .syncPast =>
    simp only [runAction, paAction, startPastTimer]
    cases held : db.pastTimerHandle with
    | some timer => exact .inl ⟨rfl, rfl, rfl, rfl⟩
    | none =>
      cases htimer : answers.timer with
      | none => exact .inl ⟨rfl, rfl, held.symm, rfl⟩
      | some timer => exact .inr ⟨rfl, by simp [timerAfter, htimer], fun _ => rfl, nofun⟩

theorem execute_cases (answers : Answers) (event : PaSmEvent) (notify : Bool) (db : BrsDb) :
    Alike db (paProcSmExecute answers event notify db) ∨
    ∃ state, (paSmTbl db.paSmState event).2 = state ∧ state ≠ db.paSmState ∧
      ((paSmTbl db.paSmState event).1 = some .syncPast → answers.timer.isSome) ∧
      ((paSmTbl db.paSmState event).1 = some .syncNoPast → answers.established) ∧
      Alike (enterState db.paSmState { db with
        paSmState := state
        pastTimerHandle := timerAfter answers db (paSmTbl db.paSmState event).1 })
        (paProcSmExecute answers event notify db) := by
  unfold paProcSmExecute
  rcases runAction_cases answers (paSmTbl db.paSmState event).1 db with
    ⟨hres, hacted⟩ | ⟨hres, hacted, htimer, hest⟩
  . left
    simp only [hres, Bool.false_eq_true, if_false]
    apply alike_trans _ (alike_notified _ notify)
    unfold paUpdateState
    rw [if_pos hacted.paSmState]
    exact hacted
  . simp only [hres, hacted, if_true]
    by_cases hstay : (paSmTbl db.paSmState event).2 = db.paSmState
    . left
      apply alike_trans _ (alike_notified _ notify)
      unfold paUpdateState
      rw [if_pos hstay]
      refine ⟨hstay, ?_, rfl⟩
      unfold timerAfter
      split
      . next h =>
        exfalso
        revert h hstay
        cases db.paSmState <;> cases event <;> decide
      . rfl
    . right
      refine ⟨_, rfl, hstay, htimer, hest, ?_⟩
      exact alike_trans (alike_updateState _ hstay) (alike_notified _ notify)

theorem tbl_waitPast (h : (paSmTbl state event).2 = .waitPast) :
    state = .waitPast ∨ (paSmTbl state event).1 = some .syncPast := by
  revert h
  cases state <;> cases event <;> decide

theorem tbl_syncPast (h : (paSmTbl state event).1 = some .syncPast) :
    state = .idle ∧ (paSmTbl state event).2 = .waitPast := by
  revert h
  cases state <;> cases event <;> decide

theorem shown_execute (answers : Answers) (event : PaSmEvent) (notify : Bool) (hdb : Shown db) :
    Shown (paProcSmExecute answers event notify db) := by
  rcases execute_cases answers event notify db with hsame | ⟨state, hto, hne, htimer, -, hentered⟩
  . exact shown_alike hsame hdb
  . apply shown_alike hentered
    cases state with
    | idle =>
      simp only [enterState, enterIdle]
      split_ifs <;> constructor <;> simp [stopPastTimer]
    | syncReq => constructor <;> simp [enterState, PaSmState.Asking]
    | terminateReq => constructor <;> simp [enterState, PaSmState.Asking]
    | synced =>
      simp only [enterState, enterSynced]
      split_ifs <;> constructor <;> simp [stopPastTimer]
    | waitPast =>
      have haction := (tbl_waitPast hto).resolve_left fun h => hne h.symm
      constructor <;> simp [enterState, timerAfter, haction, htimer haction]

theorem waits_execute (answers : Answers) (notify : Bool) (hdb : Waits db)
    (hask : db.paSmState = .waitPast →
      (paSmTbl db.paSmState event).1 = some .syncNoPast ∧ answers.established = false ∨
      ¬(paSmTbl db.paSmState event).2.Asking) :
    Waits (paProcSmExecute answers event notify db) := by
  rcases execute_cases answers event notify db with
    hsame | ⟨state, hto, hne, htimer, hest, hentered⟩
  . exact waits_alike hsame hdb
  . apply waits_alike hentered
    have hasked : db.paSmState = .waitPast → ¬state.Asking := by
      intro hwait
      rcases hask hwait with ⟨haction, hrefused⟩ | hnot
      . rw [hest haction] at hrefused
        cases hrefused
      . rwa [hto] at hnot
    have hnone : db.paSmState ≠ .waitPast → db.pastTimerHandle = none := by
      intro hwait
      have := mt hdb.timer.mp hwait
      simpa using this
    -- only the action that asks for the transfer starts the timer
    have hkept : state ≠ .waitPast → timerAfter answers db (paSmTbl db.paSmState event).1 =
        db.pastTimerHandle := by
      intro hwait
      unfold timerAfter
      rw [if_neg]
      intro haction
      exact hwait (hto ▸ (tbl_syncPast haction).2)
    have hreport : db.paSmState ≠ .waitPast → db.paSyncState ≠ .syncInfoReq :=
      fun hwait => mt hdb.infoReq.mp hwait
    cases state with
    | idle =>
      rw [hkept (by decide)]
      simp only [enterState, enterIdle]
      split_ifs with hwait hreq
      . constructor <;> simp [stopPastTimer]
      . constructor <;> simp [hnone hwait]
      . constructor <;> simp [hnone hwait]
    | syncReq =>
      have hwait : db.paSmState ≠ .waitPast := fun h => hasked h (.inl rfl)
      rw [hkept (by decide)]
      constructor <;> simp [enterState, hnone hwait, hreport hwait]
    | terminateReq =>
      have hwait : db.paSmState ≠ .waitPast := fun h => hasked h (.inr rfl)
      rw [hkept (by decide)]
      constructor <;> simp [enterState, hnone hwait, hreport hwait]
    | synced =>
      rw [hkept (by decide)]
      simp only [enterState, enterSynced]
      split_ifs with hwait
      . constructor <;> simp [stopPastTimer]
      . constructor <;> simp [hnone hwait]
    | waitPast =>
      have haction := (tbl_waitPast hto).resolve_left fun h => hne h.symm
      constructor <;> simp [enterState, timerAfter, haction, htimer haction]

end

theorem shown_zeroed (sourceId : Nat) : Shown (BrsDb.zeroed sourceId) := by
  constructor <;> simp [BrsDb.zeroed]

theorem waits_zeroed (sourceId : Nat) : Waits (BrsDb.zeroed sourceId) := by
  constructor <;> simp [BrsDb.zeroed]

theorem alike_brsDelete (released notify : Bool) (db : BrsDb) :
    Alike db (brsDelete released notify db) ∨
    Alike (BrsDb.zeroed db.sourceId) (brsDelete released notify db) := by
  unfold brsDelete
  split_ifs
  . exact .inl ⟨rfl, rfl, rfl⟩
  . exact .inl ⟨rfl, rfl, rfl⟩
  . exact .inr ⟨rfl, rfl, rfl⟩

theorem alike_removeSource (released : Bool) (db : BrsDb) :
    Alike db (removeSource released db) ∨
    Alike (BrsDb.zeroed db.sourceId) (removeSource released db) := by
  unfold removeSource
  dsimp only
  split_ifs
  . exact .inl ⟨rfl, rfl, rfl⟩
  . exact .inl ⟨rfl, rfl, rfl⟩
  . have hflush := alike_flushNotify (brsDelete released true db)
    exact (alike_brsDelete released true db).imp (alike_trans · hflush) (alike_trans · hflush)

theorem alike_handleReleased (localApi : Bool) (db : BrsDb) :
    Alike db (handleReleased localApi db) ∨
    Alike (BrsDb.zeroed db.sourceId) (handleReleased localApi db) := by
  unfold handleReleased
  split_ifs
  . have hflush := alike_flushNotify (brsDelete true true { db with handle := none })
    rcases alike_brsDelete true true { db with handle := none } with h | h
    . exact .inl (alike_trans ⟨h.1, h.2, h.3⟩ hflush)
    . exact .inr (alike_trans h hflush)
  . exact .inl ⟨rfl, rfl, rfl⟩

theorem step_cases (db : BrsDb) (e : PaEvent) :
    (Alike db (step db e) ∨ Alike (BrsDb.zeroed db.sourceId) (step db e)) ∨
    (∃ paSync answers, e = .paSync paSync answers ∧ db.brsIsUsed ∧
      Alike (handlePaSync answers paSync db) (step db e)) ∨
    (∃ handle sync answers, e = .syncState handle sync answers ∧ db.handle = some handle ∧
      step db e = paSyncStateCb answers sync db) ∨
    (∃ timer answers, e = .timeout timer answers ∧
      step db e = paProcSmExecute answers .pastTimeout true db) := by
  have hsame : Alike db db := ⟨rfl, rfl, rfl⟩
  cases e with
  | add handle =>
    refine .inl (.inl ?_)
    simp only [step, brsAdd]
    split_ifs <;> exact ⟨rfl, rfl, rfl⟩
  | config pastTimeout =>
    refine .inl (.inl ?_)
    simp only [step]
    split_ifs <;> exact ⟨rfl, rfl, rfl⟩
  | paSync paSync answers =>
    simp only [step]
    split_ifs with hused
    . exact .inr (.inl ⟨_, _, rfl, hused, alike_flushNotify _⟩)
    . exact .inl (.inl hsame)
  | syncState handle sync answers =>
    simp only [step]
    split_ifs with hhandle
    . exact .inr (.inr (.inl ⟨_, _, _, rfl, hhandle, rfl⟩))
    . exact .inl (.inl hsame)
  | timeout timer answers =>
    simp only [step]
    split_ifs
    . exact .inr (.inr (.inr ⟨_, _, rfl, rfl⟩))
    . exact .inl (.inl hsame)
  | released handle localApi =>
    simp only [step]
    split_ifs
    . exact .inl (alike_handleReleased localApi db)
    . exact .inl (.inl hsame)
  | remove released =>
    simp only [step]
    split_ifs
    . exact .inl (alike_removeSource released db)
    . exact .inl (.inl hsame)
  | delete released notify => exact .inl (alike_brsDelete released notify db)
  | big bisSyncState bigEncryption => exact .inl (.inl ⟨rfl, rfl, rfl⟩)

theorem shown_handlePaSync (answers : Answers) (paSync : PaSync) (hdb : Shown db) :
    Shown (handlePaSync answers paSync db) := by
  unfold handlePaSync
  cases paSync with
  | notSync => exact shown_execute answers _ _ hdb
  | syncNoPast => exact shown_execute answers _ _ hdb
  | syncPast =>
    split_ifs
    . exact shown_execute answers _ _ hdb
    . exact hdb
    . exact shown_execute answers _ _ hdb

theorem shown_paSyncStateCb (answers : Answers) (sync : GapPaSyncState) (hdb : Shown db) :
    Shown (paSyncStateCb answers sync db) := by
  have hnoted := shown_alike (alike_notePaSync sync db) hdb
  cases sync <;> exact shown_execute answers _ _ hnoted

theorem shown_step (db : BrsDb) (e : PaEvent) (hdb : Shown db) : Shown (step db e) := by
  rcases step_cases db e with (h | h) | ⟨paSync, answers, rfl, -, h⟩ |
    ⟨handle, sync, answers, rfl, -, h⟩ | ⟨timer, answers, rfl, h⟩
  . exact shown_alike h hdb
  . exact shown_alike h (shown_zeroed _)
  . exact shown_alike h (shown_handlePaSync answers paSync hdb)
  . rw [h]
    exact shown_paSyncStateCb answers sync hdb
  . rw [h]
    exact shown_execute answers _ _ hdb

theorem waits_handlePaSync (answers : Answers) (paSync : PaSync) (hdb : Waits db)
    (hask : db.paSmState = .waitPast → paSync ≠ .notSync → answers.established = false) :
    Waits (handlePaSync answers paSync db) := by
  have hnoPast : paSync ≠ .notSync → Waits (paProcSmExecute answers .cpSyncNoPast false db) := by
    intro hsync
    refine waits_execute answers _ hdb fun hwait => .inl ⟨?_, hask hwait hsync⟩
    rw [hwait]
    rfl
  unfold handlePaSync
  cases paSync with
  | notSync =>
    refine waits_execute answers _ hdb fun hwait => .inr ?_
    rw [hwait]
    decide
  | syncNoPast => exact hnoPast (by decide)
  | syncPast =>
    split_ifs
    . refine waits_execute answers _ hdb fun hwait => .inr ?_
      rw [hwait]
      decide
    . exact hdb
    . exact hnoPast (by decide)

theorem waits_paSyncStateCb (answers : Answers) (sync : GapPaSyncState) (hdb : Waits db)
    (hask : db.paSmState = .waitPast → sync = .terminated ∨ sync = .synchronized) :
    Waits (paSyncStateCb answers sync db) := by
  have hnoted := waits_alike (alike_notePaSync sync db) hdb
  have hstate := (alike_notePaSync sync db).paSmState
  cases sync with
  | terminated =>
    refine waits_execute answers _ hnoted fun hwait => .inr ?_
    rw [hwait]
    decide
  | synchronized =>
    refine waits_execute answers _ hnoted fun hwait => .inr ?_
    rw [hwait]
    decide
  | terminating =>
    refine waits_execute answers _ hnoted fun hwait => ?_
    rcases hask (hstate ▸ hwait) with h | h <;> cases h
  | synchronizing =>
    refine waits_execute answers _ hnoted fun hwait => ?_
    rcases hask (hstate ▸ hwait) with h | h <;> cases h
  | synchronizingScanIdle =>
    refine waits_execute answers _ hnoted fun hwait => ?_
    rcases hask (hstate ▸ hwait) with h | h <;> cases h
  | synchronizingWaitScanning =>
    refine waits_execute answers _ hnoted fun hwait => ?_
    rcases hask (hstate ▸ hwait) with h | h <;> cases h

theorem waits_step (db : BrsDb) (e : PaEvent) (hdb : Waits db) (hask : ¬AsksWhileWaiting db e) :
    Waits (step db e) := by
  rcases step_cases db e with (h | h) | ⟨paSync, answers, rfl, hused, h⟩ |
    ⟨handle, sync, answers, rfl, hhandle, h⟩ | ⟨timer, answers, rfl, h⟩
  . exact waits_alike h hdb
  . exact waits_alike h (waits_zeroed _)
  . apply waits_alike h
    apply waits_handlePaSync answers paSync hdb
    intro hwait hsync
    by_contra hest
    exact hask ⟨hused, hwait, hsync, by simpa using hest⟩
  . rw [h]
    apply waits_paSyncStateCb answers sync hdb
    intro hwait
    by_contra hsync
    rw [not_or] at hsync
    exact hask ⟨hhandle, hwait, hsync.1, hsync.2⟩
  . rw [h]
    refine waits_execute answers _ hdb fun hwait => .inr ?_
    rw [hwait]
    decide

theorem pastStarts_of_waits (hshown : Shown db) (hwaits : Waits db) : PastStarts db := by
  intro answers hused hidle hsender hrecipient htimer
  have hnone : db.pastTimerHandle = none := by
    have := mt hwaits.timer.mp (by rw [hidle]; decide)
    simpa using this
  have hsync : db.paSyncState ≠ .sync := by
    intro h
    rcases hshown.sync_only h with h | h | h <;> rw [hidle] at h <;> cases h
  have hinfo : db.paSyncState ≠ .syncInfoReq := by
    intro h
    have := hwaits.infoReq.mp h
    rw [hidle] at this
    cases this
  simp only [step, hused, if_true]
  rw [(alike_flushNotify _).paSmState]
  unfold handlePaSync
  simp only [ne_eq, hsync, hinfo, not_false_eq_true, and_self, hsender, hrecipient, Bool.and_self,
    if_true]
  rcases execute_cases answers .cpSyncPast false db with hsame | ⟨state, hto, -, -, -, hentered⟩
  . have hstuck := hsame.timer
    unfold paProcSmExecute at hstuck
    simp only [hidle, paSmTbl, smIdle, runAction, paAction, startPastTimer, hnone, htimer, if_true,
      Bool.and_false, Bool.false_eq_true, if_false] at hstuck
    rw [(alike_updateState .idle (by simp)).timer] at hstuck
    rw [show answers.timer = none from hstuck] at htimer
    cases htimer
  . rw [hidle] at hto
    subst hto
    exact hentered.paSmState

theorem past_discipline (sourceId : Nat) (events : List PaEvent) :
    Shown (Run.exec step (BrsDb.zeroed sourceId) events) ∧
    (Run.Along step (fun db e => ¬AsksWhileWaiting db e) (BrsDb.zeroed sourceId) events →
      Waits (Run.exec step (BrsDb.zeroed sourceId) events) ∧
      PastStarts (Run.exec step (BrsDb.zeroed sourceId) events)) := by
  have hshown : Shown (Run.exec step (BrsDb.zeroed sourceId) events) := by
    apply Run.exec_inv _ _ _ (shown_zeroed sourceId) (Run.along_true _ _)
    intro db e hdb _
    exact shown_step db e hdb
  refine ⟨hshown, fun halong => ?_⟩
  have hwaits := Run.exec_inv waits_step _ _ (waits_zeroed sourceId) halong
  exact ⟨hwaits, pastStarts_of_waits hshown hwaits⟩

def Answers.granted : Answers where
  timer := some 1
  established := true
  terminated := true
  pastSender := true
  pastRecipient := true

theorem past_discipline_expired :
    Waits (Run.exec step (BrsDb.zeroed 1)
      [.add 7, .paSync .syncPast .granted, .timeout 1 .granted]) ∧
    PastStarts (Run.exec step (BrsDb.zeroed 1)
      [.add 7, .paSync .syncPast .granted, .timeout 1 .granted]) := by
  refine (past_discipline 1 [.add 7, .paSync .syncPast .granted, .timeout 1 .granted]).2 ?_
  refine ⟨nofun, ?_, nofun, trivial⟩
  rintro ⟨-, hwait, -⟩
  revert hwait
  decide

theorem not_past_discipline :
    (¬ ∀ sourceId events, Waits (Run.exec step (BrsDb.zeroed sourceId) events)) ∧
    (¬ ∀ sourceId events, PastStarts (Run.exec step (BrsDb.zeroed sourceId) events)) ∧
    ¬ ∀ sourceId events,
      (Run.exec step (BrsDb.zeroed sourceId) events).paSyncState = .sync ↔
        (Run.exec step (BrsDb.zeroed sourceId) events).paSmState = .synced := by
  refine ⟨fun h => ?_, fun h => ?_, fun h => ?_⟩
  . have hwaits := h 1 [.add 7, .paSync .syncPast .granted, .paSync .syncNoPast .granted]
    exact absurd hwaits.timer (by decide)
  . have hstarts := h 1 [.add 7, .paSync .syncPast .granted, .paSync .syncNoPast .granted,
      .syncState 7 .synchronized .granted, .syncState 7 .terminated .granted]
    exact absurd (hstarts .granted rfl rfl rfl rfl rfl) (by decide)
  . have hsync := h 1 [.add 7, .paSync .syncNoPast .granted, .syncState 7 .synchronized .granted,
      .paSync .notSync .granted]
    exact absurd hsync (by decide)

end Bass
