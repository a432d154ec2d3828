import Earphone.Latency.Dynamic
import Earphone.Lib.Table

namespace Latency

open List

structure Entry (α : Type) where
  addr : Nat
  db : α
  deriving DecidableEq

structure Mgr (α : Type) where
  handles : List (Entry α)
  id : Nat
  deriving DecidableEq

namespace Mgr

variable {α ε : Type} (idOf : α → Nat)

def empty : Mgr α := { handles := [], id := 0 }

def find (addr : Nat) (m : Mgr α) : Option (Entry α) := Table.find? Entry.addr m.handles addr

def findById (id : Nat) (m : Mgr α) : Option (Entry α) :=
  Table.find? (fun e => idOf e.db) m.handles id

def modify (addr : Nat) (f : α → α) (m : Mgr α) : Mgr α :=
  { m with handles := Table.modify Entry.addr m.handles addr fun e => { e with db := f e.db } }

def act (addr : Nat) (f : α → α × List ε) (m : Mgr α) : Mgr α × List (Nat × ε) :=
  match m.find addr with
  | none => (m, [])
  | some e => (m.modify addr fun db => (f db).1, (f e.db).2.map fun out => (addr, out))

def actById (id : Nat) (f : α → α × List ε) (m : Mgr α) : Mgr α × List (Nat × ε) :=
  match m.findById idOf id with
  | none => (m, [])
  | some e => m.act e.addr f

def register (addr : Nat) (make : Nat → α) (m : Mgr α) : Mgr α :=
  match m.find addr with
  | some _ => m
  | none => { handles := m.handles ++ [{ addr, db := make m.id }], id := u8 (m.id + 1) }

def unregister (addr : Nat) (m : Mgr α) : Mgr α :=
  { m with handles := Table.erase Entry.addr m.handles addr }

end Mgr

inductive EvalEvt where
  | stable
  | unstable
  deriving DecidableEq

structure EvalDb where
  dejitterTimer : Option SysTimer
  varianceTimer : Option SysTimer
  lastClk : Nat
  count : Nat
  varCheckTime : Nat
  evalReady : Bool
  intervalUnstable : Bool
  sensitivityLevel : Nat
  id : Nat
  dejitterTimerStart : Bool
  varCheckTimerStart : Bool
  deriving DecidableEq

inductive EvalTimer where
  | dejitter
  | variance

def evalTimerOf (timer : EvalTimer) (db : EvalDb) : Option SysTimer :=
  match timer with
  | .dejitter => db.dejitterTimer
  | .variance => db.varianceTimer

def varCheckTime1 : Nat := 60000000

def varCheckTime2 : Nat := 3000000

def stdWindow : Nat := 16

def dejitterTimerSensLevelTable : List Nat := [3000000, 5000000, 7000000, 9000000]

def evaluatorRegister (dejitter variance : Bool) (id : Nat) : EvalDb where
  dejitterTimer := sysTimerCreate dejitter id 3000000
  varianceTimer := sysTimerCreate variance id varCheckTime2
  lastClk := 0
  count := 0
  varCheckTime := varCheckTime2
  evalReady := false
  intervalUnstable := false
  sensitivityLevel := 0
  id := id
  dejitterTimerStart := false
  varCheckTimerStart := false

def evaluatorReset (db : EvalDb) : EvalDb :=
  { db with
    dejitterTimer := sysTimerStop db.dejitterTimer
    varianceTimer := sysTimerStop db.varianceTimer
    lastClk := 0
    count := 0
    evalReady := false
    intervalUnstable := false
    dejitterTimerStart := false
    varCheckTimerStart := false }

/--
`audio_interval_evaluator_change_sensitivity`. The variance timer is created again with the timer id
0.
-/
def changeSensitivity (dejitter variance : Bool) (level : Nat) (db : EvalDb) : EvalDb :=
  let db := evaluatorReset db
  { db with
    sensitivityLevel := level
    varCheckTime := varCheckTime1
    dejitterTimer :=
      if db.dejitterTimer.isSome then
        sysTimerCreate dejitter db.id (dejitterTimerSensLevelTable.getD level 0)
      else
        none
    varianceTimer :=
      if db.varianceTimer.isSome then sysTimerCreate variance 0 varCheckTime1 else none }

def intervalUnits (clk lastClk : Nat) : Nat :=
  u32 (u32 (u32 (clk * 16) + 2 ^ 32 - u32 (lastClk * 16)) / 16 * 625)

def evalReadyUpdate (high calm : Bool) (db : EvalDb) : EvalDb × List EvalEvt :=
  if db.varCheckTimerStart then
    (db, [])
  else if high then
    ({ db with
      intervalUnstable := true
      dejitterTimer := sysTimerStop db.dejitterTimer
      dejitterTimerStart := false
      varianceTimer := sysTimerRestart db.varCheckTime db.varianceTimer
      varCheckTimerStart := true }, [.unstable])
  else if db.intervalUnstable && calm && !db.dejitterTimerStart then
    ({ db with dejitterTimerStart := true, dejitterTimer := sysTimerStart db.dejitterTimer }, [])
  else
    (db, [])

def evaluatorUpdate (clk : Nat) (high calm : Bool) (db : EvalDb) : EvalDb × List EvalEvt :=
  if db.lastClk = 0 then
    ({ db with lastClk := clk }, [])
  else if 1000000 < intervalUnits clk db.lastClk then
    (evaluatorReset { db with lastClk := clk }, [])
  else
    let db := { db with lastClk := clk, count := u32 (db.count + 1) }
    if db.evalReady = false then
      if 3 * stdWindow < db.count then
        ({ db with evalReady := true, intervalUnstable := false }, [.stable])
      else
        (db, [])
    else if db.count = 2 ^ 32 - 1 then
      (evaluatorReset db, [])
    else
      evalReadyUpdate high calm db

def evalTimeoutAction (timer : EvalTimer) (db : EvalDb) : EvalDb × List EvalEvt :=
  match timer with
  | .variance => ({ db with varCheckTimerStart := false }, [])
  | .dejitter =>
    if db.evalReady then
      ({ db with dejitterTimerStart := false, intervalUnstable := false }, [.stable])
    else
      ({ db with dejitterTimerStart := false }, [])

def expire (kind : TimerKind) (db : BufferDb) : BufferDb :=
  match kind with
  | .decCheck => { db with decCheckTimer := sysTimerStop db.decCheckTimer }
  | .latResume => { db with resumeTimer := sysTimerStop db.resumeTimer }
  | .check => { db with checkTimer := sysTimerStop db.checkTimer }

def evalExpire (timer : EvalTimer) (db : EvalDb) : EvalDb :=
  match timer with
  | .dejitter => { db with dejitterTimer := sysTimerStop db.dejitterTimer }
  | .variance => { db with varianceTimer := sysTimerStop db.varianceTimer }

def kindOf (event : Nat) : Option TimerKind :=
  if event = 0 then some .decCheck
  else if event = 1 then some .latResume
  else if event = 2 then some .check
  else none

def timeoutCback (timerId : Nat) (m : Mgr BufferDb) : Mgr BufferDb × List (Nat × Evt) :=
  match kindOf (timerId / 2 ^ 16) with
  | none => (m, [])
  | some kind => m.actById BufferDb.id (u8 (timerId % 2 ^ 16)) (timeoutAction kind)

def evalTimeoutCback (timer : EvalTimer) (timerId : Nat) (m : Mgr EvalDb) :
    Mgr EvalDb × List (Nat × EvalEvt) :=
  m.actById EvalDb.id (u8 timerId) (evalTimeoutAction timer)

structure Sys where
  latency : Mgr BufferDb
  eval : Mgr EvalDb
  latencyOut : List (Nat × Evt)
  evalOut : List (Nat × EvalEvt)

def Sys.initial : Sys where
  latency := .empty
  eval := .empty
  latencyOut := []
  evalOut := []

def Sys.setLatency (s : Sys) (m : Mgr BufferDb × List (Nat × Evt)) : Sys :=
  { s with latency := m.1, latencyOut := m.2, evalOut := [] }

def Sys.setEval (s : Sys) (m : Mgr EvalDb × List (Nat × EvalEvt)) : Sys :=
  { s with eval := m.1, latencyOut := [], evalOut := m.2 }

def call (e : Event) (db : BufferDb) : BufferDb :=
  match e with
  | .timeout _ => db
  | e => step db e

inductive SysEvent where
  | register (addr : Nat) (ent : BufferEnt)
  | unregister (addr : Nat)
  | call (addr : Nat) (e : Event)
  | expiry (addr : Nat) (kind : TimerKind)
  | evalRegister (addr : Nat) (dejitter variance : Bool)
  | evalUnregister (addr : Nat)
  | evalReset (addr : Nat)
  | changeSensitivity (addr : Nat) (dejitter variance : Bool) (level : Nat)
  | evalUpdate (addr : Nat) (clk : Nat) (high calm : Bool)
  | evalExpiry (addr : Nat) (timer : EvalTimer)

def latencyExpiry (addr : Nat) (kind : TimerKind) (m : Mgr BufferDb) :
    Mgr BufferDb × List (Nat × Evt) :=
  match (m.find addr).bind fun e => timerOf kind e.db with
  | none => (m, [])
  | some timer =>
    if timer.pending then timeoutCback timer.timerId (m.modify addr (expire kind)) else (m, [])

def evalExpiry (addr : Nat) (timer : EvalTimer) (m : Mgr EvalDb) :
    Mgr EvalDb × List (Nat × EvalEvt) :=
  match (m.find addr).bind fun e => evalTimerOf timer e.db with
  | none => (m, [])
  | some t =>
    if t.pending then evalTimeoutCback timer t.timerId (m.modify addr (evalExpire timer))
    else (m, [])

def sysStep (s : Sys) : SysEvent → Sys
  | .register addr ent => s.setLatency (s.latency.register addr (register ent), [])
  | .unregister addr => s.setLatency (s.latency.unregister addr, [])
  | .call addr e => s.setLatency (s.latency.modify addr (call e), [])
  | .expiry addr kind => s.setLatency (latencyExpiry addr kind s.latency)
  | .evalRegister addr dejitter variance =>
    s.setEval (s.eval.register addr (evaluatorRegister dejitter variance), [])
  | .evalUnregister addr => s.setEval (s.eval.unregister addr, [])
  | .evalReset addr => s.setEval (s.eval.modify addr evaluatorReset, [])
  | .changeSensitivity addr dejitter variance level =>
    s.setEval (s.eval.modify addr (changeSensitivity dejitter variance level), [])
  | .evalUpdate addr clk high calm => s.setEval (s.eval.act addr (evaluatorUpdate clk high calm))
  | .evalExpiry addr timer => s.setEval (evalExpiry addr timer s.eval)

def OwnExpiry (s : Sys) : SysEvent → Prop
  | .expiry addr kind =>
    ∀ e timer, s.latency.find addr = some e → timerOf kind e.db = some timer → timer.pending →
      latencyExpiry addr kind s.latency =
        s.latency.act addr fun db => timeoutAction kind (expire kind db)
  | .evalExpiry addr timer =>
    ∀ e t, s.eval.find addr = some e → evalTimerOf timer e.db = some t → t.pending →
      evalExpiry addr timer s.eval =
        s.eval.act addr fun db => evalTimeoutAction timer (evalExpire timer db)
  | _ => True

def FreeId {α : Type} (idOf : α → Nat) (m : Mgr α) : Prop := ∀ e ∈ m.handles, idOf e.db ≠ m.id

def Distinct (s : Sys) : SysEvent → Prop
  | .register _ _ => FreeId BufferDb.id s.latency
  | .evalRegister _ _ _ => FreeId EvalDb.id s.eval
  | .changeSensitivity addr _ variance _ =>
    ∀ e, s.eval.find addr = some e → e.db.id = 0 ∨ e.db.varianceTimer = none ∨ variance = false
  | _ => True

namespace Mgr

variable {α ε : Type} {idOf : α → Nat} {good : α → Prop} {m : Mgr α} {addr : Nat}

structure Ok (idOf : α → Nat) (good : α → Prop) (m : Mgr α) : Prop where
  addrs : (m.handles.map Entry.addr).Nodup
  ids : (m.handles.map fun e => idOf e.db).Nodup
  good : ∀ e ∈ m.handles, good e.db
  id_lt : m.id < 2 ^ 8

theorem ok_empty : (empty : Mgr α).Ok idOf good := by
  constructor <;> simp [empty]

theorem ok_modify (h : m.Ok idOf good) (hid : ∀ db, idOf (f db) = idOf db)
    (hgood : ∀ e, m.find addr = some e → good e.db → good (f e.db)) :
    (m.modify addr f).Ok idOf good := by
  constructor
  . have hkeys := Table.keys_modify m.handles addr (fun e : Entry α => show
      ({ e with db := f e.db } : Entry α).addr = e.addr from rfl)
    rw [modify, hkeys]
    exact h.addrs
  . unfold modify Table.modify
    rw [map_map]
    convert h.ids using 1
    apply map_congr_left
    intro e _
    simp only [Function.comp]
    split
    . exact hid e.db
    . rfl
  . intro e he
    obtain ⟨b, hb, rfl⟩ := Table.mem_modify.mp he
    split
    . next haddr =>
      apply hgood b _ (h.good b hb)
      subst haddr
      exact Table.find?_of_mem h.addrs hb
    . exact h.good b hb
  . exact h.id_lt

theorem ok_register (h : m.Ok idOf good) (hfree : FreeId idOf m)
    (hid : idOf (make m.id) = m.id) (hgood : good (make m.id)) :
    (m.register addr make).Ok idOf good := by
  unfold register
  split
  . exact h
  . next hnone =>
    have hnew : addr ∉ m.handles.map Entry.addr := by
      intro hmem
      obtain ⟨e, he, rfl⟩ := mem_map.mp hmem
      have hsome : m.find e.addr = some e := Table.find?_of_mem h.addrs he
      rw [hsome] at hnone
      cases hnone
    constructor
    . rw [map_append]
      refine h.addrs.append (nodup_singleton _) ?_
      simpa using hnew
    . rw [map_append]
      refine h.ids.append (nodup_singleton _) ?_
      simp only [map_cons, map_nil, hid, disjoint_singleton]
      rintro hmem
      obtain ⟨e, he, hsame⟩ := mem_map.mp hmem
      exact hfree e he hsame
    . intro e he
      rcases mem_append.mp he with he | he
      . exact h.good e he
      . rw [mem_singleton.mp he]
        exact hgood
    . simp only [u8]
      omega

theorem ok_unregister (h : m.Ok idOf good) : (m.unregister addr).Ok idOf good := by
  refine ⟨Table.nodup_erase h.addrs addr, ?_, ?_, h.id_lt⟩
  . exact h.ids.sublist (filter_sublist.map _)
  . intro e he
    exact h.good e (Table.mem_erase.mp he).1

theorem ok_act {f : α → α × List ε} (h : m.Ok idOf good) (hid : ∀ db, idOf (f db).1 = idOf db)
    (hgood : ∀ db, good db → good (f db).1) : (m.act addr f).1.Ok idOf good := by
  unfold act
  split
  . exact h
  . exact ok_modify h hid fun e _ => hgood e.db

theorem mem_of_find (h : m.find addr = some e) : e ∈ m.handles ∧ e.addr = addr :=
  Table.mem_of_find? h

theorem actById_eq (h : m.Ok idOf good) (he : m.find addr = some e)
    (f : α → α × List ε) : m.actById idOf (idOf e.db) f = m.act addr f := by
  obtain ⟨hmem, haddr⟩ := mem_of_find he
  have hfind : m.findById idOf (idOf e.db) = some e :=
    @Table.find?_of_mem (Entry α) Nat _ (fun e => idOf e.db) _ h.ids e hmem
  unfold actById
  rw [hfind]
  simp only [haddr]

theorem find_modify (he : m.find addr = some e) (f : α → α) :
    (m.modify addr f).find addr = some { e with db := f e.db } := by
  have haddr := (mem_of_find he).2
  have hmod := Table.find?_modify m.handles addr addr (fun e : Entry α => show
    ({ e with db := f e.db } : Entry α).addr = e.addr from rfl)
  have hfind : Table.find? Entry.addr m.handles addr = some e := he
  unfold find modify
  rw [hmod, hfind, Option.map_some, if_pos haddr]

theorem act_modify (he : m.find addr = some e) (f : α → α) (g : α → α × List ε) :
    (m.modify addr f).act addr g = m.act addr fun db => g (f db) := by
  unfold act
  rw [find_modify he, he]
  simp only [modify, Table.modify, map_map]
  congr 2
  apply map_congr_left
  intro b _
  simp only [Function.comp]
  split
  . simp
  . next h => simp [h]

end Mgr

def OwnId (timerId : Nat) (timer : Option SysTimer) : Prop :=
  ∀ t, timer = some t → t.timerId = timerId

@[simp]
theorem ownId_none : OwnId timerId none := nofun

@[simp]
theorem ownId_create : OwnId timerId (sysTimerCreate created timerId n) := by
  unfold sysTimerCreate
  split
  . rintro t ⟨⟩
    rfl
  . exact ownId_none

theorem ownId_map (hf : ∀ t, (f t).timerId = t.timerId)
    (h : OwnId timerId timer) : OwnId timerId (timer.map f) := by
  intro t ht
  obtain ⟨t', ht', rfl⟩ := Option.map_eq_some_iff.mp ht
  rw [hf]
  exact h t' ht'

theorem ownId_start (h : OwnId timerId timer) : OwnId timerId (sysTimerStart timer) :=
  ownId_map (fun _ => rfl) h

theorem ownId_stop (h : OwnId timerId timer) : OwnId timerId (sysTimerStop timer) :=
  ownId_map (fun _ => rfl) h

theorem ownId_restart (h : OwnId timerId timer) : OwnId timerId (sysTimerRestart n timer) :=
  ownId_map (fun _ => rfl) h

structure Good (db : BufferDb) : Prop where
  dec : OwnId (timerIdOf .decCheck db.id) db.decCheckTimer
  res : OwnId (timerIdOf .latResume db.id) db.resumeTimer
  check : OwnId (timerIdOf .check db.id) db.checkTimer
  id_lt : db.id < 2 ^ 8

def Stays (db db' : BufferDb) : Prop := db'.id = db.id ∧ (Good db → Good db')

section

variable {db : BufferDb} {created : Bool}

theorem stays_trans (h : Stays db db') (h' : Stays db' db'') : Stays db db'' :=
  ⟨h'.1.trans h.1, fun hdb => h'.2 (h.2 hdb)⟩

theorem stays_of_timers (hid : db'.id = db.id)
    (hdec : db'.decCheckTimer = db.decCheckTimer ∨ db'.decCheckTimer = none)
    (hres : db'.resumeTimer = db.resumeTimer ∨ db'.resumeTimer = none)
    (hcheck : db'.checkTimer = db.checkTimer ∨ db'.checkTimer = none) : Stays db db' := by
  refine ⟨hid, fun h => ⟨?_, ?_, ?_, hid ▸ h.id_lt⟩⟩
  . rw [hid]
    rcases hdec with hdec | hdec <;> rw [hdec]
    . exact h.dec
    . exact ownId_none
  . rw [hid]
    rcases hres with hres | hres <;> rw [hres]
    . exact h.res
    . exact ownId_none
  . rw [hid]
    rcases hcheck with hcheck | hcheck <;> rw [hcheck]
    . exact h.check
    . exact ownId_none

theorem stays_startDecCheck (timeoutUs : Nat) : Stays db (startDecCheck created timeoutUs db) := by
  unfold startDecCheck
  split
  . exact ⟨rfl, fun h => ⟨ownId_start ownId_create, h.res, h.check, h.id_lt⟩⟩
  . exact ⟨rfl, id⟩

theorem stays_decrease (n : Nat) : Stays db (lowLatDynamicDecrease created n db).1 := by
  unfold lowLatDynamicDecrease
  dsimp only
  split_ifs
  . exact ⟨rfl, id⟩
  . refine stays_trans ?_ (stays_startDecCheck _)
    exact stays_of_timers rfl (.inl rfl) (.inl rfl) (.inl rfl)
  . exact stays_of_timers rfl (.inl rfl) (.inl rfl) (.inl rfl)

theorem stays_increase (n : Nat) (autoDec : Bool) :
    Stays db (lowLatDynamicIncrease created n autoDec db).1 := by
  cases autoDec with
  | true =>
    refine stays_trans (@stays_startDecCheck db created (dynamicDecCheckTime * 2)) ?_
    exact stays_of_timers rfl (.inl rfl) (.inl rfl) (.inl rfl)
  | false => exact stays_of_timers rfl (.inr rfl) (.inl rfl) (.inl rfl)

theorem stays_countStable (db : BufferDb) : Stays db (countStable db).2 := by
  unfold countStable
  dsimp only
  split_ifs
  . exact stays_of_timers rfl (.inl rfl) (.inl rfl) (.inr rfl)
  . exact ⟨rfl, fun h => ⟨h.dec, h.res, ownId_start h.check, h.id_lt⟩⟩

theorem stays_adjustCheck (env : Env) (db : BufferDb) : Stays db (adjustCheck env db).2 := by
  unfold adjustCheck
  split_ifs
  . exact ⟨rfl, id⟩
  . exact stays_countStable db
  . split
    . exact ⟨rfl, id⟩
    . exact stays_of_timers rfl (.inl rfl) (.inl rfl) (.inr rfl)
    . exact stays_countStable db
  . exact ⟨rfl, fun h => ⟨h.dec, h.res, ownId_start ownId_create, h.id_lt⟩⟩

theorem stays_plcNext (env : Env) (n : Nat) (db : BufferDb) : Stays db (plcNext env n db).1 := by
  unfold plcNext
  dsimp only
  split_ifs
  . exact ⟨rfl, id⟩
  . exact ⟨rfl, id⟩
  . exact ⟨rfl, id⟩
  . exact stays_adjustCheck env db
  . refine stays_trans (stays_adjustCheck env db) ?_
    exact stays_of_timers rfl (.inl rfl) (.inl rfl) (.inr rfl)
  . exact stays_adjustCheck env db

theorem stays_plcOther (env : Env) (n : Nat) (db : BufferDb) : Stays db (plcOther env n db).1 := by
  unfold plcOther
  split_ifs
  . exact ⟨rfl, id⟩
  . exact ⟨rfl, id⟩
  . exact stays_adjustCheck env db
  . exact stays_of_timers rfl (.inl rfl) (.inl rfl) (.inr rfl)
  . exact stays_of_timers rfl (.inl rfl) (.inl rfl) (.inr rfl)

theorem stays_handlePlcEvent (env : Env) (localSeq plcLocalSeq n : Nat) (db : BufferDb) :
    Stays db (handlePlcEvent env localSeq plcLocalSeq n db).1 := by
  have hstart : Stays db { db with decCheckTimer := sysTimerStart db.decCheckTimer } :=
    ⟨rfl, fun h => ⟨ownId_start h.dec, h.res, h.check, h.id_lt⟩⟩
  unfold handlePlcEvent
  dsimp only
  split_ifs
  . exact stays_trans hstart (stays_plcNext env n _)
  . exact stays_trans hstart (stays_plcOther env n _)

theorem stays_dynamicSet (latency : Nat) (autoResume : Bool) :
    Stays db (dynamicSet created latency autoResume db) := by
  unfold dynamicSet
  dsimp only
  split_ifs
  . split
    . exact ⟨rfl, fun h => ⟨h.dec, ownId_start ownId_create, h.check, h.id_lt⟩⟩
    . next timer htimer =>
      refine ⟨rfl, fun h => ⟨h.dec, ?_, h.check, h.id_lt⟩⟩
      have hres : OwnId (timerIdOf .latResume db.id) (some timer) := htimer ▸ h.res
      exact ownId_start hres
  . exact stays_of_timers rfl (.inl rfl) (.inl rfl) (.inl rfl)

theorem stays_bufferReset (db : BufferDb) : Stays db (bufferReset db) :=
  stays_of_timers rfl (.inl rfl) (.inl rfl) (.inr rfl)

theorem stays_expire (kind : TimerKind) (db : BufferDb) : Stays db (expire kind db) := by
  cases kind with
  | decCheck => exact ⟨rfl, fun h => ⟨ownId_stop h.dec, h.res, h.check, h.id_lt⟩⟩
  | latResume => exact ⟨rfl, fun h => ⟨h.dec, ownId_stop h.res, h.check, h.id_lt⟩⟩
  | check => exact ⟨rfl, fun h => ⟨h.dec, h.res, ownId_stop h.check, h.id_lt⟩⟩

theorem stays_timeout (kind : TimerKind) (db : BufferDb) : Stays db (timeoutAction kind db).1 := by
  cases kind with
  | decCheck => exact stays_of_timers rfl (.inr rfl) (.inl rfl) (.inl rfl)
  | latResume => exact stays_of_timers rfl (.inl rfl) (.inr rfl) (.inl rfl)
  | check => exact stays_of_timers rfl (.inl rfl) (.inl rfl) (.inr rfl)

theorem stays_call (e : Event) (db : BufferDb) : Stays db (call e db) := by
  have hsame : ∀ db' : BufferDb, db'.id = db.id → db'.decCheckTimer = db.decCheckTimer →
      db'.resumeTimer = db.resumeTimer → db'.checkTimer = db.checkTimer → Stays db db' :=
    fun db' hid hdec hres hcheck => stays_of_timers hid (.inl hdec) (.inl hres) (.inl hcheck)
  cases e with
  | decrease created n => exact stays_decrease n
  | increase created n autoDec => exact stays_increase n autoDec
  | relayedDecrease created previous n =>
    simp only [call, step]
    split_ifs
    . exact ⟨rfl, id⟩
    . exact stays_trans (hsame (setPlcCount previous db) rfl rfl rfl rfl) (stays_decrease n)
  | relayedIncrease created previous n autoDec =>
    simp only [call, step]
    split_ifs
    . exact ⟨rfl, id⟩
    . exact stays_trans (hsame (setPlcCount previous db) rfl rfl rfl rfl)
        (stays_increase n autoDec)
  | plc env localSeq plcLocalSeq n => exact stays_handlePlcEvent ..
  | timeout kind => exact ⟨rfl, id⟩
  | intervalStable =>
    simp only [call, step, handleIntervalStableEvt]
    split_ifs <;> exact ⟨rfl, id⟩
  | intervalUnstable => exact stays_of_timers rfl (.inr rfl) (.inl rfl) (.inl rfl)
  | bufferReset => exact stays_bufferReset db
  | reset => exact stays_of_timers rfl (.inr rfl) (.inr rfl) (.inr rfl)
  | resume => exact stays_of_timers rfl (.inl rfl) (.inr rfl) (.inl rfl)
  | dynamicSet created latency autoResume => exact stays_dynamicSet latency autoResume
  | setDynamicLatencyOn on => exact hsame _ rfl rfl rfl rfl
  | proxyLatencySet latency fixed => exact hsame _ rfl rfl rfl rfl
  | proxyReset =>
    refine stays_trans ?_ (stays_bufferReset _)
    exact stays_of_timers rfl (.inr rfl) (.inr rfl) (.inr rfl)
  | takeOver msg => exact hsame _ rfl rfl rfl rfl
  | ultraLowLatencyPlcReq n => exact hsame _ rfl rfl rfl rfl
  | recordUpdate latencyReport => exact hsame _ rfl rfl rfl rfl
  | bufferWrite n => exact hsame _ rfl rfl rfl rfl
  | bufferState playing => exact hsame _ rfl rfl rfl rfl

theorem good_register (ent : BufferEnt) {id : Nat} (hid : id < 2 ^ 8) : Good (register ent id) :=
  ⟨ownId_none, ownId_none, ownId_none, hid⟩

theorem timerId_of_good (h : Good db)
    (htimer : timerOf kind db = some timer) : timer.timerId = timerIdOf kind db.id := by
  cases kind with
  | decCheck => exact h.dec timer htimer
  | latResume => exact h.res timer htimer
  | check => exact h.check timer htimer

theorem kindOf_timerIdOf (kind : TimerKind) {id : Nat} (hid : id < 2 ^ 8) :
    kindOf (timerIdOf kind id / 2 ^ 16) = some kind ∧ u8 (timerIdOf kind id % 2 ^ 16) = id := by
  have hdiv : timerIdOf kind id / 2 ^ 16 = kind.code := by
    unfold timerIdOf
    omega
  have hmod : timerIdOf kind id % 2 ^ 16 = id := by
    unfold timerIdOf
    omega
  rw [hdiv, hmod]
  refine ⟨by cases kind <;> rfl, Nat.mod_eq_of_lt hid⟩

end

structure EvalGood (db : EvalDb) : Prop where
  dejitter : OwnId db.id db.dejitterTimer
  variance : OwnId db.id db.varianceTimer
  id_lt : db.id < 2 ^ 8

theorem evalGood_register (dejitter variance : Bool) {id : Nat} (hid : id < 2 ^ 8) :
    EvalGood (evaluatorRegister dejitter variance id) :=
  ⟨ownId_create, ownId_create, hid⟩

theorem evalGood_reset (h : EvalGood db) : EvalGood (evaluatorReset db) :=
  ⟨ownId_stop h.dejitter, ownId_stop h.variance, h.id_lt⟩

theorem evalGood_expire (timer : EvalTimer) (h : EvalGood db) : EvalGood (evalExpire timer db) := by
  cases timer with
  | dejitter => exact ⟨ownId_stop h.dejitter, h.variance, h.id_lt⟩
  | variance => exact ⟨h.dejitter, ownId_stop h.variance, h.id_lt⟩

theorem evalGood_changeSensitivity (dejitter variance : Bool) (level : Nat) (h : EvalGood db)
    (hvar : db.id = 0 ∨ db.varianceTimer = none ∨ variance = false) :
    EvalGood (changeSensitivity dejitter variance level db) := by
  refine ⟨?_, ?_, h.id_lt⟩
  . simp only [changeSensitivity]
    split
    . exact ownId_create
    . exact ownId_none
  . simp only [changeSensitivity]
    rcases hvar with hid | hnone | hnot
    . split
      . show OwnId db.id _
        rw [hid]
        exact ownId_create
      . exact ownId_none
    . simp [evaluatorReset, sysTimerStop, hnone]
    . simp [sysTimerCreate, hnot]

theorem evalGood_readyUpdate (high calm : Bool) (h : EvalGood db) :
    EvalGood (evalReadyUpdate high calm db).1 := by
  unfold evalReadyUpdate
  split_ifs
  . exact h
  . exact ⟨ownId_stop h.dejitter, ownId_restart h.variance, h.id_lt⟩
  . exact ⟨ownId_start h.dejitter, h.variance, h.id_lt⟩
  . exact h

theorem evalReadyUpdate_id (high calm : Bool) (db : EvalDb) :
    (evalReadyUpdate high calm db).1.id = db.id := by
  unfold evalReadyUpdate
  split_ifs <;> rfl

theorem evalGood_update (clk : Nat) (high calm : Bool) (h : EvalGood db) :
    EvalGood (evaluatorUpdate clk high calm db).1 := by
  unfold evaluatorUpdate
  dsimp only
  split_ifs
  . exact ⟨h.dejitter, h.variance, h.id_lt⟩
  . exact evalGood_reset ⟨h.dejitter, h.variance, h.id_lt⟩
  . exact ⟨h.dejitter, h.variance, h.id_lt⟩
  . exact ⟨h.dejitter, h.variance, h.id_lt⟩
  . exact evalGood_reset ⟨h.dejitter, h.variance, h.id_lt⟩
  . exact evalGood_readyUpdate high calm ⟨h.dejitter, h.variance, h.id_lt⟩

theorem evaluatorUpdate_id (clk : Nat) (high calm : Bool) (db : EvalDb) :
    (evaluatorUpdate clk high calm db).1.id = db.id := by
  unfold evaluatorUpdate
  dsimp only
  split_ifs
  any_goals rfl
  exact evalReadyUpdate_id high calm _

theorem evalGood_timeout (timer : EvalTimer) (h : EvalGood db) :
    EvalGood (evalTimeoutAction timer db).1 := by
  cases timer with
  | variance => exact ⟨h.dejitter, h.variance, h.id_lt⟩
  | dejitter =>
    unfold evalTimeoutAction
    dsimp only
    split_ifs <;> exact ⟨h.dejitter, h.variance, h.id_lt⟩

theorem evalTimeout_id (timer : EvalTimer) (db : EvalDb) :
    (evalTimeoutAction timer db).1.id = db.id := by
  cases timer with
  | variance => rfl
  | dejitter =>
    unfold evalTimeoutAction
    dsimp only
    split_ifs <;> rfl

theorem evalTimerId_of_good (h : EvalGood db)
    (ht : evalTimerOf timer db = some t) : t.timerId = db.id := by
  cases timer with
  | dejitter => exact h.dejitter t ht
  | variance => exact h.variance t ht

structure SysOk (s : Sys) : Prop where
  latency : s.latency.Ok BufferDb.id Good
  eval : s.eval.Ok EvalDb.id EvalGood

section

variable {s : Sys}

theorem expiry_own (h : s.latency.Ok BufferDb.id Good)
    (he : s.latency.find addr = some e)
    (htimer : timerOf kind e.db = some timer) (hpending : timer.pending = true) :
    latencyExpiry addr kind s.latency =
      s.latency.act addr fun db => timeoutAction kind (expire kind db) := by
  have hgood := h.good e (Mgr.mem_of_find he).1
  obtain ⟨hkind, hid⟩ := kindOf_timerIdOf kind hgood.id_lt
  have hfound := Mgr.find_modify he (expire kind)
  have hok : (s.latency.modify addr (expire kind)).Ok BufferDb.id Good :=
    Mgr.ok_modify h (fun db => (stays_expire kind db).1) fun e _ => (stays_expire kind e.db).2
  unfold latencyExpiry
  rw [he, Option.bind_some, htimer]
  simp only [hpending, if_true]
  unfold timeoutCback
  rw [timerId_of_good hgood htimer, hkind, hid]
  have hact := Mgr.actById_eq hok hfound (timeoutAction kind)
  rw [(stays_expire kind e.db).1] at hact
  exact hact.trans (Mgr.act_modify he (expire kind) (timeoutAction kind))

theorem evalExpire_id (timer : EvalTimer) (db : EvalDb) : (evalExpire timer db).id = db.id := by
  cases timer <;> rfl

theorem evalExpiry_own (h : s.eval.Ok EvalDb.id EvalGood)
    (he : s.eval.find addr = some e)
    (ht : evalTimerOf timer e.db = some t) (hpending : t.pending = true) :
    evalExpiry addr timer s.eval =
      s.eval.act addr fun db => evalTimeoutAction timer (evalExpire timer db) := by
  have hgood := h.good e (Mgr.mem_of_find he).1
  have hfound := Mgr.find_modify he (evalExpire timer)
  have hok : (s.eval.modify addr (evalExpire timer)).Ok EvalDb.id EvalGood :=
    Mgr.ok_modify h (evalExpire_id timer) fun e _ => evalGood_expire timer
  unfold evalExpiry
  rw [he, Option.bind_some, ht]
  simp only [hpending, if_true]
  unfold evalTimeoutCback
  rw [evalTimerId_of_good hgood ht, show u8 e.db.id = e.db.id from Nat.mod_eq_of_lt hgood.id_lt]
  have hact := Mgr.actById_eq hok hfound (evalTimeoutAction timer)
  rw [evalExpire_id] at hact
  exact hact.trans (Mgr.act_modify he (evalExpire timer) (evalTimeoutAction timer))

theorem ok_expiry (h : s.latency.Ok BufferDb.id Good) (addr : Nat) (kind : TimerKind) :
    (latencyExpiry addr kind s.latency).1.Ok BufferDb.id Good := by
  cases he : s.latency.find addr with
  | none =>
    unfold latencyExpiry
    rw [he]
    exact h
  | some e =>
    cases htimer : timerOf kind e.db with
    | none =>
      unfold latencyExpiry
      rw [he, Option.bind_some, htimer]
      exact h
    | some timer =>
      cases hpending : timer.pending with
      | false =>
        unfold latencyExpiry
        rw [he, Option.bind_some, htimer]
        simp only [hpending, Bool.false_eq_true, if_false]
        exact h
      | true =>
        rw [expiry_own h he htimer hpending]
        have hstays := fun db => stays_trans (stays_expire kind db) (stays_timeout kind _)
        exact Mgr.ok_act h (fun db => (hstays db).1) fun db => (hstays db).2

theorem ok_evalExpiry (h : s.eval.Ok EvalDb.id EvalGood) (addr : Nat) (timer : EvalTimer) :
    (evalExpiry addr timer s.eval).1.Ok EvalDb.id EvalGood := by
  cases he : s.eval.find addr with
  | none =>
    unfold evalExpiry
    rw [he]
    exact h
  | some e =>
    cases ht : evalTimerOf timer e.db with
    | none =>
      unfold evalExpiry
      rw [he, Option.bind_some, ht]
      exact h
    | some t =>
      cases hpending : t.pending with
      | false =>
        unfold evalExpiry
        rw [he, Option.bind_some, ht]
        simp only [hpending, Bool.false_eq_true, if_false]
        exact h
      | true =>
        rw [evalExpiry_own h he ht hpending]
        refine Mgr.ok_act h (fun db => ?_) fun db hdb => ?_
        . exact (evalTimeout_id timer _).trans (evalExpire_id timer db)
        . exact evalGood_timeout timer (evalGood_expire timer hdb)

theorem ok_sysStep (s : Sys) (e : SysEvent) (h : SysOk s) (hfree : Distinct s e) :
    SysOk (sysStep s e) := by
  obtain ⟨hlat, heval⟩ := h
  cases e with
  | register addr ent =>
    exact ⟨Mgr.ok_register hlat hfree rfl (good_register ent hlat.id_lt), heval⟩
  | unregister addr => exact ⟨Mgr.ok_unregister hlat, heval⟩
  | call addr e =>
    refine ⟨Mgr.ok_modify hlat (fun db => (stays_call e db).1) fun entry _ => ?_, heval⟩
    exact (stays_call e entry.db).2
  | expiry addr kind => exact ⟨ok_expiry hlat addr kind, heval⟩
  | evalRegister addr dejitter variance =>
    exact ⟨hlat, Mgr.ok_register heval hfree rfl
      (evalGood_register dejitter variance heval.id_lt)⟩
  | evalUnregister addr => exact ⟨hlat, Mgr.ok_unregister heval⟩
  | evalReset addr =>
    exact ⟨hlat, Mgr.ok_modify heval (fun _ => rfl) fun _ _ => evalGood_reset⟩
  | changeSensitivity addr dejitter variance level =>
    refine ⟨hlat, Mgr.ok_modify heval (fun _ => rfl) fun e he hgood => ?_⟩
    exact evalGood_changeSensitivity dejitter variance level hgood (hfree e he)
  | evalUpdate addr clk high calm =>
    refine ⟨hlat, Mgr.ok_act heval (evaluatorUpdate_id clk high calm) fun _ => ?_⟩
    exact evalGood_update clk high calm
  | evalExpiry addr timer => exact ⟨hlat, ok_evalExpiry heval addr timer⟩

theorem ownExpiry_of_ok (h : SysOk s) (e : SysEvent) : OwnExpiry s e := by
  cases e with
  | expiry addr kind =>
    intro e timer he htimer hpending
    exact expiry_own h.latency he htimer hpending
  | evalExpiry addr timer =>
    intro e t he ht hpending
    exact evalExpiry_own h.eval he ht hpending
  | _ => trivial

theorem timers_act_on_owner (events : List SysEvent)
    (hdistinct : Run.Along sysStep Distinct Sys.initial events) :
    Run.Along sysStep OwnExpiry Sys.initial events := by
  have hinit : SysOk Sys.initial := ⟨Mgr.ok_empty, Mgr.ok_empty⟩
  revert hinit hdistinct
  generalize Sys.initial = s
  induction events generalizing s with
  | nil => exact fun _ _ => trivial
  | cons e es ih =>
    rintro ⟨he, hes⟩ hok
    exact ⟨ownExpiry_of_ok hok e, ih (sysStep s e) hes (ok_sysStep s e hok he)⟩

end

theorem timers_act_on_owner_first :
    Run.Along sysStep OwnExpiry Sys.initial
      [.register 1 .twenty, .call 1 (.increase true 2 true), .expiry 1 .decCheck] :=
  timers_act_on_owner _ ⟨fun _ he => absurd he not_mem_nil, trivial, trivial, trivial⟩

def unstableSecond : List SysEvent :=
  [.evalRegister 1 true true, .evalRegister 2 true true, .changeSensitivity 2 true true 0] ++
    List.replicate 50 (.evalUpdate 2 1 false false) ++ [.evalUpdate 2 1 true false]

def unstableFirst : Entry EvalDb := { addr := 1, db := evaluatorRegister true true 0 }

def unstableOther : Entry EvalDb where
  addr := 2
  db := {
    dejitterTimer := some ⟨1, 3000000, false⟩
    varianceTimer := some ⟨0, 60000000, true⟩
    lastClk := 1
    count := 50
    varCheckTime := 60000000
    evalReady := true
    intervalUnstable := true
    sensitivityLevel := 0
    id := 1
    dejitterTimerStart := false
    varCheckTimerStart := true }

theorem not_ownExpiry_variance : ¬ ∀ events, Run.Along sysStep OwnExpiry Sys.initial events := by
  intro h
  have hrun := h (unstableSecond ++ [.evalExpiry 2 .variance])
  have hlast := ((Run.along_append ..).mp hrun).2.1
  generalize hs : (Run.exec sysStep Sys.initial unstableSecond) = s at hlast
  have heval : s.eval = { handles := [unstableFirst, unstableOther], id := 2 } := by
    rw [← hs]
    decide +kernel
  have hown := hlast unstableOther ⟨0, 60000000, true⟩ (by rw [heval]; rfl) rfl rfl
  rw [heval] at hown
  exact absurd hown (by decide)

end Latency
