import Earphone.ExtAdv.Queue

namespace ExtAdv

open List

inductive Op where
  | enable (advHandle duration : Nat) (a : Answers)
  | disable (advHandle appCause : Nat) (a : Answers)
  | setAdvParam (advHandle : Nat) (a : Answers)
  | setRandom (advHandle : Nat) (a : Answers)
  | setMultiParam (advHandle flags : Nat) (a : Answers)
  | setAdvData (advHandle : Nat) (a : Answers)
  | setScanResponseData (advHandle : Nat) (a : Answers)
  | advState (advHandle : Nat) (newState : ExtAdvState) (cause : Nat) (answers : List Bool)
  | settingRsp (advHandle : Nat) (answers : List Bool)
  | connected (advHandle : Nat) (answers : List Bool)

def step (w : World) : Op → World
  | .enable advHandle duration a => w.enable advHandle duration a
  | .disable advHandle appCause a => w.disable advHandle appCause a
  | .setAdvParam advHandle a => w.setAdvParam advHandle a
  | .setRandom advHandle a => w.setRandom advHandle a
  | .setMultiParam advHandle flags a => w.setMultiParam advHandle flags a
  | .setAdvData advHandle a => w.setAdvData advHandle a
  | .setScanResponseData advHandle a => w.setScanResponseData advHandle a
  | .advState advHandle newState cause answers => w.handleAdvState advHandle newState cause answers
  | .settingRsp advHandle answers => w.handleSettingRsp advHandle answers
  | .connected advHandle answers => w.handleConnected advHandle answers

namespace AdvSet

def Moves (s : AdvSet) : ExtAdvState → Prop
  | .start => s.pendingAction = .start ∧ s.extAdvState = .idle
  | .advertising => s.extAdvState = .start ∨ s.extAdvState = .stop
  | .stop => s.pendingAction = .stop ∧ s.extAdvState = .advertising
  | .idle => s.extAdvState = .start ∨ s.extAdvState = .stop ∨
      s.extAdvState = .advertising ∧ s.pendingAction ≠ .stop

def TellOk (s : AdvSet) (cause : Nat) : ExtAdvState → Prop
  | .idle => s.enabled = true →
      (s.pendingStartStopNum = 0 → ¬(cause = cancelledByHost ∧ s.appCause = appStopForUpdate)) ∧
      (s.pendingStartStopNum ≠ 0 → cause ≠ 0)
  | .advertising => s.extAdvState = .stop → s.pendingStartStopNum ≠ 0
  | .start | .stop => True

def Completes (s : AdvSet) : Op → Prop
  | .advState advHandle _ _ _ => advHandle = s.advHandle ∧
      (s.pendingAction = .start ∧ s.extAdvState = .start ∨
        s.pendingAction = .stop ∧ s.extAdvState = .stop)
  | .settingRsp advHandle _ => advHandle = s.advHandle ∧ s.pendingAction = .update
  | _ => False

def report (s : AdvSet) (newState : ExtAdvState) (cause : Nat) : AdvSet :=
  AdvSet.checkState { s with extAdvState := newState } cause true

end AdvSet

namespace World

def completed (w : World) (advHandle : Nat) (newState : ExtAdvState) (cause : Nat)
    (action : PendingAction) : World :=
  (w.update advHandle (·.report newState cause)).update advHandle (·.complete action)

def RestartOk (w : World) (s : AdvSet) (updateFlags : Nat) (a : Answers) : Prop :=
  s.enabled = true →
    let prepared := w.prepareRestart s.advHandle updateFlags a
    ((w.requestStop s.advHandle appStopForUpdate a).2 = true → prepared.sends a.sendStart = true) ∧
    (prepared.sends a.sendStart = true → prepared.findPending = true)

def ResendOk (advHandle : Nat) : List Event → List Bool → Prop
  | [], _ => True
  | e :: queue, answers =>
    if e.advHandle = advHandle then
      e.expectedAction = .update ∧ ResendOk advHandle queue answers
    else
      (answers.headD true = true ∨ e.expectedAction = .update) ∧
        ResendOk advHandle queue answers.tail

end World

def Op.Possible (w : World) : Op → Prop
  | .advState advHandle newState _ _ => ∀ s ∈ w.set? advHandle, s.Moves newState
  | .settingRsp advHandle _ => (w.set? advHandle).any (·.pendingAction == .update) = true
  | _ => True

def Op.Ok (w : World) : Op → Prop
  | .disable advHandle appCause a => ∀ s ∈ w.set? advHandle, s.enabled = true →
      appCause = appStopForUpdate → (w.requestStop advHandle appCause a).2 = false
  | .setAdvParam advHandle a => ∀ s ∈ w.set? advHandle, w.RestartOk s extAdvSetAdvParas a
  | .setRandom advHandle a => ∀ s ∈ w.set? advHandle, w.RestartOk s extAdvSetRandomAddr a
  | .setMultiParam advHandle flags a => ∀ s ∈ w.set? advHandle,
      (s.initFlags ||| flags) &&& (extAdvSetRandomAddr ||| extAdvSetAdvParas) ≠ 0 →
        w.RestartOk s (s.initFlags ||| flags) a
  | .advState advHandle newState cause answers => ∀ s ∈ w.set? advHandle,
      s.TellOk cause newState ∧
      (s.extAdvState = .start →
        (w.completed advHandle newState cause .start).NextStepOk w.queue answers) ∧
      (s.extAdvState = .stop →
        (w.completed advHandle newState cause .stop).NextStepOk w.queue answers)
  | .settingRsp advHandle answers =>
      (w.update advHandle (·.complete .update)).NextStepOk w.queue answers
  | .connected advHandle answers => ∀ _s ∈ w.set? advHandle,
      World.ResendOk advHandle w.queue answers
  | _ => True

structure World.Sound (w : World) : Prop where
  num : ∀ s ∈ w.sets, s.pendingStartStopNum = count s.advHandle w.queue
  drains : w.queue ≠ [] → ∃ s ∈ w.sets, s.pendingAction ≠ .idle ∧ s.Phase ∧
    ∀ op, s.Completes op → (step w op).queue.length < w.queue.length
  follows : w.queue = [] → (∀ s ∈ w.sets, s.pendingAction = .idle) →
    ∀ s ∈ w.sets, s.enabled = true ↔ s.extAdvState = .advertising

namespace AdvSet

variable {s : AdvSet} {queue : List Event} {newState : ExtAdvState} {cause : Nat}

theorem report_eq (s : AdvSet) (newState : ExtAdvState) (cause : Nat) :
    (s.report newState cause).advHandle = s.advHandle ∧
    (s.report newState cause).pendingStartStopNum = s.pendingStartStopNum ∧
    (s.report newState cause).extAdvState = newState ∧
    (s.report newState cause).pendingAction = s.pendingAction :=
  checkState_eq cause true

theorem complete_eq (s : AdvSet) (action : PendingAction) :
    (s.complete action).advHandle = s.advHandle ∧
    (s.complete action).pendingStartStopNum = s.pendingStartStopNum ∧
    (s.complete action).extAdvState = s.extAdvState ∧
    (s.complete action).enabled = s.enabled ∧
    (s.complete action).pendingAction =
      if s.pendingAction = action then .idle else s.pendingAction := by
  unfold complete
  split <;> exact ⟨rfl, rfl, rfl, rfl, rfl⟩

theorem Inv.report_settles (h : s.Inv queue) (hmoves : s.Moves newState)
    (htell : s.TellOk cause newState) (hidle : newState = .idle ∨ newState = .advertising) :
    (s.report newState cause).enabled = settle s.advHandle (newState == .advertising) queue := by
  have hen : (s.report newState cause).enabled = _ :=
    @checkState_enabled { s with extAdvState := newState } cause true
  have hsettles := h.settles
  rw [hen]
  obtain rfl | rfl := hidle
  . change _ = settle s.advHandle false queue
    simp only [if_true, true_and]
    by_cases hcount : count s.advHandle queue = 0
    . have hzero := h.num.trans hcount
      simp only [settle_eq_self hcount, hzero, if_true]
      split
      . rfl
      . next hforUpdate =>
        cases hen' : s.enabled with
        | false => rfl
        | true => exact absurd ((htell hen').1 hzero) hforUpdate
    . have hne : s.pendingStartStopNum ≠ 0 := fun heq => hcount (h.num.symm.trans heq)
      rw [@settle_congr s.advHandle false s.target queue hcount, ← hsettles]
      simp only [hne, if_false]
      split
      . next hconn =>
        cases hen' : s.enabled with
        | false => rfl
        | true => exact absurd hconn ((htell hen').2 hne)
      . rfl
  . change _ = settle s.advHandle true queue
    rw [if_neg fun heq => ExtAdvState.noConfusion heq.1]
    change s.enabled = _
    have hphase := h.phase
    obtain hstart | hstop := hmoves
    . have hpending : s.pendingAction = .start := by
        rw [Phase, hstart] at hphase
        cases hp : s.pendingAction <;> rw [hp] at hphase <;> simp_all
      rw [hsettles, target, hpending]
    . have hcount : count s.advHandle queue ≠ 0 := h.num ▸ htell hstop
      rw [hsettles]
      exact settle_congr hcount

theorem Inv.start_pending (h : s.Inv queue) (hext : s.extAdvState = .start) :
    s.pendingAction = .start := by
  have hphase := h.phase
  rw [Phase, hext] at hphase
  cases hp : s.pendingAction with
  | start => rfl
  | idle | update | stop =>
    rw [hp] at hphase
    simp at hphase

theorem Inv.stop_pending (h : s.Inv queue) (hext : s.extAdvState = .stop) :
    s.pendingAction = .stop := by
  have hphase := h.phase
  rw [Phase, hext] at hphase
  cases hp : s.pendingAction with
  | stop => rfl
  | idle | update | start =>
    rw [hp] at hphase
    simp at hphase

theorem Moves.settled (h : s.Moves newState)
    (hext : s.extAdvState = .start ∨ s.extAdvState = .stop) :
    newState = .idle ∨ newState = .advertising := by
  cases newState with
  | idle => exact .inl rfl
  | advertising => exact .inr rfl
  | start =>
    obtain ⟨-, hidle⟩ := h
    rw [hidle] at hext
    simp at hext
  | stop =>
    obtain ⟨-, hadv⟩ := h
    rw [hadv] at hext
    simp at hext

section

variable (h : s.Inv queue) (hmoves : s.Moves newState) (htell : s.TellOk cause newState)

include h hmoves htell

theorem Inv.completed (haction : s.pendingAction = action)
    (hext : s.extAdvState = .start ∨ s.extAdvState = .stop) :
    ((s.report newState cause).complete action).Inv queue ∧
      ((s.report newState cause).complete action).pendingAction = .idle := by
  obtain ⟨hhandle, hnum, hstate, hpending⟩ := s.report_eq newState cause
  obtain ⟨hhandle', hnum', hstate', henabled', hpending'⟩ :=
    (s.report newState cause).complete_eq action
  have hidle : ((s.report newState cause).complete action).pendingAction = .idle := by
    rw [hpending', hpending, if_pos haction]
  have hnew := hmoves.settled hext
  refine ⟨⟨?_, ?_, ?_⟩, hidle⟩
  . rw [hnum', hnum, hhandle', hhandle, h.num]
  . rw [henabled', hhandle', hhandle, target_idle hidle, hstate', hstate]
    exact h.report_settles hmoves htell hnew
  . rw [Phase, hidle, hstate', hstate]
    exact hnew

theorem Inv.report (hstart : s.extAdvState ≠ .start)
    (hstop : s.extAdvState ≠ .stop) : (s.report newState cause).Inv queue := by
  obtain ⟨hhandle, hnum, hstate, hpending⟩ := s.report_eq newState cause
  have hkeep : newState ≠ .idle → (s.report newState cause).enabled = s.enabled := by
    intro hne
    rw [AdvSet.report, checkState_enabled, if_neg fun heq => hne heq.1]
  have hnum' : (s.report newState cause).pendingStartStopNum =
      count (s.report newState cause).advHandle queue := by
    rw [hnum, hhandle, h.num]
  cases newState with
  | start =>
    obtain ⟨hp, -⟩ := hmoves
    refine ⟨hnum', ?_, ?_⟩
    . rw [hkeep (by decide), hhandle, target, hpending, hp, h.settles, target, hp]
    . rw [Phase, hpending, hp]
      exact .inr hstate
  | advertising => exact (hmoves.elim hstart hstop).elim
  | stop =>
    obtain ⟨hp, -⟩ := hmoves
    refine ⟨hnum', ?_, ?_⟩
    . rw [hkeep (by decide), hhandle, target, hpending, hp, h.settles, target, hp]
    . rw [Phase, hpending, hp]
      exact .inr hstate
  | idle =>
    have hsettles := h.report_settles hmoves htell (.inl rfl)
    obtain ⟨hadv, hne⟩ := (hmoves.resolve_left hstart).resolve_left hstop
    have hphase := h.phase
    refine ⟨hnum', ?_, ?_⟩
    . rw [hsettles, hhandle, target, hpending, hstate]
      rw [Phase, hadv] at hphase
      cases hp : s.pendingAction with
      | idle | update => rfl
      | stop => exact absurd hp hne
      | start =>
        rw [hp] at hphase
        simp at hphase
    . rw [Phase, hpending, hstate]
      rw [Phase, hadv] at hphase
      cases hp : s.pendingAction with
      | idle | update => exact .inl rfl
      | stop => exact absurd hp hne
      | start => exact .inl rfl

end

end AdvSet

theorem resend_eq (h : World.ResendOk advHandle queue answers) (advHandle' : Nat) (b : Bool) :
    count advHandle' (World.resend advHandle queue answers) = count advHandle' queue ∧
      settle advHandle' b (World.resend advHandle queue answers) = settle advHandle' b queue := by
  induction queue generalizing answers b with
  | nil => exact ⟨rfl, rfl⟩
  | cons e queue ih =>
    have hupdate : e.expectedAction = .update → e.StartStop advHandle' = false := by
      intro heq
      simp [Event.StartStop, heq]
    unfold World.ResendOk at h
    unfold World.resend
    split
    . next he =>
      rw [if_pos he] at h
      obtain ⟨hcount, hsettle⟩ := ih h.2 b
      rw [count_cons, settle, hupdate h.1]
      exact ⟨hcount, hsettle⟩
    . next he =>
      rw [if_neg he] at h
      obtain ⟨hlost, hrest⟩ := h
      split
      . rw [count_cons, count_cons, settle, settle, (ih hrest b).1, (ih hrest b).2, (ih hrest _).2]
        exact ⟨rfl, rfl⟩
      . next hans =>
        obtain ⟨hcount, hsettle⟩ := ih hrest b
        rw [count_cons, settle, hupdate (hlost.resolve_left hans)]
        exact ⟨hcount, hsettle⟩

theorem resend_length : (World.resend advHandle queue answers).length ≤ queue.length := by
  induction queue generalizing answers with
  | nil => exact Nat.le_refl _
  | cons e queue ih =>
    unfold World.resend
    split
    . exact Nat.le_succ_of_le ih
    . split
      . exact Nat.succ_le_succ ih
      . exact Nat.le_succ_of_le ih

section

variable {w : World} {s : AdvSet} {advHandle : Nat} {a : Answers}

namespace World

theorem Inv.initAdvParams (h : w.Inv) (hqueue : w.queue = [])
    (hnew : advHandle ∉ w.sets.map (·.advHandle)) (initFlags : Nat) :
    (w.initAdvParams advHandle initFlags).Inv ∧
      (w.initAdvParams advHandle initFlags).queue = [] ∧
      ∀ advHandle' ∈ (w.initAdvParams advHandle initFlags).sets.map (·.advHandle),
        advHandle' ∈ w.sets.map (·.advHandle) ∨ advHandle' = advHandle := by
  unfold World.initAdvParams
  split
  . have hpending : ∀ s ∈ w.sets ++ [{ AdvSet.default with advHandle, initFlags }],
        s.pendingAction ≠ .idle → s ∈ w.sets := by
      intro s hs hne
      obtain hs' | hs' := mem_append.mp hs
      . exact hs'
      . rw [mem_singleton.mp hs'] at hne
        exact absurd rfl hne
    refine ⟨⟨?_, h.room, fun s hs => ?_, fun s hs t ht hps hpt => ?_, fun hne => ?_⟩, hqueue,
      fun advHandle' hmem => ?_⟩
    . rw [map_append, map_singleton, nodup_append_comm]
      exact nodup_cons.mpr ⟨hnew, h.distinct⟩
    . obtain hs' | hs' := mem_append.mp hs
      . exact h.sets s hs'
      . rw [mem_singleton.mp hs', hqueue]
        exact ⟨rfl, rfl, .inl rfl⟩
    . exact h.one s (hpending s hs hps) t (hpending t ht hpt) hps hpt
    . exact absurd hqueue hne
    . rw [map_append, map_singleton] at hmem
      exact (mem_append.mp hmem).imp_right mem_singleton.mp
  . exact ⟨h, hqueue, fun _ hmem => .inl hmem⟩

theorem Inv.enable (h : w.Inv) (duration : Nat) : (w.enable advHandle duration a).Inv := by
  unfold World.enable
  split
  . exact h
  . next s hs =>
    split
    . exact h
    . next hen =>
      have hen' := Bool.eq_false_iff.mpr hen
      have hset : ∃ s', (if s.advParamSet then w else
          (w.startSetAdvParam advHandle s.initFlags a).1).set? advHandle = some s' ∧
            s'.enabled = false := by
        split
        . exact ⟨s, hs, hen'⟩
        . obtain ⟨s', hs', heq⟩ := startSetAdvParam_set? hs s.initFlags a
          exact ⟨s', hs', heq.trans hen'⟩
      have hinv : (if s.advParamSet then w else
          (w.startSetAdvParam advHandle s.initFlags a).1).Inv := by
        split
        . exact h
        . exact startSetAdvParam_inv h ..
      generalize (if s.advParamSet then w else
        (w.startSetAdvParam advHandle s.initFlags a).1) = w' at hset hinv ⊢
      obtain ⟨s', hs', hfalse⟩ := hset
      obtain ⟨haccepted, hrefused⟩ := @requestStart_inv w' s' advHandle a hinv hs' hfalse duration
      dsimp only
      split
      . next hacc => exact haccepted hacc
      . next hacc => exact hrefused (Bool.eq_false_iff.mpr hacc)

theorem Inv.disable (h : w.Inv) {appCause : Nat}
    (hok : ∀ s ∈ w.set? advHandle, s.enabled = true → appCause = appStopForUpdate →
      (w.requestStop advHandle appCause a).2 = false) : (w.disable advHandle appCause a).Inv := by
  unfold World.disable
  split
  . exact h
  . next s hs =>
    split
    . next hen =>
      obtain ⟨haccepted, hrefused⟩ := @requestStop_inv w s advHandle a h hs hen appCause
      dsimp only
      split
      . next hacc => exact haccepted hacc.1
      . next hacc =>
        refine hrefused (Bool.eq_false_iff.mpr fun htrue => ?_)
        have hcause : appCause = appStopForUpdate := by
          by_contra hne
          exact hacc ⟨htrue, hne⟩
        rw [hok s hs hen hcause] at htrue
        cases htrue
    . exact h

theorem requestStop_set? (hs : w.set? advHandle = some s) (appCause : Nat) :
    ∃ s', (w.requestStop advHandle appCause a).1.set? advHandle = some s' ∧
      s'.enabled = s.enabled := by
  unfold requestStop
  split
  . rw [sendMsg_startStop (by decide)]
    split
    . have hset := @set?_update
        { w with queue := w.queue ++ [⟨advHandle, .stop, appCause⟩] } advHandle AdvSet.incNum
        fun _ => rfl
      exact ⟨s.incNum, hset.trans (congrArg (Option.map AdvSet.incNum) hs), rfl⟩
    . exact ⟨s, hs, rfl⟩
  . have hset := @set?_update w advHandle (·.actionStop appCause a.stop)
      fun s => by cases a.stop <;> rfl
    rw [hs] at hset
    refine ⟨_, hset, ?_⟩
    cases a.stop <;> rfl

theorem disable_forUpdate (hs : w.set? advHandle = some s) (hen : s.enabled = true) :
    w.disable advHandle appStopForUpdate a = (w.requestStop advHandle appStopForUpdate a).1 := by
  simp [World.disable, hs, hen]

section

variable (h : w.Inv)

include h

theorem Inv.restart (hs : w.set? advHandle = some s) (hen : s.enabled = true)
    (hok : w.RestartOk s flags a) (duration : Nat) :
    ((w.prepareRestart advHandle flags a).sendMsg advHandle .start duration a.sendStart).1.Inv := by
  have hhandle := set?_handle hs
  obtain ⟨hstop, hbusy⟩ := hok hen
  rw [hhandle] at hstop hbusy
  obtain ⟨haccepted, hrefused⟩ := @requestStop_inv w s advHandle a h hs hen appStopForUpdate
  obtain ⟨s1, hs1, hen1⟩ := @requestStop_set? w s advHandle a hs appStopForUpdate
  obtain ⟨s2, hs2, hen2⟩ := startSetAdvParam_set? hs1 flags a
  have hprepare : w.prepareRestart advHandle flags a =
      ((w.requestStop advHandle appStopForUpdate a).1.startSetAdvParam advHandle flags a).1 := by
    rw [prepareRestart, disable_forUpdate hs hen]
  rw [← hprepare] at hs2
  have htrue : s2.enabled = true := hen2.trans (hen1.trans hen)
  rw [sendMsg_startStop (by decide)]
  cases hacc : (w.requestStop advHandle appStopForUpdate a).2 with
  | false =>
    have hinv : (w.prepareRestart advHandle flags a).Inv := by
      rw [hprepare]
      exact startSetAdvParam_inv (hrefused hacc) ..
    split
    . next hsends =>
      refine hinv.send (hbusy hsends) (sends_room hsends) (by decide)
        (fun _ => ⟨rfl, rfl, rfl, rfl⟩) fun t ht => ?_
      cases hs2.symm.trans ht
      exact htrue
    . exact hinv
  | true =>
    -- the set counts as told to be disabled until the message to start is sent
    have hinv : ((w.prepareRestart advHandle flags a).update advHandle (·.tell false)).Inv := by
      rw [hprepare, startSetAdvParam_tell]
      exact startSetAdvParam_inv (haccepted hacc) ..
    have hsends := hstop hacc
    rw [if_pos hsends]
    have hpending := (@findPending_update (w.prepareRestart advHandle flags a) advHandle
      (·.tell false) fun _ => rfl).trans (hbusy hsends)
    have hsend := @Inv.send _ advHandle duration .start (fun s => s.incNum.tell true) hinv hpending
      (@sends_room (w.prepareRestart advHandle flags a) _ hsends) (by decide)
      (fun _ => ⟨rfl, rfl, rfl, rfl⟩) fun _ _ => rfl
    have hcongr := @update_congr
      { w.prepareRestart advHandle flags a with
        queue := (w.prepareRestart advHandle flags a).queue ++ [⟨advHandle, .start, duration⟩] }
      s2 advHandle AdvSet.incNum (fun s => (s.tell false).incNum.tell true) hs2 (by
        cases s2
        cases htrue
        rfl)
    dsimp only
    rw [hcongr, ← @update_update _ _ (·.tell false) (fun s => s.incNum.tell true) fun _ => rfl]
    exact hsend

theorem Inv.setOrRestart (hs : w.set? advHandle = some s) {flags : Nat}
    (hok : w.RestartOk s flags a) : (w.setOrRestart s flags a).1.Inv := by
  unfold World.setOrRestart
  rw [set?_handle hs]
  split
  . next hen => exact h.restart hs hen hok s.duration
  . exact startSetAdvParam_inv h ..

theorem Inv.setMultiParam (hok : ∀ s ∈ w.set? advHandle,
      (s.initFlags ||| flags) &&& (extAdvSetRandomAddr ||| extAdvSetAdvParas) ≠ 0 →
        w.RestartOk s (s.initFlags ||| flags) a) : (w.setMultiParam advHandle flags a).Inv := by
  unfold World.setMultiParam
  split
  . exact h
  . next s hs =>
    dsimp only
    split
    . exact h
    . have hinv : (if (s.initFlags ||| flags) &&& (extAdvSetRandomAddr ||| extAdvSetAdvParas) ≠ 0
          then w.setOrRestart s (s.initFlags ||| flags) a
          else w.startSetAdvParam advHandle (s.initFlags ||| flags) a).1.Inv := by
        split
        . next hflags => exact h.setOrRestart hs (hok s hs hflags)
        . exact startSetAdvParam_inv h ..
      generalize (if (s.initFlags ||| flags) &&& (extAdvSetRandomAddr ||| extAdvSetAdvParas) ≠ 0
        then w.setOrRestart s (s.initFlags ||| flags) a
        else w.startSetAdvParam advHandle (s.initFlags ||| flags) a) = r at hinv ⊢
      split
      . refine @Inv.modify r.1 advHandle (fun s => { s with advParamSet := true }) hinv
          (fun _ => rfl) (fun _ => rfl) fun t ht => ?_
        have ht' := hinv.sets t (set?_mem ht)
        exact ht'.congr rfl rfl rfl rfl ht'.phase
      . exact hinv

theorem Inv.setData (flag : Nat) : (w.setData advHandle flag a).Inv := by
  unfold World.setData
  split
  . exact h
  . exact startSetAdvParam_inv h ..

theorem Inv.calm (hs : w.set? advHandle = some s) (hpending : s.pendingAction ≠ .idle)
    (hf : ∀ s, (f s).advHandle = s.advHandle)
    (hdone : (f s).Inv w.queue ∧ (f s).pendingAction = .idle) :
    ({ w.update advHandle f with queue := w.queue } : World).Calm where
  distinct := (map_update hf).symm ▸ h.distinct
  room := h.room
  sets := fun t ht => by
    obtain ⟨hmem, -⟩ | ⟨t', ht', rfl⟩ := mem_update h.distinct ht
    . exact h.sets t hmem
    . cases hs.symm.trans ht'
      exact hdone.1
  idle := fun t ht => by
    obtain ⟨hmem, hne⟩ | ⟨t', ht', rfl⟩ := mem_update h.distinct ht
    . by_contra hbusy
      exact hne ((h.one t hmem s (set?_mem hs) hbusy hpending).trans (set?_handle hs))
    . cases hs.symm.trans ht'
      exact hdone.2

theorem Inv.handleAdvState (hp : (Op.advState advHandle newState cause answers).Possible w)
    (hok : (Op.advState advHandle newState cause answers).Ok w) :
    (w.handleAdvState advHandle newState cause answers).Inv := by
  unfold World.handleAdvState
  split
  . exact h
  . next s hs =>
    have hmoves := hp s hs
    obtain ⟨htell, hstart, hstop⟩ := hok s hs
    have hinv := h.sets s (set?_mem hs)
    have hhandle : ∀ t : AdvSet, (t.report newState cause).advHandle = t.advHandle := fun t =>
      (t.report_eq newState cause).1
    have hcalm : ∀ action, s.pendingAction = action → action ≠ .idle →
        s.extAdvState = .start ∨ s.extAdvState = .stop →
        ({ w.completed advHandle newState cause action with queue := w.queue } : World).Calm := by
      intro action haction hne hext
      rw [completed, update_update hhandle]
      refine h.calm hs (haction ▸ hne) (fun t => ?_) (hinv.completed hmoves htell haction hext)
      exact ((t.report newState cause).complete_eq action).1.trans (hhandle t)
    dsimp only
    split
    . next hext =>
      exact nextStep_inv (hcalm .start (hinv.start_pending hext) (by decide) (.inl hext))
        (hstart hext)
    . next hne =>
      split
      . next hext =>
        exact nextStep_inv (hcalm .stop (hinv.stop_pending hext) (by decide) (.inr hext))
          (hstop hext)
      . next hne' =>
        refine h.modify hhandle (fun t => (t.report_eq newState cause).2.2.2) fun t ht => ?_
        cases hs.symm.trans ht
        exact hinv.report hmoves htell hne hne'

theorem Inv.handleSettingRsp (hp : (Op.settingRsp advHandle answers).Possible w)
    (hok : (Op.settingRsp advHandle answers).Ok w) :
    (w.handleSettingRsp advHandle answers).Inv := by
  obtain ⟨s, hs, hpending⟩ := (Option.any_eq_true ..).mp hp
  have hpending' : s.pendingAction = .update := by simpa using hpending
  have hinv := h.sets s (set?_mem hs)
  refine nextStep_inv (h.calm hs (by rw [hpending']; decide)
    (fun t => (t.complete_eq .update).1) ⟨?_, ?_⟩) hok
  . obtain ⟨hhandle, hnum, hstate, henabled, hidle⟩ := s.complete_eq .update
    rw [if_pos hpending'] at hidle
    have hphase := hinv.phase
    refine hinv.congr hhandle hnum henabled ?_ ?_
    . rw [AdvSet.target_idle hidle, hstate, AdvSet.target, hpending']
    . rw [AdvSet.Phase, hidle, hstate]
      rw [AdvSet.Phase, hpending'] at hphase
      exact hphase
  . rw [(s.complete_eq .update).2.2.2.2, if_pos hpending']

theorem Inv.handleConnected (hok : (Op.connected advHandle answers).Ok w) :
    (w.handleConnected advHandle answers).Inv := by
  unfold World.handleConnected
  split
  . exact h
  . next s hs =>
    have hresend := hok s hs
    refine ⟨h.distinct, Nat.le_trans resend_length h.room, fun t ht => ?_, h.one, fun hne => ?_⟩
    . obtain ⟨hcount, hsettle⟩ := resend_eq hresend t.advHandle t.target
      have hinv := h.sets t ht
      exact ⟨hinv.num.trans hcount.symm, hinv.settles.trans hsettle.symm, hinv.phase⟩
    . refine h.busy fun heq => hne ?_
      rw [heq]
      rfl

end

end World

theorem inv_step (h : w.Inv) (op : Op) (hp : op.Possible w) (hok : op.Ok w) : (step w op).Inv := by
  cases op with
  | enable advHandle duration a => exact h.enable duration
  | disable advHandle appCause a => exact h.disable hok
  | setAdvParam advHandle a =>
    unfold step World.setAdvParam
    dsimp only
    split
    . exact h
    . next s hs => exact h.setOrRestart hs (hok s hs)
  | setRandom advHandle a =>
    unfold step World.setRandom
    dsimp only
    split
    . exact h
    . next s hs => exact h.setOrRestart hs (hok s hs)
  | setMultiParam advHandle flags a => exact h.setMultiParam hok
  | setAdvData advHandle a => exact h.setData extAdvSetAdvData
  | setScanResponseData advHandle a => exact h.setData extAdvSetScanRspData
  | advState advHandle newState cause answers => exact h.handleAdvState hp hok
  | settingRsp advHandle answers => exact h.handleSettingRsp hp hok
  | connected advHandle answers => exact h.handleConnected hok

end

def World.init (handleNumMax : Nat) (created : List (Nat × Nat)) : World :=
  created.foldl (fun w c => w.initAdvParams c.1 c.2) (.start handleNumMax)

theorem inv_init (handleNumMax : Nat)
    (hdistinct : (created.map Prod.fst).Nodup) : (World.init handleNumMax created).Inv := by
  have hfold : ∀ (created : List (Nat × Nat)) (w : World), w.Inv → w.queue = [] →
      (created.map Prod.fst).Nodup →
      (∀ c ∈ created.map Prod.fst, c ∉ w.sets.map (·.advHandle)) →
        (created.foldl (fun w c => w.initAdvParams c.1 c.2) w).Inv := by
    intro created
    induction created with
    | nil => exact fun _ h _ _ _ => h
    | cons c created ih =>
      intro w h hqueue hnodup hnew
      obtain ⟨hc, hnodup'⟩ := nodup_cons.mp hnodup
      obtain ⟨hinv, hqueue', hkeys⟩ := h.initAdvParams hqueue (hnew c.1 mem_cons_self) c.2
      refine ih _ hinv hqueue' hnodup' fun c' hc' hmem => ?_
      obtain hmem' | heq := hkeys c' hmem
      . exact hnew c' (mem_cons_of_mem _ hc') hmem'
      . exact hc (heq ▸ hc')
  refine hfold created _ ⟨nodup_nil, Nat.zero_le _, ?_, ?_, ?_⟩ rfl hdistinct ?_
  . exact fun _ hs => absurd hs not_mem_nil
  . exact fun _ hs => absurd hs not_mem_nil
  . exact fun hne => absurd rfl hne
  . exact fun _ _ => not_mem_nil

theorem completes_drains (h : w.Inv) (hs : s ∈ w.sets)
    (hop : s.Completes op) (hqueue : w.queue ≠ []) :
    (step w op).queue.length < w.queue.length := by
  have hpos := length_pos_iff.mpr hqueue
  have hlt : ∀ (w' : World) (answers : List Bool),
      (w'.nextStep w.queue answers).queue.length < w.queue.length := fun w' answers =>
    Nat.lt_of_le_of_lt World.nextStep_length (Nat.sub_lt hpos Nat.one_pos)
  cases op with
  | advState advHandle newState cause answers =>
    obtain ⟨rfl, hext⟩ := hop
    have hfind := World.set?_of_mem h.distinct hs
    simp only [step, World.handleAdvState, hfind]
    obtain ⟨-, hstart⟩ | ⟨-, hstop⟩ := hext
    . rw [if_pos hstart]
      exact hlt _ _
    . rw [if_neg (by rw [hstop]; decide), if_pos hstop]
      exact hlt _ _
  | settingRsp advHandle answers => exact hlt _ _
  | enable | disable | setAdvParam | setRandom | setMultiParam | setAdvData | setScanResponseData
  | connected => exact hop.elim

theorem World.Inv.sound {w : World} (h : w.Inv) : w.Sound where
  num := fun s hs => (h.sets s hs).num
  drains := fun hqueue => by
    obtain ⟨s, hs, hpending⟩ := findPending_iff.mp (h.busy hqueue)
    exact ⟨s, hs, hpending, (h.sets s hs).phase, fun op hop => completes_drains h hs hop hqueue⟩
  follows := fun hqueue hidle s hs => by
    have hsettles := (h.sets s hs).settles
    rw [hqueue, AdvSet.target_idle (hidle s hs)] at hsettles
    rw [hsettles]
    exact beq_iff_eq

def PossibleStep (w : World) (op : Op) : Prop := op.Possible w

def OkStep (w : World) (op : Op) : Prop := op.Possible w ∧ op.Ok w

theorem runs_follow (handleNumMax : Nat) (created : List (Nat × Nat)) (ops : List Op)
    (hdistinct : (created.map Prod.fst).Nodup)
    (hok : Run.Along step OkStep (.init handleNumMax created) ops) :
    (Run.exec step (.init handleNumMax created) ops).Sound :=
  (@Run.exec_inv _ _ step OkStep World.Inv (fun _ op h hstep => inv_step h op hstep.1 hstep.2)
    _ ops (inv_init handleNumMax hdistinct) hok).sound

instance (s : AdvSet) : (newState : ExtAdvState) → Decidable (s.Moves newState)
  | .start | .stop => inferInstanceAs (Decidable (_ ∧ _))
  | .advertising => inferInstanceAs (Decidable (_ ∨ _))
  | .idle => inferInstanceAs (Decidable (_ ∨ _ ∨ _ ∧ _))

instance (s : AdvSet) (cause : Nat) : (newState : ExtAdvState) → Decidable (s.TellOk cause newState)
  | .idle => inferInstanceAs (Decidable (_ → (_ → ¬(_ ∧ _)) ∧ (_ → _ ≠ _)))
  | .advertising => inferInstanceAs (Decidable (_ → _ ≠ _))
  | .start | .stop => .isTrue trivial

instance (s : AdvSet) (queue : List Event) (accepted : Bool) :
    (action : Action) → Decidable (s.PerformOk action queue accepted)
  | .start => inferInstanceAs (Decidable (_ → _ ∨ _))
  | .stop => inferInstanceAs (Decidable (_ → _ ∨ _ ≠ _))
  | .update => .isTrue trivial

instance World.NextStepOk.instDecidable : (w : World) → (queue : List Event) →
    (answers : List Bool) → Decidable (w.NextStepOk queue answers)
  | _, [], _ => .isTrue trivial
  | w, e :: queue, answers =>
    match h : ({ w with queue } : World).set? e.advHandle with
    | none =>
      have := instDecidable { w with queue } queue answers
      decidable_of_iff (({ w with queue } : World).NextStepOk queue answers) <| by
        simp only [World.NextStepOk, h]
    | some s =>
      have := instDecidable (({ w with queue } : World).update e.advHandle fun s =>
        (s.perform e.expectedAction e.param (answers.headD true)).1) queue answers.tail
      decidable_of_iff (s.PerformOk e.expectedAction queue (answers.headD true) ∧
        ((s.perform e.expectedAction e.param (answers.headD true)).2 = false →
          (({ w with queue } : World).update e.advHandle fun s =>
            (s.perform e.expectedAction e.param (answers.headD true)).1).NextStepOk
              queue answers.tail)) <| by
        simp only [World.NextStepOk, h]

instance World.ResendOk.instDecidable (advHandle : Nat) : (queue : List Event) →
    (answers : List Bool) → Decidable (World.ResendOk advHandle queue answers)
  | [], _ => .isTrue trivial
  | _ :: queue, answers =>
    have := instDecidable advHandle queue answers
    have := instDecidable advHandle queue answers.tail
    inferInstanceAs (Decidable (ite ..))

instance (w : World) (s : AdvSet) (updateFlags : Nat) (a : Answers) :
    Decidable (w.RestartOk s updateFlags a) :=
  inferInstanceAs (Decidable (_ → (_ → _) ∧ (_ → _)))

instance (w : World) : (op : Op) → Decidable (op.Possible w)
  | .advState advHandle .. => inferInstanceAs (Decidable (∀ s ∈ w.set? advHandle, _))
  | .settingRsp .. => inferInstanceAs (Decidable (_ = true))
  | .enable .. | .disable .. | .setAdvParam .. | .setRandom .. | .setMultiParam ..
  | .setAdvData .. | .setScanResponseData .. | .connected .. => .isTrue trivial

instance (w : World) : (op : Op) → Decidable (op.Ok w)
  | .disable advHandle .. => inferInstanceAs (Decidable (∀ s ∈ w.set? advHandle, _ → _ → _))
  | .setAdvParam advHandle _ | .setRandom advHandle _ =>
    inferInstanceAs (Decidable (∀ s ∈ w.set? advHandle, w.RestartOk ..))
  | .setMultiParam advHandle .. =>
    inferInstanceAs (Decidable (∀ s ∈ w.set? advHandle, _ → w.RestartOk ..))
  | .advState advHandle .. => inferInstanceAs (Decidable (∀ s ∈ w.set? advHandle,
      s.TellOk .. ∧ (_ → World.NextStepOk ..) ∧ (_ → World.NextStepOk ..)))
  | .settingRsp .. => inferInstanceAs (Decidable (World.NextStepOk ..))
  | .connected advHandle _ =>
    inferInstanceAs (Decidable (∀ _s ∈ w.set? advHandle, World.ResendOk ..))
  | .enable .. | .setAdvData .. | .setScanResponseData .. => .isTrue trivial

instance (w : World) (op : Op) : Decidable (OkStep w op) :=
  inferInstanceAs (Decidable (op.Possible w ∧ op.Ok w))

instance (w : World) (op : Op) : Decidable (PossibleStep w op) :=
  inferInstanceAs (Decidable (op.Possible w))

def Answers.all : Answers := ⟨true, true, true, true, true, true, true⟩

def restarted : List Op :=
  [.enable 0 0 .all, .settingRsp 0 [], .advState 0 .start 0 [], .advState 0 .advertising 0 [],
    .setAdvParam 0 .all, .enable 1 0 .all, .advState 0 .stop 0 [],
    .advState 0 .idle cancelledByHost [], .settingRsp 0 [], .advState 0 .start 0 [],
    .advState 0 .advertising 0 [], .settingRsp 1 [false], .advState 0 .idle 0 [],
    .connected 0 []]

theorem runs_follow_restarted : (Run.exec step (.init 2 [(0, 0x01), (1, 0x03)]) restarted).Sound :=
  runs_follow 2 [(0, 0x01), (1, 0x03)] restarted (by decide) (by decide)

def deletedStop : List Op :=
  [.enable 1 0 .all, .settingRsp 1 [], .advState 1 .start 0 [], .advState 1 .advertising 0 [],
    .enable 0 0 .all, .disable 1 0 .all, .advState 1 .idle 0 [], .connected 1 [],
    .settingRsp 0 [], .advState 0 .start 0 [], .advState 0 .advertising 0 [],
    .enable 1 0 .all, .advState 1 .start 0 [], .advState 1 .advertising 0 [],
    .advState 1 .idle 0x13C []]

theorem not_sound_deletedStop : ¬∀ ops, Run.Along step PossibleStep
    (.init 2 [(0, 0x01), (1, 0x03)]) ops →
      (Run.exec step (.init 2 [(0, 0x01), (1, 0x03)]) ops).Sound := by
  intro h
  have hsound := h deletedStop (by decide)
  have hset : ∃ s ∈ (Run.exec step (.init 2 [(0, 0x01), (1, 0x03)]) deletedStop).sets,
      s.enabled = true ∧ s.extAdvState ≠ .advertising := by decide
  obtain ⟨s, hs, hen, hext⟩ := hset
  exact hext ((hsound.follows (by decide) (by decide) s hs).mp hen)

end ExtAdv
