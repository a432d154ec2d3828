import Earphone.ExtAdv.Steps

namespace ExtAdv

namespace World

structure Calm (w : World) : Prop where
  distinct : (w.sets.map (·.advHandle)).Nodup
  room : w.queue.length ≤ maxNumOfExtendAdvEvent
  sets : ∀ s ∈ w.sets, s.Inv w.queue
  idle : ∀ s ∈ w.sets, s.pendingAction = .idle

def NextStepOk (w : World) : List Event → List Bool → Prop
  | [], _ => True
  | e :: queue, answers =>
    let w := { w with queue }
    match w.set? e.advHandle with
    | none => NextStepOk w queue answers
    | some s =>
      let accepted := answers.headD true
      s.PerformOk e.expectedAction queue accepted ∧
        ((s.perform e.expectedAction e.param accepted).2 = false →
          NextStepOk
            (w.update e.advHandle fun s => (s.perform e.expectedAction e.param accepted).1)
            queue answers.tail)

section

variable {w : World} {e : Event} {queue : List Event} {answers : List Bool} {s : AdvSet}

theorem Calm.inv (h : w.Calm) (hqueue : w.queue = []) : w.Inv where
  distinct := h.distinct
  room := h.room
  sets := h.sets
  one := fun s hs _ _ hne => absurd (h.idle s hs) hne
  busy := fun hne => absurd hqueue hne

theorem Calm.drop (h : ({ w with queue := e :: queue } : World).Calm)
    (hnone : w.set? e.advHandle = none) : ({ w with queue } : World).Calm where
  distinct := h.distinct
  room := Nat.le_trans (Nat.le_succ _) h.room
  sets := fun s hs => (h.sets s hs).drop <| by
    have hne := List.find?_eq_none.mp hnone s hs
    have hne' : e.advHandle ≠ s.advHandle := fun heq => hne (by simp [heq])
    simp [Event.StartStop, hne']
  idle := h.idle

theorem Calm.performed (h : ({ w with queue := e :: queue } : World).Calm)
    (hs : w.set? e.advHandle = some s)
    (hok : s.PerformOk e.expectedAction queue accepted) :
    ∀ t ∈ (w.update e.advHandle fun s => (s.perform e.expectedAction e.param accepted).1).sets,
      t.Inv queue ∧ (t.advHandle ≠ e.advHandle ∧ t.pendingAction = .idle ∨
        t = (s.perform e.expectedAction e.param accepted).1) := by
  intro t ht
  obtain ⟨hmem, hne⟩ | ⟨t', ht', rfl⟩ := @mem_update w t _ _ h.distinct ht
  . refine ⟨(h.sets t hmem).drop ?_, .inl ⟨hne, h.idle t hmem⟩⟩
    simp [Event.StartStop, Ne.symm hne]
  . cases hs.symm.trans ht'
    have hmem := set?_mem hs
    exact ⟨(h.sets s hmem).perform (set?_handle hs).symm (h.idle s hmem) h.room hok, .inr rfl⟩

theorem perform_handle (action : Action) (param : Nat) (accepted : Bool) (s : AdvSet) :
    (s.perform action param accepted).1.advHandle = s.advHandle :=
  (@AdvSet.perform_eq s accepted action param).1

theorem nextStep_inv (h : ({ w with queue } : World).Calm) (hok : w.NextStepOk queue answers) :
    (w.nextStep queue answers).Inv := by
  induction queue generalizing w answers with
  | nil => exact h.inv rfl
  | cons e queue ih =>
    unfold nextStep
    unfold NextStepOk at hok
    dsimp only at hok ⊢
    split
    . next hnone =>
      rw [hnone] at hok
      exact ih (h.drop hnone) hok
    . next s hs =>
      rw [hs] at hok
      obtain ⟨hperform, hrest⟩ := hok
      have hs' : w.set? e.advHandle = some s := hs
      have hsets := h.performed hs' hperform
      obtain ⟨hhandle, hbusy, hidle⟩ :=
        @AdvSet.perform_eq s (answers.headD true) e.expectedAction e.param
      have hdistinct := (@map_update w e.advHandle _
        (perform_handle e.expectedAction e.param (answers.headD true))).symm ▸ h.distinct
      have hroom := Nat.le_trans (Nat.le_succ _) h.room
      split
      . next hacc =>
        refine ⟨hdistinct, hroom, fun t ht => (hsets t ht).1, fun t ht u hu hpt hpu => ?_,
          fun _ => ?_⟩
        . obtain ⟨-, rfl⟩ := (hsets t ht).2.resolve_left fun hidle => hpt hidle.2
          obtain ⟨-, rfl⟩ := (hsets u hu).2.resolve_left fun hidle => hpu hidle.2
          rfl
        . exact findPending_of_update
            (perform_handle e.expectedAction e.param (answers.headD true)) hs' (hbusy hacc)
      . next hacc =>
        have hacc' := Bool.eq_false_iff.mpr hacc
        refine ih ⟨hdistinct, hroom, fun t ht => (hsets t ht).1, fun t ht => ?_⟩ (hrest hacc')
        obtain ⟨-, hidle'⟩ | rfl := (hsets t ht).2
        . exact hidle'
        . exact (hidle hacc').trans (h.idle s (set?_mem hs'))

theorem nextStep_length : (w.nextStep queue answers).queue.length ≤ queue.length - 1 := by
  induction queue generalizing w answers with
  | nil => exact Nat.le_refl _
  | cons e queue ih =>
    have hle : ∀ w answers, (nextStep w queue answers).queue.length ≤ queue.length := fun _ _ =>
      Nat.le_trans ih (Nat.sub_le _ _)
    unfold nextStep
    dsimp only
    split
    . exact hle _ _
    . split
      . exact Nat.le_refl _
      . exact hle _ _

end

section

variable {w : World} {s : AdvSet} {advHandle : Nat} {f g : AdvSet → AdvSet}

theorem update_congr (hs : w.set? advHandle = some s) (heq : f s = g s) :
    w.update advHandle f = w.update advHandle g := by
  have hmodify : ∀ l : List AdvSet, l.find? (·.advHandle == advHandle) = some s →
      First.modify (·.advHandle == advHandle) f l =
        First.modify (·.advHandle == advHandle) g l := by
    intro l
    induction l with
    | nil => exact fun _ => rfl
    | cons a l ih =>
      intro hfind
      unfold First.modify
      rw [List.find?_cons] at hfind
      split
      . next hp =>
        rw [hp] at hfind
        cases hfind
        rw [heq]
      . next hp =>
        rw [Bool.eq_false_iff.mpr hp] at hfind
        rw [ih hfind]
  rw [update, update, hmodify w.sets hs]

theorem update_update (hf : ∀ s, (f s).advHandle = s.advHandle) :
    (w.update advHandle f).update advHandle g = w.update advHandle fun s => g (f s) := by
  have hmodify : ∀ l : List AdvSet, First.modify (·.advHandle == advHandle) g
      (First.modify (·.advHandle == advHandle) f l) =
        First.modify (·.advHandle == advHandle) (fun s => g (f s)) l := by
    intro l
    induction l with
    | nil => rfl
    | cons a l ih =>
      cases hp : a.advHandle == advHandle with
      | true => simp [First.modify, hp, hf]
      | false => simp [First.modify, hp, ih]
  rw [update, update, update]
  exact congrArg (World.mk w.handleNumMax · w.queue) (hmodify w.sets)

theorem Inv.idle_queue (h : w.Inv) (hidle : w.findPending = false) : w.queue = [] := by
  by_contra hne
  rw [h.busy hne] at hidle
  cases hidle

section

variable (h : w.Inv) (hf : ∀ s, (f s).advHandle = s.advHandle)
  (hpending : ∀ s, (f s).pendingAction = s.pendingAction)

include h hf hpending

theorem Inv.one_update :
    ∀ s ∈ (w.update advHandle f).sets, ∀ t ∈ (w.update advHandle f).sets,
      s.pendingAction ≠ .idle → t.pendingAction ≠ .idle → s.advHandle = t.advHandle := by
  have hmem : ∀ s ∈ (w.update advHandle f).sets, s.pendingAction ≠ .idle →
      ∃ t ∈ w.sets, t.pendingAction ≠ .idle ∧ t.advHandle = s.advHandle := by
    intro s hs' hne
    obtain ⟨hs', -⟩ | ⟨t, ht, rfl⟩ := mem_update h.distinct hs'
    . exact ⟨s, hs', hne, rfl⟩
    . exact ⟨t, set?_mem ht, hpending t ▸ hne, (hf t).symm⟩
  intro s hs' t ht hps hpt
  obtain ⟨s0, hs0, hps0, heqs⟩ := hmem s hs' hps
  obtain ⟨t0, ht0, hpt0, heqt⟩ := hmem t ht hpt
  rw [← heqs, ← heqt]
  exact h.one s0 hs0 t0 ht0 hps0 hpt0

theorem Inv.modify (hs : ∀ s, w.set? advHandle = some s → (f s).Inv w.queue) :
    (w.update advHandle f).Inv where
  distinct := (map_update hf).symm ▸ h.distinct
  room := h.room
  sets := fun s hmem => by
    obtain ⟨hmem, -⟩ | ⟨t, ht, rfl⟩ := mem_update h.distinct hmem
    . exact h.sets s hmem
    . exact hs t ht
  one := h.one_update hf hpending
  busy := fun hne => (findPending_update hpending).trans (h.busy hne)

end

theorem Inv.begin (h : w.Inv) (hidle : w.findPending = false)
    (hf : ∀ s, (f s).advHandle = s.advHandle)
    (hs : ∀ s, w.set? advHandle = some s → s.pendingAction = .idle → (f s).Inv []) :
    (w.update advHandle f).Inv where
  distinct := (map_update hf).symm ▸ h.distinct
  room := h.room
  sets := fun s hmem => by
    obtain ⟨hmem, -⟩ | ⟨t, ht, rfl⟩ := mem_update h.distinct hmem
    . exact h.sets s hmem
    . rw [show (w.update advHandle f).queue = [] from h.idle_queue hidle]
      exact hs t ht (findPending_false.mp hidle t (set?_mem ht))
  one := by
    have hhandle : ∀ s ∈ (w.update advHandle f).sets, s.pendingAction ≠ .idle →
        s.advHandle = advHandle := by
      intro s hs' hne
      obtain ⟨hs', -⟩ | ⟨t, ht, rfl⟩ := mem_update h.distinct hs'
      . exact absurd (findPending_false.mp hidle s hs') hne
      . exact (hf t).trans (set?_handle ht)
    exact fun s hs' t ht hps hpt => (hhandle s hs' hps).trans (hhandle t ht hpt).symm
  busy := fun hne => absurd (h.idle_queue hidle) hne

end

section

variable {w : World} {s : AdvSet} {advHandle param : Nat} {action : Action} {sent : Bool}
variable {f : AdvSet → AdvSet}

section

variable (h : w.Inv) (hpending : w.findPending = true)
  (hroom : w.queue.length < maxNumOfExtendAdvEvent)

include h hpending hroom

theorem Inv.sendUpdate :
    ({ w with queue := w.queue ++ [⟨advHandle, .update, param⟩] } : World).Inv where
  distinct := h.distinct
  room := by
    rw [List.length_append]
    exact hroom
  sets := fun s hs => (h.sets s hs).append (by simp [Event.StartStop])
  one := h.one
  busy := fun _ => hpending

theorem Inv.send (haction : action ≠ .update)
    (hf : ∀ s, (f s).advHandle = s.advHandle ∧ (f s).pendingAction = s.pendingAction ∧
      (f s).extAdvState = s.extAdvState ∧
      (f s).pendingStartStopNum = s.incNum.pendingStartStopNum)
    (hs : ∀ s, w.set? advHandle = some s → (f s).enabled = (action == .start)) :
    (({ w with queue := w.queue ++ [⟨advHandle, action, param⟩] } : World).update
      advHandle f).Inv := by
  have hlen : (w.queue ++ [(⟨advHandle, action, param⟩ : Event)]).length ≤
      maxNumOfExtendAdvEvent := by
    rw [List.length_append]
    exact hroom
  refine ⟨?_, hlen, fun t ht => ?_, ?_, fun _ => ?_⟩
  . exact (@map_update w advHandle f fun s => (hf s).1).symm ▸ h.distinct
  . obtain ⟨hmem, hne⟩ | ⟨t, ht', rfl⟩ := mem_update h.distinct ht
    . exact (h.sets t hmem).append (by simp [Event.StartStop, Ne.symm hne])
    . have hinv := h.sets t (set?_mem ht')
      have hss : (⟨advHandle, action, param⟩ : Event).StartStop t.advHandle = true := by
        simp [Event.StartStop, haction, set?_handle ht']
      obtain ⟨hhandle, hpend, hext, hnum⟩ := hf t
      have hle := @count_le t.advHandle w.queue
      refine ⟨?_, ?_, ?_⟩
      . change (f t).pendingStartStopNum = count (f t).advHandle (w.queue ++ [_])
        rw [hnum, hhandle, count_append, if_pos hss, AdvSet.incNum, hinv.num]
        simp only [maxNumOfExtendAdvEvent] at hroom
        exact Nat.mod_eq_of_lt (by omega)
      . change (f t).enabled = settle (f t).advHandle (f t).target (w.queue ++ [_])
        rw [hhandle, settle_append, if_pos hss]
        exact hs t ht'
      . have hphase := hinv.phase
        rw [AdvSet.Phase] at hphase ⊢
        rw [hpend, hext]
        exact hphase
  . exact h.one_update (fun s => (hf s).1) fun s => (hf s).2.1
  . exact (findPending_update fun s => (hf s).2.1).trans hpending

end

theorem sends_room (h : w.sends sent = true) : w.queue.length < maxNumOfExtendAdvEvent := by
  simp only [sends, Bool.and_eq_true, decide_eq_true_eq] at h
  exact h.2

theorem sendMsg_update : w.sendMsg advHandle .update param sent =
    if w.sends sent then
      ({ w with queue := w.queue ++ [⟨advHandle, .update, param⟩] }, true)
    else
      (w, false) := by
  simp [sendMsg]

theorem sendMsg_startStop (haction : action ≠ .update) :
    w.sendMsg advHandle action param sent =
      if w.sends sent then
        (({ w with queue := w.queue ++ [⟨advHandle, action, param⟩] } : World).update advHandle
          AdvSet.incNum, true)
      else
        (w, false) := by
  cases action with
  | start => simp [sendMsg]
  | stop => simp [sendMsg]
  | update => exact absurd rfl haction

theorem startSetAdvParam_inv (h : w.Inv) (flags : Nat) (a : Answers) :
    (w.startSetAdvParam advHandle flags a).1.Inv := by
  unfold startSetAdvParam
  split
  . split
    . next hpending =>
      rw [sendMsg_update]
      split
      . next hsends => exact h.sendUpdate hpending (sends_room hsends)
      . exact h
    . next hidle =>
      have hidle' := Bool.eq_false_iff.mpr hidle
      refine h.begin hidle' (fun s => (@AdvSet.actionUpdate_eq s flags a.update).1)
        fun s hs hs' => ?_
      have hinv := h.sets s (set?_mem hs)
      rw [h.idle_queue hidle'] at hinv
      exact hinv.actionUpdate hs' ..
  . exact h

theorem startSetAdvParam_set? (hs : w.set? advHandle = some s) (flags : Nat) (a : Answers) :
    ∃ s', (w.startSetAdvParam advHandle flags a).1.set? advHandle = some s' ∧
      s'.enabled = s.enabled := by
  unfold startSetAdvParam
  split
  . split
    . rw [sendMsg_update]
      split <;> exact ⟨s, hs, rfl⟩
    . have hset := @set?_update w advHandle (·.actionUpdate flags a.update)
        fun s => (@AdvSet.actionUpdate_eq s flags a.update).1
      rw [hs] at hset
      exact ⟨_, hset, (@AdvSet.actionUpdate_eq s flags a.update).2.2.1⟩
  . exact ⟨s, hs, rfl⟩

theorem startSetAdvParam_tell (flags : Nat) (a : Answers) (enabled : Bool) :
    (w.startSetAdvParam advHandle flags a).1.update advHandle (·.tell enabled) =
      ((w.update advHandle (·.tell enabled)).startSetAdvParam advHandle flags a).1 := by
  have hpending : (w.update advHandle (·.tell enabled)).findPending = w.findPending :=
    findPending_update fun _ => rfl
  unfold startSetAdvParam
  rw [hpending]
  split
  . split
    . rw [sendMsg_update, sendMsg_update]
      have hsends : (w.update advHandle (·.tell enabled)).sends a.sendUpdate =
          w.sends a.sendUpdate := rfl
      rw [hsends]
      split <;> rfl
    . have hcomm : ∀ s : AdvSet, (s.actionUpdate flags a.update).tell enabled =
          (s.tell enabled).actionUpdate flags a.update := by
        intro s
        cases ha : a.update with
        | false =>
          unfold AdvSet.actionUpdate
          split <;> rfl
        | true =>
          unfold AdvSet.actionUpdate AdvSet.tell
          split <;> simp only [if_true] <;> split <;> rfl
      dsimp only
      rw [update_update fun s => (@AdvSet.actionUpdate_eq s flags a.update).1,
        @update_update _ _ (·.tell enabled) _ fun _ => rfl]
      simp only [hcomm]
  . rfl

end

section

variable {w : World} {s : AdvSet} {advHandle : Nat} {a : Answers}

theorem Inv.sendRequest (h : w.Inv) (hpending : w.findPending = true)
    (haction : action ≠ .update) (param : Nat) (sent : Bool)
    (hf : ∀ s, (f s).advHandle = s.advHandle ∧ (f s).pendingAction = s.pendingAction ∧
      (f s).extAdvState = s.extAdvState ∧ (f s).pendingStartStopNum = s.pendingStartStopNum)
    (henabled : ∀ s, (f s).enabled = (action == .start)) :
    ((w.sendMsg advHandle action param sent).2 = true →
      ((w.sendMsg advHandle action param sent).1.update advHandle f).Inv) ∧
    ((w.sendMsg advHandle action param sent).2 = false →
      (w.sendMsg advHandle action param sent).1.Inv) := by
  rw [sendMsg_startStop haction]
  split
  . next hsends =>
    refine ⟨fun _ => ?_, fun heq => Bool.noConfusion heq⟩
    dsimp only
    rw [@update_update _ _ AdvSet.incNum _ fun _ => rfl]
    exact h.send hpending (sends_room hsends) haction (fun s => hf s.incNum)
      fun _ _ => henabled _
  . exact ⟨fun heq => Bool.noConfusion heq, fun _ => h⟩

theorem Inv.idle_set (h : w.Inv) (hidle : w.findPending = false) (hs : w.set? advHandle = some s) :
    s.Inv [] ∧ (s.extAdvState = .idle ∨ s.extAdvState = .advertising) ∧
      s.enabled = (s.extAdvState == .advertising) := by
  have hinv := h.sets s (set?_mem hs)
  have hpending := findPending_false.mp hidle s (set?_mem hs)
  rw [h.idle_queue hidle] at hinv
  have hsettles := hinv.settles
  rw [AdvSet.target_idle hpending] at hsettles
  exact ⟨hinv, AdvSet.phase_idle hinv.phase hpending, hsettles⟩

theorem requestStart_inv (h : w.Inv) (hs : w.set? advHandle = some s) (hen : s.enabled = false)
    (duration : Nat) :
    ((w.requestStart advHandle duration a).2 = true →
      ((w.requestStart advHandle duration a).1.update advHandle (·.tellEnabled duration)).Inv) ∧
    ((w.requestStart advHandle duration a).2 = false →
      (w.requestStart advHandle duration a).1.Inv) := by
  unfold requestStart
  split
  . next hpending =>
    exact h.sendRequest hpending (by decide) duration a.sendStart (fun _ => ⟨rfl, rfl, rfl, rfl⟩)
      fun _ => rfl
  . next hidle =>
    have hidle' := Bool.eq_false_iff.mpr hidle
    obtain ⟨hinv, hphase, henabled⟩ := h.idle_set hidle' hs
    have hext : s.extAdvState = .idle := by
      refine hphase.resolve_right fun hadv => ?_
      rw [hen, hadv] at henabled
      cases henabled
    cases ha : a.start with
    | false =>
      refine ⟨fun heq => Bool.noConfusion heq, fun _ => ?_⟩
      refine h.begin hidle' (fun _ => rfl) fun t ht _ => ?_
      cases hs.symm.trans ht
      exact hinv.congr rfl rfl hen.symm rfl hinv.phase
    | true =>
      refine ⟨fun _ => ?_, fun heq => Bool.noConfusion heq⟩
      dsimp only
      rw [@update_update _ _ (·.actionStart true) _ fun _ => rfl]
      refine h.begin hidle' (fun _ => rfl) fun t ht _ => ?_
      cases hs.symm.trans ht
      exact ⟨hinv.num, rfl, .inl hext⟩

theorem requestStop_inv (h : w.Inv) (hs : w.set? advHandle = some s) (hen : s.enabled = true)
    (appCause : Nat) :
    ((w.requestStop advHandle appCause a).2 = true →
      ((w.requestStop advHandle appCause a).1.update advHandle (·.tell false)).Inv) ∧
    ((w.requestStop advHandle appCause a).2 = false →
      (w.requestStop advHandle appCause a).1.Inv) := by
  unfold requestStop
  split
  . next hpending =>
    exact h.sendRequest hpending (by decide) appCause a.sendStop (fun _ => ⟨rfl, rfl, rfl, rfl⟩)
      fun _ => rfl
  . next hidle =>
    have hidle' := Bool.eq_false_iff.mpr hidle
    obtain ⟨hinv, hphase, henabled⟩ := h.idle_set hidle' hs
    have hext : s.extAdvState = .advertising := by
      refine hphase.resolve_left fun hidle => ?_
      rw [hen, hidle] at henabled
      cases henabled
    cases ha : a.stop with
    | false =>
      refine ⟨fun heq => Bool.noConfusion heq, fun _ => ?_⟩
      refine h.begin hidle' (fun _ => rfl) fun t ht _ => ?_
      cases hs.symm.trans ht
      exact hinv.congr rfl rfl rfl rfl hinv.phase
    | true =>
      refine ⟨fun _ => ?_, fun heq => Bool.noConfusion heq⟩
      dsimp only
      rw [@update_update _ _ (·.actionStop appCause true) _ fun _ => rfl]
      refine h.begin hidle' (fun _ => rfl) fun t ht _ => ?_
      cases hs.symm.trans ht
      exact ⟨hinv.num, rfl, .inl hext⟩

end

end World

end ExtAdv
