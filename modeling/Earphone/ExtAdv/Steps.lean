import Earphone.ExtAdv.Inv

namespace ExtAdv

namespace AdvSet

variable {s : AdvSet} {queue : List Event}

theorem Inv.congr {s' : AdvSet} (h : s.Inv queue) (hhandle : s'.advHandle = s.advHandle)
    (hnum : s'.pendingStartStopNum = s.pendingStartStopNum) (henabled : s'.enabled = s.enabled)
    (htarget : s'.target = s.target) (hphase : s'.Phase) : s'.Inv queue where
  num := by rw [hnum, hhandle, h.num]
  settles := by rw [henabled, hhandle, htarget, h.settles]
  phase := hphase

theorem Inv.append {e : Event} (h : s.Inv queue) (he : e.StartStop s.advHandle = false) :
    s.Inv (queue ++ [e]) where
  num := by rw [h.num, count_append, he]; rfl
  settles := by rw [h.settles, settle_append, he]; rfl
  phase := h.phase

theorem Inv.drop (h : s.Inv (e :: queue)) (he : e.StartStop s.advHandle = false) : s.Inv queue where
  num := by
    have hnum := h.num
    rw [count_cons, he] at hnum
    exact hnum
  settles := by
    have hsettles := h.settles
    rw [settle, he] at hsettles
    exact hsettles
  phase := h.phase

theorem target_idle (h : s.pendingAction = .idle) : s.target = (s.extAdvState == .advertising) := by
  rw [target, h]

theorem phase_idle (hp : s.Phase) (h : s.pendingAction = .idle) :
    s.extAdvState = .idle ∨ s.extAdvState = .advertising := by
  rw [Phase, h] at hp
  exact hp

theorem actionUpdate_eq (flags : Nat) (accepted : Bool) :
    (s.actionUpdate flags accepted).advHandle = s.advHandle ∧
    (s.actionUpdate flags accepted).pendingStartStopNum = s.pendingStartStopNum ∧
    (s.actionUpdate flags accepted).enabled = s.enabled ∧
    (s.actionUpdate flags accepted).extAdvState = s.extAdvState ∧
    (s.actionUpdate flags accepted).pendingAction =
      if accepted then .update else s.pendingAction := by
  cases accepted with
  | false =>
    unfold actionUpdate
    split <;> exact ⟨rfl, rfl, rfl, rfl, rfl⟩
  | true =>
    unfold actionUpdate
    split <;> simp only [if_true] <;> split <;> exact ⟨rfl, rfl, rfl, rfl, rfl⟩

theorem Inv.actionUpdate (h : s.Inv queue) (hidle : s.pendingAction = .idle) (flags : Nat)
    (accepted : Bool) : (s.actionUpdate flags accepted).Inv queue := by
  obtain ⟨hhandle, hnum, henabled, hext, hpending⟩ := @actionUpdate_eq s flags accepted
  have hphase := phase_idle h.phase hidle
  refine h.congr hhandle hnum henabled ?_ ?_
  . rw [target_idle hidle, target, hpending, hext, hidle]
    cases accepted <;> rfl
  . rw [Phase, hpending, hext, hidle]
    cases accepted <;> exact hphase

theorem checkState_eq (cause : Nat) (stateChange : Bool) :
    (s.checkState cause stateChange).advHandle = s.advHandle ∧
    (s.checkState cause stateChange).pendingStartStopNum = s.pendingStartStopNum ∧
    (s.checkState cause stateChange).extAdvState = s.extAdvState ∧
    (s.checkState cause stateChange).pendingAction = s.pendingAction := by
  unfold checkState
  cases stateChange <;> simp only [Bool.false_eq_true, if_true, if_false] <;> split <;>
    (try split) <;> (try split) <;> (try split) <;> exact ⟨rfl, rfl, rfl, rfl⟩

theorem checkState_enabled (cause : Nat) (stateChange : Bool) :
    (s.checkState cause stateChange).enabled =
      if s.extAdvState = .idle ∧
          (if s.pendingStartStopNum = 0 then
            ¬((if stateChange then cause else s.pendingCause) = cancelledByHost ∧
              s.appCause = appStopForUpdate)
          else (if stateChange then cause else s.pendingCause) = 0) then
        false
      else s.enabled := by
  unfold checkState
  cases stateChange <;> simp only [Bool.false_eq_true, if_true, if_false] <;> grind

def PerformOk (s : AdvSet) (action : Action) (queue : List Event) (accepted : Bool) : Prop :=
  match action with
  | .start => s.extAdvState = .idle → accepted = true ∨ settle s.advHandle false queue = false
  | .stop => s.extAdvState = .advertising → accepted = true ∨ count s.advHandle queue ≠ 0
  | .update => True

section

variable {e : Event} {accepted : Bool}

theorem Inv.decNum_num (h : s.Inv (e :: queue)) (he : e.StartStop s.advHandle = true)
    (hlen : (e :: queue).length ≤ maxNumOfExtendAdvEvent) :
    s.decNum.pendingStartStopNum = count s.advHandle queue := by
  have hle := @count_le s.advHandle queue
  have hnum := h.num
  simp only [count_cons, he, if_true] at hnum
  simp only [List.length_cons, maxNumOfExtendAdvEvent] at hlen
  simp only [decNum, hnum]
  omega

theorem perform_eq (action : Action) (param : Nat) :
    (s.perform action param accepted).1.advHandle = s.advHandle ∧
    ((s.perform action param accepted).2 = true → (s.perform action param accepted).1.pendingAction
      ≠ .idle) ∧
    ((s.perform action param accepted).2 = false →
      (s.perform action param accepted).1.pendingAction = s.pendingAction) := by
  unfold perform
  cases action with
  | start =>
    dsimp only
    split
    . cases accepted with
      | false =>
        split
        . obtain ⟨hhandle, -, -, hpending⟩ := @checkState_eq (s.decNum.actionStart false) 0 false
          exact ⟨hhandle, fun heq => (Bool.false_ne_true heq).elim, fun _ => hpending⟩
        . exact ⟨rfl, fun heq => (Bool.false_ne_true heq).elim, fun _ => rfl⟩
      | true =>
        rw [if_neg fun heq => Bool.noConfusion heq.2]
        exact ⟨rfl, fun _ heq => PendingAction.noConfusion heq, fun heq => Bool.noConfusion heq⟩
    . exact ⟨rfl, fun heq => (Bool.false_ne_true heq).elim, fun _ => rfl⟩
  | stop =>
    dsimp only
    split
    . cases accepted with
      | false =>
        split
        . obtain ⟨hhandle, -, -, hpending⟩ :=
            @checkState_eq (s.decNum.actionStop param false) 0 false
          exact ⟨hhandle, fun heq => (Bool.false_ne_true heq).elim, fun _ => hpending⟩
        . exact ⟨rfl, fun heq => (Bool.false_ne_true heq).elim, fun _ => rfl⟩
      | true =>
        rw [if_neg fun heq => Bool.noConfusion heq.2]
        exact ⟨rfl, fun _ heq => PendingAction.noConfusion heq, fun heq => Bool.noConfusion heq⟩
    . exact ⟨rfl, fun heq => (Bool.false_ne_true heq).elim, fun _ => rfl⟩
  | update =>
    obtain ⟨hhandle, -, -, -, hpending⟩ := @actionUpdate_eq s param accepted
    refine ⟨hhandle, ?_, ?_⟩
    . rintro rfl
      rw [hpending]
      exact PendingAction.noConfusion
    . rintro rfl
      exact hpending

theorem Inv.popped (h : s.Inv (e :: queue)) (he : e.StartStop s.advHandle = true)
    (hlen : (e :: queue).length ≤ maxNumOfExtendAdvEvent) {s' : AdvSet}
    (hhandle : s'.advHandle = s.advHandle)
    (hnum : s'.pendingStartStopNum = s.decNum.pendingStartStopNum)
    (henabled : s'.enabled = s.enabled)
    (htarget : settle s.advHandle (e.expectedAction == .start) queue =
      settle s.advHandle s'.target queue) (hphase : s'.Phase) : s'.Inv queue where
  num := by rw [hnum, hhandle, h.decNum_num he hlen]
  settles := by
    have hsettles := h.settles
    simp only [settle, he, if_true] at hsettles
    rw [henabled, hhandle, hsettles, htarget]
  phase := hphase

section

variable (h : s.Inv (e :: queue)) (he : e.advHandle = s.advHandle)

include h he

theorem Inv.performStart (hact : e.expectedAction = .start) (hidle : s.pendingAction = .idle)
    (hlen : (e :: queue).length ≤ maxNumOfExtendAdvEvent)
    (hok : s.PerformOk .start queue accepted) :
    (s.perform .start e.param accepted).1.Inv queue := by
  have hss : e.StartStop s.advHandle = true := by simp [Event.StartStop, he, hact]
  have hphase := phase_idle h.phase hidle
  have hnum := h.decNum_num hss hlen
  unfold perform
  dsimp only
  split
  . next hext =>
    have hext' : s.extAdvState = .idle := hext
    cases accepted with
    | true =>
      rw [if_neg fun heq => Bool.noConfusion heq.2]
      refine h.popped hss hlen rfl rfl rfl ?_ (.inl hext')
      rw [hact]
      rfl
    | false =>
      have hsettle := (hok hext').resolve_left Bool.false_ne_true
      have hrefused : (s.decNum.actionStart false).Inv queue :=
        { num := hnum
          settles := by
            have htarget : (s.decNum.actionStart false).target = false := by
              rw [@target_idle (s.decNum.actionStart false) hidle]
              simp [actionStart, decNum, hext']
            rw [htarget]
            exact hsettle.symm
          phase := by
            rw [Phase, show (s.decNum.actionStart false).pendingAction = .idle from hidle]
            exact .inl hext' }
      split
      . obtain ⟨hhandle, hnum', hext'', hpending⟩ :=
          @checkState_eq (s.decNum.actionStart false) 0 false
        refine hrefused.congr hhandle hnum' ?_ ?_ ?_
        . rw [checkState_enabled, show (s.decNum.actionStart false).enabled = false from rfl]
          exact ite_self _
        . rw [target, target, hpending, hext'']
        . have hp := hrefused.phase
          rw [Phase, hpending, hext'']
          exact hp
      . exact hrefused
  . next hext =>
    have hadv : s.extAdvState = .advertising := hphase.resolve_left hext
    refine h.popped hss hlen rfl rfl rfl ?_ ?_
    . rw [hact, @target_idle s.decNum hidle]
      simp [decNum, hadv]
    . rw [Phase, show s.decNum.pendingAction = .idle from hidle]
      exact .inr hadv

theorem Inv.performStop (hact : e.expectedAction = .stop) (hidle : s.pendingAction = .idle)
    (hlen : (e :: queue).length ≤ maxNumOfExtendAdvEvent)
    (hok : s.PerformOk .stop queue accepted) : (s.perform .stop e.param accepted).1.Inv queue := by
  have hss : e.StartStop s.advHandle = true := by simp [Event.StartStop, he, hact]
  have hphase := phase_idle h.phase hidle
  have hnum := h.decNum_num hss hlen
  unfold perform
  dsimp only
  split
  . next hext =>
    have hext' : s.extAdvState = .advertising := hext
    cases accepted with
    | true =>
      rw [if_neg fun heq => Bool.noConfusion heq.2]
      refine h.popped hss hlen rfl rfl rfl ?_ (.inl hext')
      rw [hact]
      rfl
    | false =>
      have hcount := (hok hext').resolve_left Bool.false_ne_true
      -- the number is not 0 then, and nothing is told to the application
      rw [if_neg fun heq => hcount (hnum.symm.trans heq.1)]
      refine h.popped hss hlen rfl rfl rfl (settle_congr hcount) ?_
      rw [Phase, show (s.decNum.actionStop e.param false).pendingAction = .idle from hidle]
      exact .inr hext'
  . next hext =>
    have hidle' : s.extAdvState = .idle := hphase.resolve_right hext
    refine h.popped hss hlen rfl rfl rfl ?_ ?_
    . rw [hact, @target_idle s.decNum hidle]
      simp only [decNum, hidle']
      rfl
    . rw [Phase, show s.decNum.pendingAction = .idle from hidle]
      exact .inl hidle'

theorem Inv.perform (hidle : s.pendingAction = .idle)
    (hlen : (e :: queue).length ≤ maxNumOfExtendAdvEvent)
    (hok : s.PerformOk e.expectedAction queue accepted) :
    (s.perform e.expectedAction e.param accepted).1.Inv queue := by
  cases hact : e.expectedAction with
  | start =>
    rw [hact] at hok
    exact h.performStart he hact hidle hlen hok
  | stop =>
    rw [hact] at hok
    exact h.performStop he hact hidle hlen hok
  | update => exact (h.drop (by simp [Event.StartStop, hact])).actionUpdate hidle ..

end

end

end AdvSet

end ExtAdv
