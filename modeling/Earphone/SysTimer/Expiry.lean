import Earphone.SysTimer.Inv

namespace SysTimer

open DeltaList

theorem inv_elapse (hs : Inv s) (us : Nat) : Inv (elapse us s) where
  nodup := hs.nodup
  listed := hs.listed
  unlisted := hs.unlisted
  interval := hs.interval
  listedAt := Nat.le_add_right_of_le hs.listedAt
  hpTimeoutAt := Nat.le_add_right_of_le hs.hpTimeoutAt
  hpTimeoutTime := hs.hpTimeoutTime
  started := hs.started
  dueFor := by
    intro h hdue
    obtain ⟨l, rest, hlist, hle, hl⟩ := hs.dueFor h hdue
    exact ⟨l, rest, hlist, Nat.le_add_right_of_le hle, hl⟩
  fired := hs.fired

theorem inv_sysHwTimerHandler (hs : Inv s) (posted : Bool) : Inv (sysHwTimerHandler posted s) := by
  unfold sysHwTimerHandler
  split
  . exact hs
  . next at_ period hw =>
    split
    . next hle =>
      obtain ⟨hat, h, l, rest, hlist, hl, hint⟩ := hs.started at_ period hw
      exact {
        nodup := hs.nodup
        listed := hs.listed
        unlisted := hs.unlisted
        interval := hs.interval
        listedAt := hs.listedAt
        hpTimeoutAt := Nat.le_refl _
        hpTimeoutTime := rfl
        started := by simp
        dueFor := by
          intro k hk
          simp only [hlist, List.head?_cons, Option.map_some, Option.some.injEq] at hk
          subst hk
          exact ⟨l, rest, hlist, by dsimp only; omega, .inr ⟨rfl, Nat.le_of_eq hint.symm⟩⟩
        fired := hs.fired
      }
    . exact hs

theorem inv_setTimer (hs : Inv s) (hh : h ∉ s.hpTimerList.keys)
    (t : Option Timer) (ht : ∀ t', t = some t' → t'.timeoutInterval < 2 ^ 32) :
    Inv (setTimer h t s) where
  nodup := hs.nodup
  listed := by
    intro k offset ho
    have hk : k ≠ h := fun hk => hh (hk ▸ mem_keys_of_offset? ho)
    obtain ⟨t', since, ht', hrest⟩ := hs.listed k offset ho
    exact ⟨t', since, by simpa [setTimer, hk] using ht', hrest⟩
  unlisted := hs.unlisted
  interval := by
    intro k t' hk
    by_cases hkh : k = h
    . subst hkh
      exact ht t' (by simpa [setTimer] using hk)
    . exact hs.interval k t' (by simpa [setTimer, hkh] using hk)
  listedAt := hs.listedAt
  hpTimeoutAt := hs.hpTimeoutAt
  hpTimeoutTime := hs.hpTimeoutTime
  started := hs.started
  dueFor := hs.dueFor
  fired := hs.fired

theorem u32_lt (n : Nat) : u32 n < 2 ^ 32 := Nat.mod_lt n (by decide)

theorem inv_sysTimerCreate (hs : Inv s) (h : Handle) (t : Timer) : Inv (sysTimerCreate h t s) := by
  unfold sysTimerCreate
  split
  . next hnone =>
    apply inv_setTimer hs
    . intro hmem
      obtain ⟨t', ht'⟩ := hs.mem_timers hmem
      rw [hnone] at ht'
      cases ht'
    . intro t' ht'
      cases ht'
      exact u32_lt _
  . exact hs

def StartOk (h : Handle) (gap : Nat) (s : State) : Prop :=
  RemoveOk h s ∧ InsertOk (elapse gap (sysHpTimerListRemove h s))
  deriving Decidable

theorem inv_sysTimerStart (hs : Inv s)
    (hok : StartOk h gap s) : Inv (sysTimerStart h gap s) := by
  unfold sysTimerStart
  split
  . exact hs
  . next t ht =>
    apply inv_sysHpTimerListInsert
    . exact inv_elapse (inv_sysHpTimerListRemove hs hok.1) gap
    . simpa [elapse] using ht
    . exact not_mem_sysHpTimerListRemove hs h hok.1
    . exact hok.2

theorem inv_sysTimerRestart (hs : Inv s)
    (hok : StartOk h gap s) : Inv (sysTimerRestart h timeoutUs gap s) := by
  unfold sysTimerRestart
  split
  . exact hs
  . next t ht =>
    have hmem := not_mem_sysHpTimerListRemove hs h hok.1
    apply inv_sysHpTimerListInsert
    . apply inv_elapse
      apply inv_setTimer (inv_sysHpTimerListRemove hs hok.1) hmem
      intro t' ht'
      cases ht'
      exact u32_lt _
    . simp [elapse, setTimer]
    . exact hmem
    . exact hok.2

theorem inv_sysTimerStop (hs : Inv s) (hok : RemoveOk h s) : Inv (sysTimerStop h s) := by
  unfold sysTimerStop
  split
  . exact hs
  . exact inv_sysHpTimerListRemove hs hok

theorem inv_sysTimerDelete (hs : Inv s) (hok : RemoveOk h s) : Inv (sysTimerDelete h s) := by
  unfold sysTimerDelete
  split
  . exact hs
  . exact inv_setTimer (inv_sysHpTimerListRemove hs hok) (not_mem_sysHpTimerListRemove hs h hok)
      none (by simp)

def Call.Ok (s : State) : Call → Prop
  | .elapse _ | .interrupt _ | .create _ _ => True
  | .start h gap | .restart h _ gap => StartOk h gap s
  | .stop h | .delete h => RemoveOk h s

instance (s : State) (c : Call) : Decidable (c.Ok s) := by
  cases c <;> (unfold Call.Ok; infer_instance)

theorem inv_call (c : Call) (hs : Inv s) (hok : c.Ok s) : Inv (c.step s) := by
  cases c with
  | elapse us => exact inv_elapse hs us
  | interrupt posted => exact inv_sysHwTimerHandler hs posted
  | create h t => exact inv_sysTimerCreate hs h t
  | start h gap => exact inv_sysTimerStart hs hok
  | restart h timeoutUs gap => exact inv_sysTimerRestart hs hok
  | stop h => exact inv_sysTimerStop hs hok
  | delete h => exact inv_sysTimerDelete hs hok

theorem inv_expireOut (hs : Inv s)
    (hlist : s.hpTimerList = (h, l) :: rest) (hdue : s.dueFor = some h) :
    Inv (expireOut h l rest s) where
  nodup := by
    have := hs.nodup
    rw [hlist, keys_cons, List.nodup_cons] at this
    exact this.2
  listed := by
    intro k offset ho
    have hnodup := hs.nodup
    rw [hlist, keys_cons, List.nodup_cons] at hnodup
    have hk : h ≠ k := fun hk => hnodup.1 (hk ▸ mem_keys_of_offset? ho)
    obtain ⟨t, since, ht, hsince, hle, hlt, hsum⟩ :=
      hs.listed k (l + offset) (by rw [hlist]; exact offset?_cons_eq_some hk ho)
    refine ⟨t, since, ht, by simpa [expireOut, hk.symm] using hsince, by omega, hlt, ?_⟩
    simp only [expireOut]
    omega
  unlisted := by
    intro k hk
    by_cases hkh : k = h
    . simp [expireOut, hkh]
    . simp only [expireOut] at hk
      have := hs.unlisted k (by simpa [hlist, hkh] using hk)
      simpa [expireOut, hkh] using this
  interval := hs.interval
  listedAt := by
    obtain ⟨l', rest', hlist', hle, _⟩ := hs.dueFor h hdue
    rw [hlist] at hlist'
    cases hlist'
    exact hle
  hpTimeoutAt := hs.hpTimeoutAt
  hpTimeoutTime := hs.hpTimeoutTime
  started := by simp [expireOut, hwTimerStop]
  dueFor := by simp [expireOut]
  fired := hs.fired

theorem dueFor_onTime (hs : Inv s)
    (hdue : s.dueFor = some h) (ht : s.timers h = some t) (now : Nat) (hnow : s.now ≤ now) :
    Fire.OnTime ⟨h, s.startedAt h, t.timeoutInterval, now⟩ := by
  obtain ⟨l, rest, hlist, hle, _⟩ := hs.dueFor h hdue
  obtain ⟨t', since, ht', hsince, _, _, hsum⟩ := hs.listed h l (by simp [hlist])
  rw [ht] at ht'
  cases ht'
  refine ⟨since, hsince, ?_⟩
  dsimp only
  omega

theorem inv_recordFire (hs : Inv s)
    (hf : Fire.OnTime ⟨h, since, t.timeoutInterval, s.now⟩) : Inv (recordFire h t since s) where
  nodup := hs.nodup
  listed := hs.listed
  unlisted := hs.unlisted
  interval := hs.interval
  listedAt := hs.listedAt
  hpTimeoutAt := hs.hpTimeoutAt
  hpTimeoutTime := hs.hpTimeoutTime
  started := hs.started
  dueFor := hs.dueFor
  fired := by
    intro g hg
    simp only [recordFire, List.mem_append, List.mem_singleton] at hg
    cases hg with
    | inl hg => exact hs.fired g hg
    | inr hg => exact hg ▸ hf

def RearmOk (s : State) : Prop := hwTimerIsActive s = true ∨ s.hpTimerList = [] ∨ ChargeOk s
  deriving Decidable

theorem inv_expireRearm (hs : Inv s) (hok : RearmOk s) : Inv (expireRearm s) := by
  unfold expireRearm
  split
  . next hact =>
    have hok : ChargeOk s := by
      obtain h | h | h := hok
      . rw [hact.1] at h
        cases h
      . exact absurd h hact.2
      . exact h
    have hstop := inv_hwTimerStop_update hs hok
    -- the timer is not active, so stopping it before the restart makes no difference
    have heq : restartHead (sysHpTimerElapsedTimeUpdate s) =
        restartHead (hwTimerStop (sysHpTimerElapsedTimeUpdate s)) := by
      unfold restartHead
      cases hlist : s.hpTimerList with
      | nil => exact absurd hlist hact.2
      | cons x xs =>
        obtain ⟨h, l⟩ := x
        simp [hwTimerStop, hlist, charge_cons, hwTimerRestart]
    rw [heq]
    apply inv_restartHead hstop (by simp [hwTimerStop])
    intro h hdue
    simpa [hwTimerStop] using dueFor_head_zero hs hok (by simpa [hwTimerStop] using hdue)
  . exact hs

@[simp]
theorem sysHpTimerListInsert_now (h : Handle) (t : Timer) (s : State) :
    (sysHpTimerListInsert h t s).now = s.now := by
  unfold sysHpTimerListInsert
  dsimp only
  split
  . rfl
  . split
    . unfold restartHead
      split <;> simp [hwTimerStop, hwTimerRestart]
    . simp [hwTimerStop]

def InvokeOk (h : Handle) (t : Timer) (since : Option Nat) (body : List Call) (s : State) : Prop :=
  (t.reload = true → InsertOk s) ∧
    Run.Along Call.step Call.Ok (recordFire h t since (expireReload h t s)) body ∧
    RearmOk (invoke h t since body (expireReload h t s))

instance (h : Handle) (t : Timer) (since : Option Nat) (body : List Call) (s : State) :
    Decidable (InvokeOk h t since body s) := inferInstanceAs (Decidable (_ ∧ _))

@[simp]
theorem expireReload_now (h : Handle) (t : Timer) (s : State) :
    (expireReload h t s).now = s.now := by
  unfold expireReload
  split <;> simp

section

variable (hs : Inv s) (ht : s.timers h = some t) (hh : h ∉ s.hpTimerList.keys)

include hs ht hh

theorem inv_expireReload (hok : t.reload = true → InsertOk s) : Inv (expireReload h t s) := by
  unfold expireReload
  split
  . next hreload => exact inv_sysHpTimerListInsert hs ht hh (hok hreload)
  . exact hs

theorem inv_invoke (hf : Fire.OnTime ⟨h, since, t.timeoutInterval, s.now⟩)
    (hok : InvokeOk h t since body s) :
    Inv (expireRearm (invoke h t since body (expireReload h t s))) := by
  obtain ⟨hreload, hbody, hrearm⟩ := hok
  apply inv_expireRearm _ hrearm
  -- the calls of the callback come between the reload and the re-arming
  refine Run.exec_inv (fun s c hs hc => inv_call c hs hc) _ body ?_ hbody
  apply inv_recordFire (inv_expireReload hs ht hh hreload)
  simpa using hf

end

def ExpireOk (body : List Call) (s : State) : Prop :=
  match s.hpTimerList with
  | [] => True
  | (h, timeoutLeft) :: rest =>
    s.dueFor = some h ∧
      match s.timers h with
      | none => True
      | some t =>
        if t.cback then
          InvokeOk h t (s.startedAt h) body (expireOut h timeoutLeft rest s)
        else
          RearmOk (expireOut h timeoutLeft rest s)

instance (body : List Call) (s : State) : Decidable (ExpireOk body s) := by
  unfold ExpireOk
  split
  . infer_instance
  . apply @instDecidableAnd _ _ _ ?_
    split <;> infer_instance

theorem inv_sysHpTimerExpire (hs : Inv s) (hok : ExpireOk body s) :
    Inv (sysHpTimerExpire body s) := by
  unfold sysHpTimerExpire
  unfold ExpireOk at hok
  split
  . next hlist =>
    have hdue : ∀ h, s.dueFor ≠ some h := by
      intro h hdue
      obtain ⟨_, _, hlist', _⟩ := hs.dueFor h hdue
      rw [hlist] at hlist'
      cases hlist'
    exact {
      nodup := hs.nodup
      listed := hs.listed
      unlisted := hs.unlisted
      interval := hs.interval
      listedAt := hs.listedAt
      hpTimeoutAt := hs.hpTimeoutAt
      hpTimeoutTime := hs.hpTimeoutTime
      started := by simp [hwTimerStop]
      dueFor := fun h h' => absurd h' (hdue h)
      fired := hs.fired
    }
  . next h l rest hlist =>
    simp only [hlist] at hok
    obtain ⟨hdue, hok⟩ := hok
    have hout := inv_expireOut hs hlist hdue
    obtain ⟨t, ht⟩ := hs.mem_timers (h := h) (by simp [hlist])
    -- the head is in the list once
    have hh : h ∉ (expireOut h l rest s).hpTimerList.keys := by
      have := hs.nodup
      rw [hlist, keys_cons, List.nodup_cons] at this
      exact this.1
    simp only [ht] at hok ⊢
    split at hok
    . next hcback =>
      rw [if_pos hcback]
      exact inv_invoke hout ht hh (dueFor_onTime hs hdue ht _ (Nat.le_refl _)) hok
    . next hcback =>
      rw [if_neg hcback]
      exact inv_expireRearm hout hok

def Event.Ok (s : State) : Event → Prop
  | .call c => c.Ok s
  | .sysMsgHandler body => s.msgQueue = 0 ∨ ExpireOk body { s with msgQueue := s.msgQueue - 1 }

instance (s : State) (e : Event) : Decidable (e.Ok s) := by
  cases e <;> (unfold Event.Ok; infer_instance)

theorem inv_msgQueue (hs : Inv s) (n : Nat) : Inv { s with msgQueue := n } where
  nodup := hs.nodup
  listed := hs.listed
  unlisted := hs.unlisted
  interval := hs.interval
  listedAt := hs.listedAt
  hpTimeoutAt := hs.hpTimeoutAt
  hpTimeoutTime := hs.hpTimeoutTime
  started := hs.started
  dueFor := hs.dueFor
  fired := hs.fired

theorem inv_event (e : Event) (hs : Inv s) (hok : e.Ok s) : Inv (e.step s) := by
  cases e with
  | call c => exact inv_call c hs hok
  | sysMsgHandler body =>
    by_cases hq : s.msgQueue = 0
    . simpa [Event.step, hq] using hs
    . simpa [Event.step, hq] using inv_sysHpTimerExpire (inv_msgQueue hs _) (hok.resolve_left hq)

end SysTimer
