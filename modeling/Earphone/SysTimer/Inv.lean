import Earphone.SysTimer.Basic

namespace SysTimer

open DeltaList

def Counting (s : State) : Prop :=
  match s.hw with
  | .stopped => False
  | .started at_ period => at_ < s.now ∧ s.now < at_ + period

def ChargeOk (s : State) : Prop :=
  Counting s ∨
    s.listedAt + s.timeoutInterval ≤ s.hpTimeoutAt ∧
      s.timeoutInterval + (s.now - s.hpTimeoutAt) < 2 ^ 32

instance (s : State) : Decidable (Counting s) :=
  match h : s.hw with
  | .stopped => .isFalse (by simp [Counting, h])
  | .started at_ period =>
    decidable_of_iff (at_ < s.now ∧ s.now < at_ + period) (by simp [Counting, h])

instance (s : State) : Decidable (ChargeOk s) := inferInstanceAs (Decidable (_ ∨ _))

def Listed (s : State) (h : Handle) (offset : Nat) : Prop :=
  ∃ t since, s.timers h = some t ∧ s.startedAt h = some since ∧ offset ≤ t.timeoutInterval ∧
    t.timeoutInterval < 2 ^ 32 ∧ since + t.timeoutInterval ≤ s.listedAt + offset

structure Inv (s : State) : Prop where
  nodup : s.hpTimerList.keys.Nodup
  listed : ∀ h offset, s.hpTimerList.offset? h = some offset → Listed s h offset
  unlisted : ∀ h, h ∉ s.hpTimerList.keys → s.startedAt h = none
  interval : ∀ h t, s.timers h = some t → t.timeoutInterval < 2 ^ 32
  listedAt : s.listedAt ≤ s.now
  hpTimeoutAt : s.hpTimeoutAt ≤ s.now
  hpTimeoutTime : s.hpTimeoutTime = u32 s.hpTimeoutAt
  started : ∀ at_ period, s.hw = .started at_ period → s.listedAt = at_ ∧
    ∃ h l rest, s.hpTimerList = (h, l) :: rest ∧ l ≤ period ∧ s.timeoutInterval = l
  dueFor : ∀ h, s.dueFor = some h → ∃ l rest, s.hpTimerList = (h, l) :: rest ∧
    s.listedAt + l ≤ s.now ∧ (l = 0 ∨ s.hw = .stopped ∧ l ≤ s.timeoutInterval)
  fired : NeverEarly s

theorem inv_initial : Inv initial where
  nodup := by simp [initial]
  listed := by simp [initial]
  unlisted := by simp [initial]
  interval := by simp [initial]
  listedAt := by simp [initial]
  hpTimeoutAt := by simp [initial]
  hpTimeoutTime := by simp [initial, u32]
  started := by simp [initial]
  dueFor := by simp [initial]
  fired := by simp [initial, NeverEarly]

theorem Inv.mem_timers {s : State} (hs : Inv s) {h : Handle} (hh : h ∈ s.hpTimerList.keys) :
    ∃ t, s.timers h = some t := by
  obtain ⟨offset, ho⟩ := exists_offset? hh
  obtain ⟨t, _, ht, _⟩ := hs.listed h offset ho
  exact ⟨t, ht⟩

theorem Inv.offset_lt (hs : Inv s)
    (ho : s.hpTimerList.offset? h = some offset) : offset < 2 ^ 32 := by
  obtain ⟨t, _, _, _, hle, hlt, _⟩ := hs.listed h offset ho
  omega

def timeoutElapsed (s : State) : Nat :=
  if hwTimerGetElapsedTime s = 0 then
    u32 (s.timeoutInterval + osHpTimeGet s + (2 ^ 32 - s.hpTimeoutTime))
  else
    hwTimerGetElapsedTime s

theorem timeoutElapsed_of_counting (h : Counting s) :
    ∃ at_ period, s.hw = .started at_ period ∧ timeoutElapsed s = s.now - at_ ∧
      hwTimerGetElapsedTime s = s.now - at_ ∧ at_ < s.now ∧ s.now < at_ + period := by
  unfold Counting at h
  split at h
  . exact h.elim
  . next at_ period hw =>
    have he : hwTimerGetElapsedTime s = s.now - at_ := by simp [hwTimerGetElapsedTime, hw, h.2]
    refine ⟨at_, period, hw, ?_, he, h.1, h.2⟩
    rw [timeoutElapsed, he, if_neg (by omega)]

theorem hwTimerGetElapsedTime_of_not_counting (h : ¬Counting s) : hwTimerGetElapsedTime s = 0 := by
  unfold hwTimerGetElapsedTime
  split
  . rfl
  . next at_ period hw =>
    simp only [Counting, hw, not_and, Nat.not_lt] at h
    split
    . by_contra hne
      have := h (by omega)
      omega
    . rfl

theorem timeoutElapsed_of_not_counting (hs : Inv s) (h : ¬Counting s)
    (hok : ChargeOk s) :
    timeoutElapsed s = s.timeoutInterval + (s.now - s.hpTimeoutAt) ∧
      s.listedAt + s.timeoutInterval ≤ s.hpTimeoutAt := by
  obtain hc | ⟨hle, hlt⟩ := hok
  . exact absurd hc h
  . refine ⟨?_, hle⟩
    have hnow := hs.hpTimeoutAt
    rw [timeoutElapsed, if_pos (hwTimerGetElapsedTime_of_not_counting h), hs.hpTimeoutTime]
    simp only [u32, osHpTimeGet]
    omega

theorem listedAt_add_timeoutElapsed_le (hs : Inv s) (hok : ChargeOk s) :
    s.listedAt + timeoutElapsed s ≤ s.now := by
  by_cases hc : Counting s
  . obtain ⟨at_, period, hw, he, _, hlt, _⟩ := timeoutElapsed_of_counting hc
    have := (hs.started at_ period hw).1
    omega
  . have := timeoutElapsed_of_not_counting hs hc hok
    have := hs.hpTimeoutAt
    omega

section

variable (s : State)

include s

theorem update_eq :
    sysHpTimerElapsedTimeUpdate s =
      { s with
        hpTimerList := s.hpTimerList.charge (timeoutElapsed s)
        timeoutInterval := if hwTimerGetElapsedTime s = 0 then s.timeoutInterval else 0
        hpTimeoutTime := if hwTimerGetElapsedTime s = 0 then s.hpTimeoutTime else osHpTimeGet s
        hpTimeoutAt := if hwTimerGetElapsedTime s = 0 then s.hpTimeoutAt else s.now
        listedAt := s.now } := by
  by_cases h : hwTimerGetElapsedTime s = 0
  . simp [sysHpTimerElapsedTimeUpdate, timeoutElapsed, h]
  . simp [sysHpTimerElapsedTimeUpdate, timeoutElapsed, h]

@[simp]
theorem update_hpTimerList :
    (sysHpTimerElapsedTimeUpdate s).hpTimerList = s.hpTimerList.charge (timeoutElapsed s) := by
  rw [update_eq]

@[simp]
theorem update_timers : (sysHpTimerElapsedTimeUpdate s).timers = s.timers := by
  rw [update_eq]

@[simp]
theorem update_startedAt : (sysHpTimerElapsedTimeUpdate s).startedAt = s.startedAt := by
  rw [update_eq]

@[simp]
theorem update_listedAt : (sysHpTimerElapsedTimeUpdate s).listedAt = s.now := by
  rw [update_eq]

@[simp]
theorem update_now : (sysHpTimerElapsedTimeUpdate s).now = s.now := by
  rw [update_eq]

@[simp]
theorem update_dueFor : (sysHpTimerElapsedTimeUpdate s).dueFor = s.dueFor := by
  rw [update_eq]

@[simp]
theorem update_fired : (sysHpTimerElapsedTimeUpdate s).fired = s.fired := by
  rw [update_eq]

@[simp]
theorem update_msgQueue : (sysHpTimerElapsedTimeUpdate s).msgQueue = s.msgQueue := by
  rw [update_eq]

end

theorem update_hpTimeout (hs : Inv s) :
    (sysHpTimerElapsedTimeUpdate s).hpTimeoutAt ≤ s.now ∧
      (sysHpTimerElapsedTimeUpdate s).hpTimeoutTime =
        u32 (sysHpTimerElapsedTimeUpdate s).hpTimeoutAt := by
  rw [update_eq]
  dsimp only
  split
  . exact ⟨hs.hpTimeoutAt, hs.hpTimeoutTime⟩
  . exact ⟨Nat.le_refl _, rfl⟩

theorem dueFor_head_zero (hs : Inv s) (hok : ChargeOk s)
    (hdue : s.dueFor = some h) :
    ∃ rest, s.hpTimerList.charge (timeoutElapsed s) = (h, 0) :: rest := by
  obtain ⟨l, rest, hlist, _, hl⟩ := hs.dueFor h hdue
  refine ⟨charge (timeoutElapsed s - l) rest, ?_⟩
  have : l - timeoutElapsed s = 0 := by
    obtain h0 | ⟨hw, hl⟩ := hl
    . omega
    . have hc : ¬Counting s := by simp [Counting, hw]
      have he := (timeoutElapsed_of_not_counting hs hc hok).1
      omega
  rw [hlist, charge_cons, this]

theorem inv_hwTimerStop_update (hs : Inv s) (hok : ChargeOk s) :
    Inv (hwTimerStop (sysHpTimerElapsedTimeUpdate s)) where
  nodup := by simpa [hwTimerStop] using hs.nodup
  listed := by
    intro h offset ho
    simp only [hwTimerStop, update_hpTimerList, offset?_charge, Option.map_eq_some_iff] at ho
    obtain ⟨o, ho, rfl⟩ := ho
    obtain ⟨t, since, ht, hsince, hle, hlt, hdue⟩ := hs.listed h o ho
    have := listedAt_add_timeoutElapsed_le hs hok
    refine ⟨t, since, by simpa [hwTimerStop] using ht, by simpa [hwTimerStop] using hsince,
      by omega, hlt, ?_⟩
    simp only [hwTimerStop, update_listedAt]
    omega
  unlisted := by simpa [hwTimerStop] using hs.unlisted
  interval := by simpa [hwTimerStop] using hs.interval
  listedAt := by simp [hwTimerStop]
  hpTimeoutAt := by simpa [hwTimerStop] using (update_hpTimeout hs).1
  hpTimeoutTime := by simpa [hwTimerStop] using (update_hpTimeout hs).2
  started := by simp [hwTimerStop]
  dueFor := by
    intro h hdue
    simp only [hwTimerStop, update_dueFor] at hdue
    obtain ⟨rest, hlist⟩ := dueFor_head_zero hs hok hdue
    exact ⟨0, rest, by simpa [hwTimerStop] using hlist, by simp [hwTimerStop], .inl rfl⟩
  fired := by simpa [hwTimerStop, NeverEarly] using hs.fired

theorem inv_restartHead (hs : Inv s) (hnow : s.listedAt = s.now)
    (hzero : ∀ h, s.dueFor = some h → ∃ rest, s.hpTimerList = (h, 0) :: rest) :
    Inv (restartHead s) := by
  unfold restartHead
  split
  . exact hs
  . next h l rest hlist =>
    exact {
      nodup := hs.nodup
      listed := hs.listed
      unlisted := hs.unlisted
      interval := hs.interval
      listedAt := hs.listedAt
      hpTimeoutAt := hs.hpTimeoutAt
      hpTimeoutTime := hs.hpTimeoutTime
      started := by
        intro at_ period hw
        simp only [hwTimerRestart, HwTimer.started.injEq] at hw
        obtain ⟨rfl, rfl⟩ := hw
        exact ⟨hnow, h, l, rest, hlist, by omega, rfl⟩
      dueFor := by
        intro k hk
        obtain ⟨rest', hlist'⟩ := hzero k hk
        exact ⟨0, rest', hlist', hs.listedAt, .inl rfl⟩
      fired := hs.fired
    }

def InsertOk (s : State) : Prop := s.hpTimerList = [] ∨ ChargeOk s

instance (s : State) : Decidable (InsertOk s) := inferInstanceAs (Decidable (_ ∨ _))

theorem inv_insert (hs : Inv s) (hnow : s.listedAt = s.now) (hw : s.hw = .stopped)
    (hzero : ∀ h, s.dueFor = some h → ∃ rest, s.hpTimerList = (h, 0) :: rest)
    (ht : s.timers h = some t) (hh : h ∉ s.hpTimerList.keys) :
    Inv { s with
      hpTimerList := s.hpTimerList.insert h t.timeoutInterval
      startedAt := Function.update s.startedAt h (some s.now) } where
  nodup := nodup_keys_insert hh hs.nodup
  listed := by
    intro k offset ho
    by_cases hk : k = h
    . subst hk
      rw [offset?_insert_self hh, Option.some.injEq] at ho
      subst ho
      exact ⟨t, s.now, ht, by simp, Nat.le_refl _, hs.interval k t ht, by simp [hnow]⟩
    . rw [offset?_insert_ne hk] at ho
      obtain ⟨t', since, ht', hsince, hrest⟩ := hs.listed k offset ho
      exact ⟨t', since, ht', by simpa [hk] using hsince, hrest⟩
  unlisted := by
    intro k hk
    simp only [mem_keys_insert, not_or] at hk
    simpa [hk.1] using hs.unlisted k hk.2
  interval := hs.interval
  listedAt := hs.listedAt
  hpTimeoutAt := hs.hpTimeoutAt
  hpTimeoutTime := hs.hpTimeoutTime
  started := by
    intro at_ period hst
    rw [show s.hw = .stopped from hw] at hst
    cases hst
  dueFor := by
    intro k hk
    obtain ⟨rest, hlist⟩ := hzero k hk
    exact ⟨0, DeltaList.insert h t.timeoutInterval rest, by simp [hlist, insert_cons_zero],
      hs.listedAt, .inl rfl⟩
  fired := hs.fired

theorem inv_sysHpTimerListInsert (hs : Inv s)
    (ht : s.timers h = some t) (hh : h ∉ s.hpTimerList.keys) (hok : InsertOk s) :
    Inv (sysHpTimerListInsert h t s) := by
  unfold sysHpTimerListInsert
  split
  . next hnil =>
    have hdue : s.dueFor = none := by
      cases hdue : s.dueFor with
      | none => rfl
      | some k =>
        obtain ⟨_, _, hlist, _⟩ := hs.dueFor k hdue
        rw [hnil] at hlist
        cases hlist
    have hne : ∀ k, k ≠ h → s.startedAt k = none := by
      intro k _
      exact hs.unlisted k (by simp [hnil])
    exact {
      nodup := by simp [hwTimerRestart]
      listed := by
        intro k offset ho
        by_cases hk : h = k
        . subst hk
          simp only [hwTimerRestart, offset?_cons_self, Option.some.injEq] at ho
          subst ho
          exact ⟨t, s.now, ht, by simp [hwTimerRestart], Nat.le_refl _, hs.interval h t ht,
            by simp [hwTimerRestart]⟩
        . simp [hwTimerRestart, offset?_cons_ne hk] at ho
      unlisted := by
        intro k hk
        simp only [hwTimerRestart, keys_cons, keys_nil, List.mem_singleton] at hk
        simpa [hwTimerRestart, hk] using hne k hk
      interval := hs.interval
      listedAt := Nat.le_refl _
      hpTimeoutAt := hs.hpTimeoutAt
      hpTimeoutTime := hs.hpTimeoutTime
      started := by
        intro at_ period hw
        simp only [hwTimerRestart, HwTimer.started.injEq] at hw
        obtain ⟨rfl, rfl⟩ := hw
        exact ⟨rfl, h, t.timeoutInterval, [], rfl, by omega, rfl⟩
      dueFor := by
        intro k hk
        simp only [hwTimerRestart, hdue] at hk
        cases hk
      fired := hs.fired
    }
  . next hne =>
    have hok : ChargeOk s := hok.resolve_left hne
    -- a head whose interrupt came has no time left, so the new timer goes behind it
    have hzero : ∀ k, s.dueFor = some k →
        ∃ rest, (hwTimerStop (sysHpTimerElapsedTimeUpdate s)).hpTimerList = (k, 0) :: rest := by
      intro k hk
      simpa [hwTimerStop] using dueFor_head_zero hs hok hk
    have hins := inv_insert (inv_hwTimerStop_update hs hok) (by simp [hwTimerStop]) rfl
      (by simpa [hwTimerStop] using hzero) (h := h) (t := t) (by simpa [hwTimerStop] using ht)
      (by simpa [hwTimerStop] using hh)
    dsimp only
    split
    . refine inv_restartHead hins (by simp [hwTimerStop]) ?_
      intro k hk
      obtain ⟨rest, hlist⟩ := hzero k (by simpa [hwTimerStop] using hk)
      exact ⟨DeltaList.insert h t.timeoutInterval rest, by simp [hlist, insert_cons_zero]⟩
    . exact hins

def RemoveOk (h : Handle) (s : State) : Prop := h ∉ s.hpTimerList.keys ∨ ChargeOk s

instance (h : Handle) (s : State) : Decidable (RemoveOk h s) := inferInstanceAs (Decidable (_ ∨ _))

theorem listDelete_eq_delete
    (hxs : xs.keys.Nodup) (hlt : ∀ k offset, xs.offset? k = some offset → offset < 2 ^ 32) :
    listDelete h xs = xs.delete h := by
  induction xs with
  | nil => rfl
  | cons x xs ih =>
    obtain ⟨j, m⟩ := x
    simp only [keys_cons, List.nodup_cons] at hxs
    unfold listDelete DeltaList.delete
    split
    . cases xs with
      | nil => rfl
      | cons y ys =>
        obtain ⟨i, n⟩ := y
        simp only [keys_cons, List.mem_cons, not_or] at hxs
        have hi := hlt i (m + n) (by simp [offset?_cons_ne hxs.1.1])
        have : u32 (n + m) = n + m := Nat.mod_eq_of_lt (by omega)
        simp [this]
    . rw [ih hxs.2]
      intro k offset ho
      have hk : j ≠ k := fun hjk => hxs.1 (hjk ▸ mem_keys_of_offset? ho)
      have := hlt k (m + offset) (offset?_cons_eq_some hk ho)
      omega

theorem inv_delete (hs : Inv s) (hw : s.hw = .stopped) (h : Handle) :
    Inv { s with
      hpTimerList := listDelete h s.hpTimerList
      startedAt := Function.update s.startedAt h none
      dueFor := if s.dueFor = some h then none else s.dueFor } where
  nodup := by
    rw [listDelete_eq_delete hs.nodup fun _ _ => hs.offset_lt, keys_delete]
    exact hs.nodup.erase h
  listed := by
    intro k offset ho
    simp only [listDelete_eq_delete hs.nodup fun _ _ => hs.offset_lt] at ho
    have hk : k ≠ h := by
      intro hk
      subst hk
      have hmem := mem_keys_of_offset? ho
      rw [keys_delete] at hmem
      exact hs.nodup.not_mem_erase hmem
    rw [offset?_delete_ne hk] at ho
    obtain ⟨t, since, ht, hsince, hrest⟩ := hs.listed k offset ho
    exact ⟨t, since, ht, by simpa [hk] using hsince, hrest⟩
  unlisted := by
    intro k hmem
    simp only [listDelete_eq_delete hs.nodup fun _ _ => hs.offset_lt, keys_delete] at hmem
    by_cases hk : k = h
    . simp [hk]
    . rw [List.mem_erase_of_ne hk] at hmem
      simpa [hk] using hs.unlisted k hmem
  interval := hs.interval
  listedAt := hs.listedAt
  hpTimeoutAt := hs.hpTimeoutAt
  hpTimeoutTime := hs.hpTimeoutTime
  started := by
    intro at_ period hst
    rw [show s.hw = .stopped from hw] at hst
    cases hst
  dueFor := by
    intro k hk
    simp only at hk
    split at hk
    . cases hk
    . next hne =>
      obtain ⟨l, rest, hlist, hle⟩ := hs.dueFor k hk
      have hkh : k ≠ h := fun hkh => hne (hkh ▸ hk)
      refine ⟨l, listDelete h rest, ?_, hle⟩
      simp [hlist, listDelete, hkh]
  fired := hs.fired

theorem inv_sysHpTimerListRemove (hs : Inv s) (hok : RemoveOk h s) :
    Inv (sysHpTimerListRemove h s) := by
  unfold sysHpTimerListRemove
  split
  . next hmem =>
    have hok : ChargeOk s := hok.resolve_left (by simpa using hmem)
    have hdel := inv_delete (inv_hwTimerStop_update hs hok) rfl h
    dsimp only
    split
    . refine inv_restartHead hdel (by simp [hwTimerStop]) ?_
      intro k hk
      simp only [hwTimerStop, update_dueFor] at hk
      split at hk
      . cases hk
      . next hne =>
        obtain ⟨rest, hlist⟩ := dueFor_head_zero hs hok hk
        have hkh : k ≠ h := fun hkh => hne (hkh ▸ hk)
        exact ⟨listDelete h rest, by simp [hwTimerStop, hlist, listDelete, hkh]⟩
    . exact hdel
  . exact hs

@[simp]
theorem restartHead_timers (s : State) : (restartHead s).timers = s.timers := by
  unfold restartHead
  split <;> rfl

@[simp]
theorem restartHead_hpTimerList (s : State) : (restartHead s).hpTimerList = s.hpTimerList := by
  unfold restartHead
  split <;> rfl

@[simp]
theorem sysHpTimerListRemove_timers (h : Handle) (s : State) :
    (sysHpTimerListRemove h s).timers = s.timers := by
  unfold sysHpTimerListRemove
  dsimp only
  split
  . split <;> simp [hwTimerStop]
  . rfl

theorem not_mem_sysHpTimerListRemove (hs : Inv s) (h : Handle) (hok : RemoveOk h s) :
    h ∉ (sysHpTimerListRemove h s).hpTimerList.keys := by
  unfold sysHpTimerListRemove
  split
  . next hmem =>
    have hok : ChargeOk s := hok.resolve_left (by simpa using hmem)
    have hstop := inv_hwTimerStop_update hs hok
    have hlist :
    h ∉ keys (listDelete h (hwTimerStop (sysHpTimerElapsedTimeUpdate s)).hpTimerList) := by
      rw [listDelete_eq_delete hstop.nodup fun _ _ => hstop.offset_lt, keys_delete]
      exact hstop.nodup.not_mem_erase
    dsimp only
    split <;> simpa using hlist
  . next hmem => exact hmem

end SysTimer
