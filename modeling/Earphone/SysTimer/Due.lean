import Earphone.SysTimer.Expiry

namespace SysTimer

open DeltaList

def State.expiry (s : State) (h : Handle) : Option Nat :=
  (s.hpTimerList.offset? h).map (s.listedAt + ·)

def ChargedRight (s : State) (offset : Nat) : Prop :=
  s.listedAt + timeoutElapsed s = s.now ∧ timeoutElapsed s ≤ offset ∨
    s.listedAt + offset = s.now ∧ offset ≤ timeoutElapsed s
  deriving Decidable

theorem chargedRight_iff :
    ChargedRight s offset ↔ s.now + (offset - timeoutElapsed s) = s.listedAt + offset := by
  unfold ChargedRight
  omega

def ChargesOthers (h : Option Handle) (s : State) : Prop :=
  ∀ j ∈ s.hpTimerList.keys, some j ≠ h → ∀ o ∈ s.hpTimerList.offset? j, ChargedRight s o
  deriving Decidable

structure Timed (s : State) : Prop where
  nodup : s.hpTimerList.keys.Nodup
  interval : ∀ h t, s.timers h = some t → t.timeoutInterval < 2 ^ 32
  due : ∀ h e, s.expiry h = some e → ∃ t since, s.timers h = some t ∧ s.startedAt h = some since ∧
    since ≤ s.listedAt ∧ e = since + t.timeoutInterval

def Ordered (s : State) : Prop :=
  s.hpTimerList.keys.Pairwise fun j k =>
    ∀ e e', s.expiry j = some e → s.expiry k = some e' → e ≤ e'

theorem timed_initial : Timed initial where
  nodup := List.nodup_nil
  interval := by
    intro h t ht
    cases ht
  due := by
    intro h e he
    cases he

section

variable {s s' : State} {h j : Handle} {t : Timer}

theorem expiry_eq_some :
    s.expiry h = some e ↔ ∃ o, s.hpTimerList.offset? h = some o ∧ e = s.listedAt + o := by
  simp only [State.expiry, Option.map_eq_some_iff, eq_comm]

theorem expiry_eq_none : s.expiry h = none ↔ h ∉ s.hpTimerList.keys := by
  rw [State.expiry, Option.map_eq_none_iff, offset?_eq_none]

theorem mem_keys_of_expiry (he : s.expiry h = some e) : h ∈ s.hpTimerList.keys := by
  by_contra hmem
  rw [expiry_eq_none.mpr hmem] at he
  cases he

theorem ordered_of_nodup (hnodup : s.hpTimerList.keys.Nodup) : Ordered s := by
  refine (pairwise_offset? hnodup).imp ?_
  intro j k hle e e' he he'
  obtain ⟨o, ho, rfl⟩ := expiry_eq_some.mp he
  obtain ⟨o', ho', rfl⟩ := expiry_eq_some.mp he'
  have := hle o o' ho ho'
  omega

theorem Timed.mem_timers (hs : Timed s) (hh : h ∈ s.hpTimerList.keys) :
    ∃ t, s.timers h = some t := by
  obtain ⟨o, ho⟩ := exists_offset? hh
  obtain ⟨t, _, ht, _⟩ := hs.due h _ (expiry_eq_some.mpr ⟨o, ho, rfl⟩)
  exact ⟨t, ht⟩

theorem Timed.offset_lt (hs : Timed s) (ho : s.hpTimerList.offset? h = some o) : o < 2 ^ 32 := by
  obtain ⟨t, since, ht, -, hle, he⟩ := hs.due h _ (expiry_eq_some.mpr ⟨o, ho, rfl⟩)
  have := hs.interval h t ht
  omega

theorem Timed.congr (hs : Timed s) (hlist : s'.hpTimerList = s.hpTimerList)
    (htimers : s'.timers = s.timers) (hstarted : s'.startedAt = s.startedAt)
    (hlisted : s'.listedAt = s.listedAt) : Timed s' where
  nodup := by
    rw [hlist]
    exact hs.nodup
  interval := by
    rw [htimers]
    exact hs.interval
  due := by
    unfold State.expiry
    rw [hlist, htimers, hstarted, hlisted]
    exact hs.due

end

theorem expiry_update_iff (ho : s.hpTimerList.offset? j = some o) :
    (sysHpTimerElapsedTimeUpdate s).expiry j = s.expiry j ↔ ChargedRight s o := by
  rw [State.expiry, State.expiry, update_hpTimerList, update_listedAt, offset?_charge, ho,
    chargedRight_iff]
  simp

theorem expiry_update (hok : ChargesOthers except s)
    (hj : some j ≠ except) : (sysHpTimerElapsedTimeUpdate s).expiry j = s.expiry j := by
  by_cases hmem : j ∈ s.hpTimerList.keys
  . obtain ⟨o, ho⟩ := exists_offset? hmem
    exact (expiry_update_iff ho).mpr (hok j hmem hj o ho)
  . rw [expiry_eq_none.mpr hmem, expiry_eq_none.mpr (by simpa using hmem)]

theorem listedAt_le (hok : ChargesOthers except s)
    (hj : some j ≠ except) (hmem : j ∈ s.hpTimerList.keys) : s.listedAt ≤ s.now := by
  obtain ⟨o, ho⟩ := exists_offset? hmem
  have := hok j hmem hj o ho
  unfold ChargedRight at this
  omega

@[simp]
theorem restartHead_startedAt (s : State) : (restartHead s).startedAt = s.startedAt := by
  unfold restartHead
  split <;> rfl

@[simp]
theorem restartHead_listedAt (s : State) : (restartHead s).listedAt = s.listedAt := by
  unfold restartHead
  split <;> rfl

theorem sysHpTimerListInsert_eq (h : Handle) (t : Timer) (s : State) :
    (sysHpTimerListInsert h t s).hpTimerList =
        (s.hpTimerList.charge (timeoutElapsed s)).insert h t.timeoutInterval ∧
      (sysHpTimerListInsert h t s).timers = s.timers ∧
        (sysHpTimerListInsert h t s).startedAt = Function.update s.startedAt h (some s.now) ∧
          (sysHpTimerListInsert h t s).listedAt = s.now := by
  unfold sysHpTimerListInsert
  dsimp only
  split
  . next hnil =>
    rw [hnil]
    exact ⟨rfl, rfl, rfl, rfl⟩
  . split <;> simp [hwTimerStop]

theorem expiry_insert_self (hh : h ∉ s.hpTimerList.keys) :
    (sysHpTimerListInsert h t s).expiry h = some (s.now + t.timeoutInterval) := by
  obtain ⟨hlist, -, -, hlisted⟩ := sysHpTimerListInsert_eq h t s
  rw [State.expiry, hlist, hlisted, offset?_insert_self (by simpa using hh)]
  rfl

theorem expiry_insert_ne (hj : j ≠ h) :
    (sysHpTimerListInsert h t s).expiry j = (sysHpTimerElapsedTimeUpdate s).expiry j := by
  obtain ⟨hlist, -, -, hlisted⟩ := sysHpTimerListInsert_eq h t s
  rw [State.expiry, hlist, hlisted, offset?_insert_ne hj, State.expiry, update_hpTimerList,
    update_listedAt]

theorem expiry_insert_iff (hh : h ∉ s.hpTimerList.keys) :
    (∀ j, j ≠ h → (sysHpTimerListInsert h t s).expiry j = s.expiry j) ↔ ChargesOthers none s := by
  constructor
  . intro hkept j hj _ o ho
    have hne : j ≠ h := fun hjh => hh (hjh ▸ hj)
    rw [← expiry_update_iff ho, ← expiry_insert_ne hne]
    exact hkept j hne
  . intro hok j hj
    rw [expiry_insert_ne hj]
    exact expiry_update hok (by simp)

theorem timed_insert (hs : Timed s) (ht : s.timers h = some t) (hh : h ∉ s.hpTimerList.keys)
    (hok : ChargesOthers none s) : Timed (sysHpTimerListInsert h t s) := by
  obtain ⟨hlist, htimers, hstarted, hlisted⟩ := sysHpTimerListInsert_eq h t s
  refine ⟨?_, by rw [htimers]; exact hs.interval, fun j e he => ?_⟩
  . rw [hlist]
    exact nodup_keys_insert (by simpa using hh) (by simpa using hs.nodup)
  . rw [htimers, hstarted, hlisted]
    by_cases hj : j = h
    . subst hj
      rw [expiry_insert_self hh, Option.some.injEq] at he
      exact ⟨t, s.now, ht, by simp, Nat.le_refl _, he.symm⟩
    . rw [(expiry_insert_iff hh).mpr hok j hj] at he
      obtain ⟨t', since, ht', hsince, hle, hdue⟩ := hs.due j e he
      exact ⟨t', since, ht', by simpa [hj] using hsince,
        Nat.le_trans hle (listedAt_le hok (by simp) (mem_keys_of_expiry he)), hdue⟩

section

variable {s : State} {h j : Handle}

theorem sysHpTimerListRemove_eq (hmem : h ∈ s.hpTimerList.keys) :
    (sysHpTimerListRemove h s).hpTimerList =
        listDelete h (s.hpTimerList.charge (timeoutElapsed s)) ∧
      (sysHpTimerListRemove h s).timers = s.timers ∧
        (sysHpTimerListRemove h s).startedAt = Function.update s.startedAt h none ∧
          (sysHpTimerListRemove h s).listedAt = s.now := by
  unfold sysHpTimerListRemove
  rw [if_pos hmem]
  dsimp only
  split <;> simp [hwTimerStop]

theorem Timed.listDelete_eq (hs : Timed s) (h : Handle) (d : Nat) :
    listDelete h (s.hpTimerList.charge d) = (s.hpTimerList.charge d).delete h := by
  refine listDelete_eq_delete (by simpa using hs.nodup) fun k o ho => ?_
  rw [offset?_charge, Option.map_eq_some_iff] at ho
  obtain ⟨o', ho', rfl⟩ := ho
  have := hs.offset_lt ho'
  omega

theorem expiry_remove_ne (hs : Timed s) (hmem : h ∈ s.hpTimerList.keys) (hj : j ≠ h) :
    (sysHpTimerListRemove h s).expiry j = (sysHpTimerElapsedTimeUpdate s).expiry j := by
  obtain ⟨hlist, -, -, hlisted⟩ := sysHpTimerListRemove_eq hmem
  rw [State.expiry, hlist, hs.listDelete_eq, hlisted, offset?_delete_ne hj, State.expiry,
    update_hpTimerList, update_listedAt]

theorem not_mem_remove (hs : Timed s) (h : Handle) :
    h ∉ (sysHpTimerListRemove h s).hpTimerList.keys := by
  by_cases hmem : h ∈ s.hpTimerList.keys
  . rw [(sysHpTimerListRemove_eq hmem).1, hs.listDelete_eq, keys_delete]
    have hnodup : (s.hpTimerList.charge (timeoutElapsed s)).keys.Nodup := by simpa using hs.nodup
    exact hnodup.not_mem_erase
  . unfold sysHpTimerListRemove
    rwa [if_neg hmem]

def RemoveExact (h : Handle) (s : State) : Prop :=
  h ∈ s.hpTimerList.keys → ChargesOthers (some h) s
  deriving Decidable

theorem expiry_remove_iff (hs : Timed s) :
    (∀ j, j ≠ h → (sysHpTimerListRemove h s).expiry j = s.expiry j) ↔ RemoveExact h s := by
  by_cases hmem : h ∈ s.hpTimerList.keys
  . rw [RemoveExact, imp_iff_right hmem]
    constructor
    . intro hkept j _ hj o ho
      have hne : j ≠ h := fun hjh => hj (by rw [hjh])
      rw [← expiry_update_iff ho, ← expiry_remove_ne hs hmem hne]
      exact hkept j hne
    . intro hok j hj
      rw [expiry_remove_ne hs hmem hj]
      exact expiry_update hok (by simpa using hj)
  . refine iff_of_true (fun j _ => ?_) (fun h => absurd h hmem)
    unfold sysHpTimerListRemove
    rw [if_neg hmem]

theorem timed_remove (hs : Timed s) (hok : RemoveExact h s) : Timed (sysHpTimerListRemove h s) := by
  by_cases hmem : h ∈ s.hpTimerList.keys
  . obtain ⟨hlist, htimers, hstarted, hlisted⟩ := sysHpTimerListRemove_eq hmem
    refine ⟨?_, by rw [htimers]; exact hs.interval, fun j e he => ?_⟩
    . rw [hlist, hs.listDelete_eq, keys_delete]
      have hnodup : (s.hpTimerList.charge (timeoutElapsed s)).keys.Nodup := by
        simpa using hs.nodup
      exact hnodup.erase h
    . rw [htimers, hstarted, hlisted]
      have hj : j ≠ h := by
        rintro rfl
        rw [expiry_eq_none.mpr (not_mem_remove hs j)] at he
        cases he
      rw [(expiry_remove_iff hs).mpr hok j hj] at he
      obtain ⟨t', since, ht', hsince, hle, hdue⟩ := hs.due j e he
      have hj' := mem_keys_of_expiry he
      exact ⟨t', since, ht', by simpa [hj] using hsince,
        Nat.le_trans hle (listedAt_le (hok hmem) (by simpa using hj) hj'), hdue⟩
  . unfold sysHpTimerListRemove
    rwa [if_neg hmem]

end

section

variable {s : State} {h : Handle}

theorem timed_setTimer (hs : Timed s) (hh : h ∉ s.hpTimerList.keys) (t : Option Timer)
    (hinterval : ∀ t', t = some t' → t'.timeoutInterval < 2 ^ 32) : Timed (setTimer h t s) := by
  refine ⟨hs.nodup, fun j t' ht' => ?_, fun j e he => ?_⟩
  . by_cases hj : j = h
    . subst hj
      exact hinterval t' (by simpa [setTimer] using ht')
    . exact hs.interval j t' (by simpa [setTimer, hj] using ht')
  . have hj : j ≠ h := by
      rintro rfl
      rw [show (setTimer j t s).expiry j = s.expiry j from rfl, expiry_eq_none.mpr hh] at he
      cases he
    obtain ⟨t', since, ht', hrest⟩ := hs.due j e he
    exact ⟨t', since, by simpa [setTimer, hj] using ht', hrest⟩

def StartExact (h : Handle) (gap : Nat) (s : State) : Prop :=
  RemoveExact h s ∧ ChargesOthers none (elapse gap (sysHpTimerListRemove h s))
  deriving Decidable

def Call.Exact (s : State) : Call → Prop
  | .elapse _ | .interrupt _ | .create _ _ => True
  | .start h gap | .restart h _ gap => StartExact h gap s
  | .stop h | .delete h => RemoveExact h s

instance (s : State) (c : Call) : Decidable (c.Exact s) :=
  match c with
  | .elapse _ | .interrupt _ | .create _ _ => inferInstanceAs (Decidable True)
  | .start h gap | .restart h _ gap => inferInstanceAs (Decidable (StartExact h gap s))
  | .stop h | .delete h => inferInstanceAs (Decidable (RemoveExact h s))

theorem timed_sysTimerCreate (hs : Timed s) (h : Handle) (t : Timer) :
    Timed (sysTimerCreate h t s) := by
  unfold sysTimerCreate
  split
  . next hnone =>
    refine timed_setTimer hs (fun hmem => ?_) _ ?_
    . obtain ⟨t', ht'⟩ := hs.mem_timers hmem
      rw [hnone] at ht'
      cases ht'
    . intro t' ht'
      cases ht'
      exact u32_lt _
  . exact hs

theorem timed_call (c : Call) (hs : Timed s) (hok : c.Exact s) : Timed (c.step s) := by
  cases c with
  | elapse us => exact hs.congr rfl rfl rfl rfl
  | interrupt posted =>
    unfold Call.step sysHwTimerHandler
    dsimp only
    split
    . exact hs
    . split
      . exact hs.congr rfl rfl rfl rfl
      . exact hs
  | create h t => exact timed_sysTimerCreate hs h t
  | start h gap =>
    unfold Call.step sysTimerStart
    dsimp only
    split
    . exact hs
    . next t ht =>
      have hremoved : Timed (elapse gap (sysHpTimerListRemove h s)) :=
        (timed_remove hs hok.1).congr rfl rfl rfl rfl
      exact timed_insert hremoved (by simpa [elapse] using ht) (not_mem_remove hs h) hok.2
  | restart h timeoutUs gap =>
    unfold Call.step sysTimerRestart
    dsimp only
    split
    . exact hs
    . next t ht =>
      have hset := timed_setTimer (timed_remove hs hok.1) (not_mem_remove hs h)
        (some { t with timeoutInterval := u32 timeoutUs }) (by rintro t' ⟨⟩; exact u32_lt _)
      have hremoved : Timed (elapse gap (setTimer h
          (some { t with timeoutInterval := u32 timeoutUs }) (sysHpTimerListRemove h s))) :=
        hset.congr rfl rfl rfl rfl
      exact timed_insert hremoved (by simp [elapse, setTimer]) (not_mem_remove hs h) hok.2
  | stop h =>
    unfold Call.step sysTimerStop
    dsimp only
    split
    . exact hs
    . exact timed_remove hs hok
  | delete h =>
    unfold Call.step sysTimerDelete
    dsimp only
    split
    . exact hs
    . exact timed_setTimer (timed_remove hs hok) (not_mem_remove hs h) none (by simp)

end

section

variable {s : State} {h : Handle} {t : Timer}

theorem timed_expireOut (hs : Timed s)
    (hlist : s.hpTimerList = (h, l) :: rest) : Timed (expireOut h l rest s) := by
  have hnodup := hs.nodup
  rw [hlist, keys_cons, List.nodup_cons] at hnodup
  refine ⟨hnodup.2, hs.interval, fun j e he => ?_⟩
  obtain ⟨o, ho, rfl⟩ := expiry_eq_some.mp he
  have hj : h ≠ j := fun hhj => hnodup.1 (hhj ▸ mem_keys_of_offset? ho)
  have hold : s.expiry j = some (s.listedAt + (l + o)) :=
    expiry_eq_some.mpr ⟨l + o, by rw [hlist]; exact offset?_cons_eq_some hj ho, rfl⟩
  obtain ⟨t, since, ht, hsince, hle, hdue⟩ := hs.due j _ hold
  refine ⟨t, since, ht, by simpa [expireOut, hj.symm] using hsince, ?_, ?_⟩
  . exact Nat.le_trans hle (Nat.le_add_right _ _)
  . exact (Nat.add_assoc _ _ _).trans hdue

def RearmExact (s : State) : Prop := hwTimerIsActive s = true ∨ ChargesOthers none s
  deriving Decidable

theorem timed_expireRearm (hs : Timed s) (hok : RearmExact s) : Timed (expireRearm s) := by
  unfold expireRearm
  split
  . next hact =>
    have hok : ChargesOthers none s := hok.resolve_left (by simp [hact.1])
    refine ⟨by simpa using hs.nodup, by simpa using hs.interval, fun j e he => ?_⟩
    have hrestart : (restartHead (sysHpTimerElapsedTimeUpdate s)).expiry j =
        (sysHpTimerElapsedTimeUpdate s).expiry j := by
      simp [State.expiry]
    rw [hrestart, expiry_update hok (by simp)] at he
    obtain ⟨t, since, ht, hsince, hle, hdue⟩ := hs.due j e he
    refine ⟨t, since, by simpa using ht, by simpa using hsince, ?_, hdue⟩
    simpa using Nat.le_trans hle (listedAt_le hok (by simp) (mem_keys_of_expiry he))
  . exact hs

def InvokeExact (h : Handle) (t : Timer) (since : Option Nat) (body : List Call) (s : State) :
    Prop :=
  (t.reload = true → ChargesOthers none s) ∧
    Run.Along Call.step Call.Exact (recordFire h t since (expireReload h t s)) body ∧
      RearmExact (invoke h t since body (expireReload h t s))

instance (h : Handle) (t : Timer) (since : Option Nat) (body : List Call) (s : State) :
    Decidable (InvokeExact h t since body s) := inferInstanceAs (Decidable (_ ∧ _))

theorem timed_invoke (hs : Timed s)
    (ht : s.timers h = some t) (hh : h ∉ s.hpTimerList.keys)
    (hok : InvokeExact h t since body s) :
    Timed (expireRearm (invoke h t since body (expireReload h t s))) := by
  obtain ⟨hreload, hbody, hrearm⟩ := hok
  have hreloaded : Timed (expireReload h t s) := by
    unfold expireReload
    split
    . next hyes => exact timed_insert hs ht hh (hreload hyes)
    . exact hs
  refine timed_expireRearm ?_ hrearm
  exact Run.exec_inv (fun s c hs hc => timed_call c hs hc) _ body
    (hreloaded.congr rfl rfl rfl rfl) hbody

def ExpireExact (body : List Call) (s : State) : Prop :=
  match s.hpTimerList with
  | [] => True
  | (h, timeoutLeft) :: rest =>
    match s.timers h with
    | none => True
    | some t =>
      if t.cback then
        InvokeExact h t (s.startedAt h) body (expireOut h timeoutLeft rest s)
      else
        RearmExact (expireOut h timeoutLeft rest s)

instance (body : List Call) (s : State) : Decidable (ExpireExact body s) :=
  match hlist : s.hpTimerList with
  | [] => .isTrue (by rw [ExpireExact, hlist]; trivial)
  | (h, timeoutLeft) :: rest =>
    match ht : s.timers h with
    | none => .isTrue (by rw [ExpireExact, hlist]; dsimp only; rw [ht]; trivial)
    | some t =>
      decidable_of_iff
        (if t.cback then InvokeExact h t (s.startedAt h) body (expireOut h timeoutLeft rest s)
        else RearmExact (expireOut h timeoutLeft rest s))
        (by rw [ExpireExact, hlist]; dsimp only; rw [ht])

theorem timed_sysHpTimerExpire (hs : Timed s) (hok : ExpireExact body s) :
    Timed (sysHpTimerExpire body s) := by
  unfold sysHpTimerExpire
  unfold ExpireExact at hok
  split
  . exact hs.congr rfl rfl rfl rfl
  . next h l rest hlist =>
    simp only [hlist] at hok
    have hout := timed_expireOut hs hlist
    obtain ⟨t, ht⟩ := @Timed.mem_timers _ h hs (by simp [hlist])
    have hh : h ∉ (expireOut h l rest s).hpTimerList.keys := by
      have := hs.nodup
      rw [hlist, keys_cons, List.nodup_cons] at this
      exact this.1
    simp only [ht] at hok ⊢
    split at hok
    . next hcback =>
      rw [if_pos hcback]
      exact timed_invoke hout ht hh hok
    . next hcback =>
      rw [if_neg hcback]
      exact timed_expireRearm hout hok

def Event.Exact (s : State) : Event → Prop
  | .call c => c.Exact s
  | .sysMsgHandler body => s.msgQueue = 0 ∨ ExpireExact body { s with msgQueue := s.msgQueue - 1 }

instance (s : State) (e : Event) : Decidable (e.Exact s) :=
  match e with
  | .call c => inferInstanceAs (Decidable (c.Exact s))
  | .sysMsgHandler body => inferInstanceAs (Decidable (_ ∨ ExpireExact body _))

theorem timed_event (e : Event) (hs : Timed s) (hok : e.Exact s) : Timed (e.step s) := by
  cases e with
  | call c => exact timed_call c hs hok
  | sysMsgHandler body =>
    unfold Event.step
    dsimp only
    split
    . exact hs
    . next hq =>
      have hs' : Timed { s with msgQueue := s.msgQueue - 1 } := hs.congr rfl rfl rfl rfl
      exact timed_sysHpTimerExpire hs' (hok.resolve_left hq)

end

end SysTimer
