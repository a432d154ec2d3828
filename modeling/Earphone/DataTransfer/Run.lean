import Earphone.DataTransfer.Inv
import Earphone.Lib.Run

namespace DataTransfer

namespace Db

variable {s : Db} {held : List Data} {send : Nat → UInt8}

def Exhausts (s : Db) (resendNum : Nat) : Prop :=
  resendNum ≤ ((if s.noAck then resendNum else s.resend) + 1) % 2 ^ 8
  deriving Decidable

def Parked (s : Db) : Prop := s.state = .waitReady ∧ s.timer = false

def Full (s : Db) : Prop := (s.data s.wIdx).used = true

def Meets (s : Db) : Op → Prop
  | .push .. =>
    (s.Full → s.wIdx = 0) ∧ (s.hold = false → 2 ≤ s.queueNum ∧ (s.Parked → s.Full))
  | .ack .. => True
  | .timeout => s.timer = true → s.hold = false → s.Full →
    s.state = .waitAck ∧ s.Exhausts dtWaitAckResendNum ∨
      s.state = .retry ∧ s.Exhausts dtRetryResendNum
  | .reset => True
  | .hold hold => hold = false → s.Parked → (s.data s.rIdx).used = false

instance (s : Db) : Decidable s.Parked := inferInstanceAs (Decidable (_ ∧ _))

instance (s : Db) : Decidable s.Full := inferInstanceAs (Decidable (_ = _))

instance (s : Db) : (op : Op) → Decidable (s.Meets op)
  | .push .. => inferInstanceAs (Decidable ((s.Full → _) ∧ _))
  | .timeout => inferInstanceAs (Decidable (_ → _ → s.Full → _))
  | .hold _ => inferInstanceAs (Decidable (_ → s.Parked → _))
  | .ack .. | .reset => .isTrue trivial

def Sound (s : Db) : Prop := ∃ held, s.Queued held ∧ (s.hold = false → held ≠ [] → s.timer = true)

theorem Queued.pop (send : Nat → UInt8) (h : s.Queued held) (htimer : s.timer = false)
    (hstate : s.state = .idle) (hroom : s.hold = true ∨ held.length < s.queueNum) :
    ∃ s' held', s.pop send = some s' ∧ s'.Inv held' :=
  h.pop_inv htimer hstate hroom (Nat.lt_succ_of_le h.length_le)

theorem Inv.cons (h : s.Inv held) (htimer : s.timer = true) : ∃ d rest, held = d :: rest :=
  List.exists_cons_of_ne_nil (h.nonempty htimer)

theorem Inv.pushDataQueue (h : s.Inv held) (idx : UInt8) (data : List UInt8) (len : Nat)
    (mode : Mode) (hmeets : s.Meets (.push idx data len mode)) :
    ∃ s' held', s.pushDataQueue send idx data len mode = some s' ∧ s'.Inv held' := by
  obtain ⟨hzero, hoff⟩ := hmeets
  let d : Data := { used := true, pkt := some { push := s.pushed, data }, pktLen := len, idx, mode }
  unfold Db.pushDataQueue
  by_cases hfull : s.Full
  -- the slot chosen before the reset is the first one, as that of the reset is
  . have hw : s.queueReset.wIdx = s.wIdx := (hzero hfull).symm
    have hput : (s.queueReset.put s.wIdx d).Queued [d] := by
      have hpos : ([] : List Data).length < s.queueReset.queueNum := by
        rw [queueNum_queueReset]
        exact h.queueNum_pos
      exact hw ▸ h.reset.push (d := d) hpos rfl rfl rfl
    obtain ⟨s', held', hpop, hinv⟩ := hput.pop send rfl rfl (by
      by_cases hhold : s.hold = true
      . exact .inl hhold
      . have htwo := (hoff (Bool.eq_false_iff.mpr hhold)).1
        refine .inr ?_
        show 1 < (s.queueReset.queueData.set s.wIdx d).length
        rw [List.length_set, queueReset, List.length_map]
        exact htwo)
    exact ⟨s', held', (if_pos hfull).trans hpop, hinv⟩
  . have hroom : held.length < s.queueNum :=
      Nat.lt_of_le_of_ne h.length_le fun heq => hfull (h.back.mpr heq)
    have hput : (s.put s.wIdx d).Queued (held ++ [d]) := h.toQueued.push hroom rfl rfl rfl
    have hnum : (s.put s.wIdx d).queueNum = s.queueNum := List.length_set
    suffices hsuff : ∃ s' held', (s.put s.wIdx d).pop send = some s' ∧ s'.Inv held' by
      obtain ⟨s', held', hpop, hinv⟩ := hsuff
      exact ⟨s', held', (if_neg hfull).trans hpop, hinv⟩
    by_cases hhold : s.hold = true
    . exact ⟨_, _, popDataQueue_hold hhold, hput.inv_hold hhold fun _ => by simp⟩
    have hfalse : s.hold = false := Bool.eq_false_iff.mpr hhold
    obtain ⟨htwo, hparked⟩ := hoff hfalse
    by_cases hidle : s.state = .idle
    . obtain ⟨rfl, htimer⟩ := h.idle hidle
      exact hput.pop send htimer hidle (.inr (by rw [hnum]; exact htwo))
    -- every state but the idle one has a timer; a parked queue would be full
    . have htimer : s.timer = true := by
        cases hstate : s.state with
        | idle => exact absurd hstate hidle
        | next => exact absurd hstate h.next
        | waitAck => exact h.waiting (.inl hstate)
        | retry => exact h.waiting (.inr hstate)
        | waitReady =>
          by_contra hnot
          exact hfull (hparked ⟨hstate, Bool.eq_false_iff.mpr hnot⟩)
      obtain ⟨e, rest, rfl⟩ := h.cons htimer
      exact ⟨_, _, popDataQueue_busy hfalse hidle, { hput with
        idle := fun hstate => absurd hstate hidle
        next := h.next
        waiting := h.waiting
        nonempty := fun _ => by simp
        progress := fun _ _ => htimer
        acked := h.acked
        retried := h.retried }⟩

theorem Inv.switchCheck (h : s.Inv held) (eventId : UInt16) (isBigEnd : Bool) :
    ∃ s' held', s.switchCheck send eventId isBigEnd = some s' ∧ s'.Inv held' := by
  unfold Db.switchCheck
  split
  . exact ⟨s, held, rfl, h⟩
  . next p hp =>
    split_ifs with hid hstate
    . exact ⟨s, held, rfl, h⟩
    . exact ⟨s, held, rfl, h⟩
    . have hack : s.state = .waitAck := by simpa using hstate
      obtain ⟨d, rest, rfl⟩ := h.cons (h.waiting (.inl hack))
      have hstopped : ({ s with timer := false } : Db).Queued (d :: rest) := { h.toQueued with }
      have hdrop : (({ s with timer := false } : Db).dropDataQueue .acked).Queued rest :=
        hstopped.drop (h.acked hack d rfl)
      refine hdrop.pop send ?_ rfl (.inr ?_)
      . rw [timer_dropDataQueue]
      . rw [queueNum_dropDataQueue]
        exact h.length_le

theorem Queued.dataTransferResend (h : s.Queued (d :: rest))
    (htimer : s.timer = false) (resendNum : Nat) (hsent : ∀ p ∈ d.pkt, ∃ b, (p.push, b) ∈ s.sent)
    (hroom : s.hold = false → s.Full → s.Exhausts resendNum) :
    ∃ s' held', s.dataTransferResend send resendNum = some s' ∧ s'.Inv held' := by
  let counted : Db := { s with
    resend := ((if s.noAck then resendNum else s.resend) + 1) % 2 ^ 8 }
  have hcounted : counted.Queued (d :: rest) := { h with }
  unfold Db.dataTransferResend
  by_cases hexhausts : s.Exhausts resendNum
  . have hdrop : (counted.dropDataQueue .exhausted).Queued rest := hcounted.drop hsent
    have hnum : (counted.dropDataQueue .exhausted).queueNum = s.queueNum := queueNum_dropDataQueue _
    obtain ⟨s', held', hpop, hinv⟩ := hdrop.pop send
      ((timer_dropDataQueue _).trans htimer) rfl (.inr (by rw [hnum]; exact h.length_le))
    exact ⟨s', held', (if_pos hexhausts).trans hpop, hinv⟩
  -- the packet stays, so the queue must not be full when it is sent again
  . have hidle : ({ counted with state := .idle } : Db).Queued (d :: rest) := { h with }
    obtain ⟨s', held', hpop, hinv⟩ := hidle.pop send htimer rfl (by
      by_cases hhold : s.hold = true
      . exact .inl hhold
      . refine .inr (Nat.lt_of_le_of_ne h.length_le fun hlen => hexhausts ?_)
        exact hroom (Bool.eq_false_iff.mpr hhold) (h.back.mpr hlen))
    exact ⟨s', held', (if_neg hexhausts).trans hpop, hinv⟩

theorem Inv.handleTimeout (send : Nat → UInt8) (h : s.Inv held) (htimer : s.timer = true)
    (hmeets : s.Meets .timeout) :
    ∃ s' held', s.handleTimeout send = some s' ∧ s'.Inv held' := by
  obtain ⟨d, rest, rfl⟩ := h.cons htimer
  have hstopped : ({ s with timer := false } : Db).Queued (d :: rest) := { h.toQueued with }
  have hmeets := hmeets htimer
  cases hstate : s.state with
  | idle =>
    rw [(h.idle hstate).2] at htimer
    cases htimer
  | next => exact absurd hstate h.next
  | waitAck =>
    have hcall : s.handleTimeout send =
        ({ s with timer := false } : Db).dataTransferResend send dtWaitAckResendNum := by
      simp only [Db.handleTimeout, hstate]
    rw [hcall]
    refine hstopped.dataTransferResend rfl _ (fun p hp => ⟨true, h.acked hstate d rfl p hp⟩) ?_
    intro hhold hfull
    obtain ⟨-, hexhausts⟩ | ⟨hretry, -⟩ := hmeets hhold hfull
    . exact hexhausts
    . rw [hstate] at hretry
      cases hretry
  | retry =>
    have hcall : s.handleTimeout send =
        ({ s with timer := false } : Db).dataTransferResend send dtRetryResendNum := by
      simp only [Db.handleTimeout, hstate]
    rw [hcall]
    refine hstopped.dataTransferResend rfl _ (fun p hp => h.retried hstate d rfl p hp) ?_
    intro hhold hfull
    obtain ⟨hack, -⟩ | ⟨-, hexhausts⟩ := hmeets hhold hfull
    . rw [hstate] at hack
      cases hack
    . exact hexhausts
  | waitReady =>
    have hidle : ({ s with timer := false, state := .idle } : Db).Queued (d :: rest) :=
      { h.toQueued with }
    have hcall : s.handleTimeout send =
        ({ s with timer := false, state := .idle } : Db).pop send := by
      simp only [Db.handleTimeout, hstate]
    rw [hcall]
    refine hidle.pop send rfl rfl ?_
    by_cases hhold : s.hold = true
    . exact .inl hhold
    . refine .inr (Nat.lt_of_le_of_ne h.length_le fun hlen => ?_)
      obtain ⟨hack, -⟩ | ⟨hretry, -⟩ := hmeets (Bool.eq_false_iff.mpr hhold) (h.back.mpr hlen)
      . rw [hstate] at hack
        cases hack
      . rw [hstate] at hretry
        cases hretry

theorem Inv.queueReset (h : s.Inv held) : s.queueReset.Inv [] where
  toQueued := h.toQueued.reset
  idle _ := ⟨rfl, rfl⟩
  next := nofun
  waiting := nofun
  nonempty := nofun
  progress _ hne := absurd rfl hne
  acked := nofun
  retried := nofun

theorem Inv.cfgHoldFlag (h : s.Inv held) (hold : Bool) (hmeets : s.Meets (.hold hold)) :
    (s.cfgHoldFlag hold).Inv held := by
  refine { h with
    toQueued := { h.toQueued with }
    progress := fun hoff hne => ?_ }
  -- only a parked queue is without a timer, and its first slot would be unused
  cases hstate : s.state with
  | idle => exact absurd (h.idle hstate).1 hne
  | next => exact absurd hstate h.next
  | waitAck => exact h.waiting (.inl hstate)
  | retry => exact h.waiting (.inr hstate)
  | waitReady =>
    show s.timer = true
    by_contra hnot
    obtain ⟨d, rest, rfl⟩ := List.exists_cons_of_ne_nil hne
    obtain ⟨hdata, hused⟩ := h.front
    have hunused := hmeets hoff ⟨hstate, Bool.eq_false_iff.mpr hnot⟩
    rw [hdata, hused] at hunused
    cases hunused

theorem Inv.sound (h : s.Inv held) : s.Sound := ⟨held, h.toQueued, h.progress⟩

end Db

open Db

variable {send : Nat → UInt8}

theorem step_inv (h : s.Inv held) (hmeets : s.Meets op) :
    ∃ s' held', step send s op = some s' ∧ s'.Inv held' := by
  cases op with
  | push idx data len mode => exact h.pushDataQueue idx data len mode hmeets
  | ack eventId isBigEnd => exact h.switchCheck eventId isBigEnd
  | timeout =>
    by_cases htimer : s.timer = true
    . obtain ⟨s', held', hstep, hinv⟩ := h.handleTimeout send htimer hmeets
      exact ⟨s', held', (if_pos htimer).trans hstep, hinv⟩
    . exact ⟨s, held, if_neg htimer, h⟩
  | reset => exact ⟨_, [], rfl, h.queueReset⟩
  | hold hold => exact ⟨_, held, rfl, h.cfgHoldFlag hold hmeets⟩

theorem inv_create {queueNum : Nat} (hpos : 0 < queueNum) (offset : Nat) (hold noAck : Bool) :
    (create queueNum offset hold noAck).Inv [] where
  ring := by
    rw [show ((create queueNum offset hold noAck).queueData.map view) =
      List.replicate queueNum none from List.map_replicate]
    exact Ring.holds_replicate hpos
  wIdx := (Nat.zero_mod _).symm
  pkt := nofun
  freed := .refl _
  order := .nil
  pushed := nofun
  cause := nofun
  idle _ := ⟨rfl, rfl⟩
  next := nofun
  waiting := nofun
  nonempty := nofun
  progress _ hne := absurd rfl hne
  acked := nofun
  retried := nofun

def run (send : Nat → UInt8) (s : Option Db) (op : Op) : Option Db := s.bind (step send · op)

def pushEvent (event : UInt8) : Op := .push 0 [event, 0] 2 .needAck

def sendOk : Nat → UInt8 := fun _ => dtOk

end DataTransfer
