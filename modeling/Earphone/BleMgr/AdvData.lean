import Earphone.Lib.Always

/-!
This module contains the rotation of the advertising data.
-/

namespace BleAdvData

inductive State where
  | disabled
  | enabled
  deriving DecidableEq

structure Data where
  len : UInt16
  address : Nat
  deriving DecidableEq

structure AdvDataItem where
  handle : Nat
  advData : Data
  scanResp : Data

structure World where
  updateScanData : Bool
  preferState : State
  currState : State
  advDataQueue : List AdvDataItem
  currIdx : UInt8
  timer : Bool
  mgrState : State
  advData : Option Data
  scanResp : Option Data

inductive Op where
  | add (ppHandle : Bool) (advData scanResp : Data) (memory : Option Nat)
  | del (handle : Option Nat)
  | enable
  | disable
  | expiry
  | stopped
  | connInfo
  | disconnected
  deriving DecidableEq

namespace World

variable (w : World)

def init (updateScanData : Bool) : World where
  updateScanData := updateScanData
  preferState := .disabled
  currState := .disabled
  advDataQueue := []
  currIdx := 0
  timer := false
  mgrState := .disabled
  advData := none
  scanResp := none

def mgrEnable : World :=
  if w.mgrState = .disabled then { w with mgrState := .enabled, currState := .enabled } else w

def mgrDisable : World :=
  if w.mgrState = .enabled then { w with mgrState := .disabled, currState := .disabled } else w

def setData (item : AdvDataItem) : World :=
  let scanResp := if w.updateScanData then some item.scanResp else w.scanResp
  { w with scanResp, advData := some item.advData }

def timerCallback : World :=
  let idx := w.currIdx + 1
  let idx := if idx.toNat ≥ w.advDataQueue.length then 0 else idx
  let w := { w with currIdx := idx }
  match w.advDataQueue[idx.toNat]? with
  | some item => w.setData item
  | none => w

def checkTimer : World :=
  match w.advDataQueue with
  | [] =>
    let w := if w.currState = .enabled then w.mgrDisable else w
    { w with timer := false }
  | [item] =>
    let w := w.setData item
    let w := if w.preferState = .enabled ∧ w.currState = .disabled then w.mgrEnable else w
    { w with timer := false }
  | _ =>
    if w.preferState = .enabled then
      let w := if w.currState = .disabled then w.mgrEnable else w
      { w with timer := true }
    else
      { w with timer := false }

def checkState : World :=
  if w.preferState ≠ w.currState then
    if w.preferState = .enabled then
      if w.advDataQueue.length ≠ 0 then
        let w := w.mgrEnable
        if w.advDataQueue.length ≠ 1 then { w with timer := true } else w
      else
        w
    else
      let w := w.mgrDisable
      { w with timer := false }
  else
    w

def add (ppHandle : Bool) (advData scanResp : Data) (memory : Option Nat) : World × Option Nat :=
  if ppHandle = false ∨ advData.address = 0 then
    (w, none)
  else
    match w.advDataQueue.find? (·.advData == advData) with
    | some item => (w, some item.handle)
    | none =>
      match memory with
      | some handle =>
        let advDataQueue := w.advDataQueue ++ [{ handle, advData, scanResp }]
        (checkTimer { w with advDataQueue }, some handle)
      | none => (w, none)

def del (handle : Option Nat) : World × Bool :=
  match handle with
  | some handle =>
    if w.advDataQueue.any (·.handle == handle) then
      let advDataQueue := w.advDataQueue.filter (·.handle != handle)
      (checkTimer { w with advDataQueue }, true)
    else
      (w, false)
  | none => (w, false)

def enable : World := checkState { w with preferState := .enabled }

def disable : World := checkState { w with preferState := .disabled }

def stopped : World := w.mgrDisable

def free (memory : Option Nat) : Option Nat :=
  memory.filter fun handle => w.advDataQueue.all (·.handle != handle)

def step : Op → World
  | .add ppHandle advData scanResp memory =>
    (w.add ppHandle advData scanResp (w.free memory)).1
  | .del handle => (w.del handle).1
  | .enable => w.enable
  | .disable => w.disable
  | .expiry => w.timerCallback
  | .stopped => w.stopped
  | .connInfo | .disconnected => w.checkState

def TimerKept : Prop := w.timer = true ↔ w.preferState = .enabled ∧ 2 ≤ w.advDataQueue.length

def RequestKept : Prop := w.mgrState = .enabled → w.advDataQueue ≠ []

def DataKept : Prop :=
  ∀ advData ∈ w.advData, ∃ item ∈ w.advDataQueue, item.advData = advData ∧
    (w.updateScanData = true → w.scanResp = some item.scanResp)

def handed : Op → List AdvDataItem
  | .expiry => (w.advDataQueue[w.timerCallback.currIdx.toNat]?).toList
  | _ => []

def visited (w : World) : List Op → List AdvDataItem
  | [] => []
  | op :: ops => w.handed op ++ visited (w.step op) ops

def Quiet : Op → Prop
  | .add .. | .del _ => False
  | _ => True

def Rounds : Prop :=
  ∀ ops : List Op, (∀ op ∈ ops, Quiet op) → ops.count .expiry = w.advDataQueue.length →
    (w.visited ops).Perm w.advDataQueue

def TimerSafe : Op → Prop
  | .disable =>
    ¬(w.preferState = .enabled ∧ w.mgrState = .disabled ∧ 2 ≤ w.advDataQueue.length)
  | _ => True

def DataSafe : Op → Prop
  | .del (some handle) => ∀ item ∈ w.advDataQueue, item.handle = handle →
    item.advData ∈ w.advData → (w.advDataQueue.filter (·.handle != handle)).length = 1
  | _ => True

structure Inv : Prop where
  told : w.currState = w.mgrState
  wanted : w.mgrState = .enabled → w.preferState = .enabled
  request : w.RequestKept
  handles : (w.advDataQueue.map (·.handle)).Nodup
  data : (w.advDataQueue.map (·.advData)).Nodup

section

variable {w} {item : AdvDataItem}

structure SameQueue (w w' : World) : Prop where
  queue : w'.advDataQueue = w.advDataQueue
  prefer : w'.preferState = w.preferState
  update : w'.updateScanData = w.updateScanData

theorem mgrEnable_same : SameQueue w w.mgrEnable := by
  unfold mgrEnable
  split <;> exact ⟨rfl, rfl, rfl⟩

theorem mgrDisable_same : SameQueue w w.mgrDisable := by
  unfold mgrDisable
  split <;> exact ⟨rfl, rfl, rfl⟩

theorem mgrEnable_state (htold : w.currState = w.mgrState) :
    w.mgrEnable.currState = .enabled ∧ w.mgrEnable.mgrState = .enabled := by
  unfold mgrEnable
  cases hm : w.mgrState with
  | disabled => exact ⟨rfl, rfl⟩
  | enabled => exact ⟨htold.trans hm, hm⟩

theorem mgrDisable_state (htold : w.currState = w.mgrState) :
    w.mgrDisable.currState = .disabled ∧ w.mgrDisable.mgrState = .disabled := by
  unfold mgrDisable
  cases hm : w.mgrState with
  | enabled => exact ⟨rfl, rfl⟩
  | disabled => exact ⟨htold.trans hm, hm⟩

theorem mgrEnable_rest : w.mgrEnable.timer = w.timer ∧ w.mgrEnable.advData = w.advData ∧
    w.mgrEnable.scanResp = w.scanResp ∧ w.mgrEnable.currIdx = w.currIdx := by
  unfold mgrEnable
  split <;> exact ⟨rfl, rfl, rfl, rfl⟩

theorem mgrDisable_rest : w.mgrDisable.timer = w.timer ∧ w.mgrDisable.advData = w.advData ∧
    w.mgrDisable.scanResp = w.scanResp ∧ w.mgrDisable.currIdx = w.currIdx := by
  unfold mgrDisable
  split <;> exact ⟨rfl, rfl, rfl, rfl⟩

theorem checkTimer_nil (h : w.advDataQueue = []) (htold : w.currState = w.mgrState) :
    ∃ w', w.checkTimer = { w' with timer := false } ∧ SameQueue w w' ∧
      w'.currState = .disabled ∧ w'.mgrState = .disabled ∧ w'.advData = w.advData ∧
      w'.scanResp = w.scanResp := by
  unfold checkTimer
  rw [h]
  dsimp only
  cases hc : w.currState with
  | enabled =>
    rw [if_pos rfl]
    exact ⟨_, rfl, mgrDisable_same, (mgrDisable_state htold).1, (mgrDisable_state htold).2,
      mgrDisable_rest.2.1, mgrDisable_rest.2.2.1⟩
  | disabled =>
    rw [if_neg (by decide)]
    exact ⟨w, rfl, ⟨rfl, rfl, rfl⟩, hc, htold.symm.trans hc, rfl, rfl⟩

theorem enable_if (htold : w.currState = w.mgrState)
    (hwanted : w.mgrState = .enabled → w.preferState = .enabled) :
    ∃ w', (if w.preferState = .enabled ∧ w.currState = .disabled then w.mgrEnable else w) = w' ∧
      SameQueue w w' ∧ w'.currState = w.preferState ∧ w'.mgrState = w.preferState ∧
      w'.timer = w.timer ∧ w'.advData = w.advData ∧ w'.scanResp = w.scanResp := by
  split
  . next h =>
    obtain ⟨hcurr, hmgr⟩ := mgrEnable_state htold
    exact ⟨_, rfl, mgrEnable_same, hcurr.trans h.1.symm, hmgr.trans h.1.symm, mgrEnable_rest.1,
      mgrEnable_rest.2.1, mgrEnable_rest.2.2.1⟩
  . next h =>
    have hsame : w.currState = w.preferState := by
      cases hc : w.currState with
      | enabled => exact (hwanted (htold.symm.trans hc)).symm
      | disabled =>
        cases hp : w.preferState with
        | enabled => exact absurd ⟨hp, hc⟩ h
        | disabled => rfl
    exact ⟨w, rfl, ⟨rfl, rfl, rfl⟩, hsame, htold.symm.trans hsame, rfl, rfl, rfl⟩

theorem setData_same : SameQueue w (w.setData item) := ⟨rfl, rfl, rfl⟩

theorem SameQueue.trans (h : SameQueue w w') (h' : SameQueue w' w'') : SameQueue w w'' :=
  ⟨h'.queue.trans h.queue, h'.prefer.trans h.prefer, h'.update.trans h.update⟩

theorem timerKept_off (hsame : SameQueue w w') (hfew : w.advDataQueue.length < 2) :
    TimerKept { w' with timer := false } := by
  refine iff_of_false Bool.false_ne_true fun h => ?_
  have hlen : 2 ≤ w'.advDataQueue.length := h.2
  rw [hsame.queue] at hlen
  omega

theorem checkTimer_spec (htold : w.currState = w.mgrState)
    (hwanted : w.mgrState = .enabled → w.preferState = .enabled) :
    SameQueue w w.checkTimer ∧ w.checkTimer.TimerKept ∧
      w.checkTimer.currState = w.checkTimer.mgrState ∧
      (w.checkTimer.mgrState = .enabled ↔ w.preferState = .enabled ∧ w.advDataQueue ≠ []) ∧
      w.checkTimer.advData = (match w.advDataQueue with
        | [item] => some item.advData
        | _ => w.advData) ∧
      w.checkTimer.scanResp = (match w.advDataQueue with
        | [item] => if w.updateScanData then some item.scanResp else w.scanResp
        | _ => w.scanResp) := by
  cases hq : w.advDataQueue with
  | nil =>
    obtain ⟨w', heq, hsame, hcurr, hmgr, hadv, hscan⟩ := checkTimer_nil hq htold
    rw [heq]
    refine ⟨⟨hsame.1, hsame.2, hsame.3⟩, timerKept_off hsame (by simp [hq]),
      hcurr.trans hmgr.symm, ?_, hadv, hscan⟩
    dsimp only
    rw [hmgr]
    exact iff_of_false (by decide) fun h => h.2 rfl
  | cons item rest =>
    cases rest with
    | nil =>
      obtain ⟨w', heq, hsame, hcurr, hmgr, -, hadv, hscan⟩ :=
        @enable_if (w.setData item) htold hwanted
      have hcheck : w.checkTimer = { w' with timer := false } := by
        unfold checkTimer
        rw [hq, ← heq]
      have hsame := setData_same.trans hsame
      rw [hcheck]
      refine ⟨⟨hsame.1, hsame.2, hsame.3⟩, timerKept_off hsame (by simp [hq]),
        hcurr.trans hmgr.symm, ?_, hadv, hscan⟩
      dsimp only
      rw [hmgr]
      exact ⟨fun h => ⟨h, List.cons_ne_nil _ _⟩, fun h => h.1⟩
    | cons item' rest =>
      have hcheck : w.checkTimer = { (if w.preferState = .enabled ∧ w.currState = .disabled then
          w.mgrEnable else w) with timer := decide (w.preferState = .enabled) } := by
        unfold checkTimer
        rw [hq]
        dsimp only
        by_cases hp : w.preferState = .enabled
        . by_cases hc : w.currState = .disabled
          . rw [if_pos hp, if_pos hc, if_pos ⟨hp, hc⟩, decide_eq_true hp]
          . rw [if_pos hp, if_neg hc, if_neg (fun h => hc h.2), decide_eq_true hp]
        . rw [if_neg hp, if_neg (fun h => hp h.1), decide_eq_false hp, hq]
      obtain ⟨w', heq, hsame, hcurr, hmgr, -, hadv, hscan⟩ := @enable_if w htold hwanted
      rw [heq] at hcheck
      rw [hcheck]
      refine ⟨⟨hsame.1, hsame.2, hsame.3⟩, ?_, hcurr.trans hmgr.symm, ?_, hadv, hscan⟩
      . unfold TimerKept
        dsimp only
        rw [hsame.queue, hsame.prefer, hq, decide_eq_true_eq]
        exact ⟨fun h => ⟨h, by simp⟩, fun h => h.1⟩
      . dsimp only
        rw [hmgr]
        exact ⟨fun h => ⟨h, List.cons_ne_nil _ _⟩, fun h => h.1⟩

def timerAfter (w : World) : Bool :=
  if w.preferState = w.currState then w.timer
  else if w.preferState = .enabled then w.timer || decide (2 ≤ w.advDataQueue.length)
  else false

theorem checkState_spec (htold : w.currState = w.mgrState) :
    SameQueue w w.checkState ∧ w.checkState.timer = w.timerAfter ∧
      w.checkState.currState = w.checkState.mgrState ∧
      (w.checkState.mgrState = .enabled ↔
        w.preferState = .enabled ∧ (w.mgrState = .enabled ∨ w.advDataQueue ≠ [])) ∧
      w.checkState.advData = w.advData ∧ w.checkState.scanResp = w.scanResp := by
  unfold checkState timerAfter
  by_cases hsame : w.preferState = w.currState
  . rw [if_neg (not_not.mpr hsame), if_pos hsame]
    refine ⟨⟨rfl, rfl, rfl⟩, rfl, htold, ?_, rfl, rfl⟩
    rw [hsame, htold]
    exact ⟨fun h => ⟨h, .inl h⟩, fun h => h.1⟩
  rw [if_pos hsame, if_neg hsame]
  by_cases hp : w.preferState = .enabled
  . rw [if_pos hp, if_pos hp]
    have hmgr : w.mgrState ≠ .enabled := fun h => hsame (hp.trans (htold.trans h).symm)
    by_cases hempty : w.advDataQueue.length = 0
    . rw [if_neg (not_not.mpr hempty), hempty]
      refine ⟨⟨rfl, rfl, rfl⟩, (Bool.or_false _).symm, htold, ?_, rfl, rfl⟩
      refine iff_of_false hmgr fun h => ?_
      exact h.2.elim hmgr fun h => h (List.eq_nil_of_length_eq_zero hempty)
    . rw [if_pos hempty]
      obtain ⟨hcurr, hmgr'⟩ := mgrEnable_state htold
      obtain ⟨htimer, hadv, hscan, -⟩ := @mgrEnable_rest w
      have hnonempty : w.advDataQueue ≠ [] := fun h => hempty (by rw [h]; rfl)
      dsimp only
      have hqueue : w.mgrEnable.advDataQueue.length = w.advDataQueue.length := by
        rw [mgrEnable_same.queue]
      by_cases hone : w.mgrEnable.advDataQueue.length = 1
      . rw [if_neg (not_not.mpr hone), ← hqueue, hone]
        exact ⟨mgrEnable_same, htimer.trans (Bool.or_false _).symm, hcurr.trans hmgr'.symm,
          ⟨fun _ => ⟨hp, .inr hnonempty⟩, fun _ => hmgr'⟩, hadv, hscan⟩
      . rw [if_pos hone, decide_eq_true (by omega), Bool.or_true]
        refine ⟨⟨mgrEnable_same.1, mgrEnable_same.2, mgrEnable_same.3⟩, rfl, hcurr.trans hmgr'.symm,
          ?_, hadv, hscan⟩
        exact ⟨fun _ => ⟨hp, .inr hnonempty⟩, fun _ => hmgr'⟩
  . rw [if_neg hp, if_neg hp]
    obtain ⟨hcurr, hmgr'⟩ := mgrDisable_state htold
    obtain ⟨-, hadv, hscan, -⟩ := @mgrDisable_rest w
    refine ⟨⟨mgrDisable_same.1, mgrDisable_same.2, mgrDisable_same.3⟩, rfl, hcurr.trans hmgr'.symm,
      ?_, hadv, hscan⟩
    dsimp only
    rw [hmgr']
    exact iff_of_false (by decide) fun h => hp h.1

end

end World

end BleAdvData
